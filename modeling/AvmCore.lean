import AvmCore.Model.Types
import AvmCore.Model.Collections
import AvmCore.Model.Ledger
import AvmCore.Verify.FxUsage
import AvmCore.Verify.GetUTXO
import AvmCore.Verify.Transfer
import AvmCore.Issue.ParseTx
import AvmCore.Issue.Scheduler
import AvmCore.Wallet.Spend
import AvmCore.Wallet.SpendAll
import AvmCore.Wallet.Mint
import AvmCore.Wallet.NFT
import AvmCore.Init.Genesis
import AvmCore.Issue.Runs
import AvmCore.Init.Assets

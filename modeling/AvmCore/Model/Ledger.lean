import AvmCore.Model.Types

/-!
# AvmCore — ledger state

The ledger the core reads and writes through `vm.state`: stored UTXOs, transactions and
statuses, behind the versioned database `vm.db` whose `Commit` makes the writes durable.
On top of it, the views a `UniqueTx` gives of a transaction ID (`Status`, `UTXOs`, its
unsigned transaction) and its re-verification `verifyWithoutCacheWrites`.

The storage engine is a key-value map here: reads and writes do not fail.
-/

namespace AvmCore

/-- `states.State`: the stored UTXOs, transactions and statuses. UTXOs are keyed by their
`UTXOID`; the code keys them by `UTXOID.InputID`, a collision-resistant hash of it. -/
structure Ledger where
  utxos : UTXOID → Option UTXO
  txs : ID → Option Tx
  statuses : ID → Option Status

namespace Ledger

/-- `State.PutTx`. -/
def putTx (l : Ledger) (id : ID) (tx : Tx) : Ledger :=
  { l with txs := fun k => if k = id then some tx else l.txs k }

/-- `State.PutStatus`. -/
def putStatus (l : Ledger) (id : ID) (st : Status) : Ledger :=
  { l with statuses := fun k => if k = id then some st else l.statuses k }

/-- `State.PutUTXO`. -/
def putUTXO (l : Ledger) (id : UTXOID) (utxo : UTXO) : Ledger :=
  { l with utxos := fun k => if k = id then some utxo else l.utxos k }

/-- `UniqueTx.Status`: the stored status, `Unknown` when none is stored. -/
def status (l : Ledger) (id : ID) : Status := (l.statuses id).getD .unknown

/-- `UniqueTx.UTXOs`: the UTXOs of the stored transaction, none when it is not stored. -/
def txUTXOs (l : Ledger) (id : ID) : List UTXO := ((l.txs id).map Tx.utxos).getD []

/-- `UniqueTx.UnsignedTx`: the unsigned transaction stored under `id`. -/
def unsignedTx? (l : Ledger) (id : ID) : Option UnsignedTx := (l.txs id).map Tx.unsignedTx

@[simp] theorem status_putTx (l : Ledger) (id k : ID) (tx : Tx) :
    (l.putTx id tx).status k = l.status k := rfl

@[simp] theorem status_putStatus (l : Ledger) (id k : ID) (st : Status) :
    (l.putStatus id st).status k = if k = id then st else l.status k := by
  unfold status putStatus; split <;> simp_all

@[simp] theorem txs_putStatus (l : Ledger) (id : ID) (st : Status) :
    (l.putStatus id st).txs = l.txs := rfl

@[simp] theorem txs_putTx (l : Ledger) (id k : ID) (tx : Tx) :
    (l.putTx id tx).txs k = if k = id then some tx else l.txs k := rfl

@[simp] theorem utxos_putTx (l : Ledger) (id : ID) (tx : Tx) : (l.putTx id tx).utxos = l.utxos :=
  rfl

@[simp] theorem utxos_putStatus (l : Ledger) (id : ID) (st : Status) :
    (l.putStatus id st).utxos = l.utxos := rfl

@[simp] theorem txs_putUTXO (l : Ledger) (id : UTXOID) (utxo : UTXO) :
    (l.putUTXO id utxo).txs = l.txs := rfl

@[simp] theorem status_putUTXO (l : Ledger) (id : UTXOID) (utxo : UTXO) (k : ID) :
    (l.putUTXO id utxo).status k = l.status k := rfl

@[simp] theorem utxos_putUTXO (l : Ledger) (id k : UTXOID) (utxo : UTXO) :
    (l.putUTXO id utxo).utxos k = if k = id then some utxo else l.utxos k := rfl

/-- `l'` is a later state of `l`: every transaction `l` knows is still known in `l'`, with the
same content. Statuses only move forward (Unknown → Processing → decided), and a
transaction's ID is the hash of its bytes, so later ledgers agree on known transactions. -/
def Extends (l l' : Ledger) : Prop :=
  ∀ id, (l.status id).fetched → (l'.status id).fetched ∧ l'.txs id = l.txs id

theorem Extends.refl (l : Ledger) : l.Extends l := fun _ h => ⟨h, rfl⟩

theorem Extends.trans {l₁ l₂ l₃ : Ledger} (h₁ : l₁.Extends l₂) (h₂ : l₂.Extends l₃) :
    l₁.Extends l₃ := fun id h =>
  ⟨(h₂ id (h₁ id h).1).1, (h₂ id (h₁ id h).1).2.trans (h₁ id h).2⟩

end Ledger

/-- `versiondb.Database` over the base database: reads and writes go to `view`, and
`Commit` writes `view` through to `base`. -/
structure VersionDB where
  view : Ledger
  base : Ledger

/-- `versiondb.Database.Commit`. -/
def VersionDB.commit (db : VersionDB) : VersionDB := { db with base := db.view }

/-- A write to the current view. -/
def VersionDB.update (db : VersionDB) (f : Ledger → Ledger) : VersionDB :=
  { db with view := f db.view }

/-! ## Re-verification of a transaction -/

/-- Modelled from the spec: `UniqueTx.verifyWithoutCacheWrites` is not under src/. Following
the transaction lifecycle of the spec (Unknown → Processing → {Accepted, Rejected}), an
unknown transaction cannot be re-verified, an accepted one stands, a rejected one fails, and
a processing one is re-verified by the semantic checks of its inputs and operations, which
`semanticVerify` stands for. Those checks run `verifyTransfer` and `verifyOperation`, so they
read and write the state `σ` these do: the capability cache, where it is modelled. -/
def verifyWithoutCacheWrites {σ : Type} (semanticVerify : ID → σ → Except Err Unit × σ)
    (l : Ledger) (txID : ID) (s : σ) : Except Err Unit × σ :=
  match l.status txID with
  | .unknown => (.error .unknownTx, s)
  | .accepted => (.ok (), s)
  | .rejected => (.error .rejectedTx, s)
  | .processing => semanticVerify txID s

/-- A transaction that passes re-verification and is not decided is processing. -/
theorem verifyWithoutCacheWrites_undecided {σ : Type} {sv : ID → σ → Except Err Unit × σ}
    {l : Ledger} {txID : ID} {s : σ} :
    ((verifyWithoutCacheWrites sv l txID s).1 = .ok () ∧ (l.status txID).decided = false) ↔
      (l.status txID = .processing ∧ (sv txID s).1 = .ok ()) := by
  unfold verifyWithoutCacheWrites
  cases l.status txID <;> simp [Status.decided]

/-- A transaction that passes re-verification is known to the ledger. -/
theorem verifyWithoutCacheWrites_fetched {σ : Type} {sv : ID → σ → Except Err Unit × σ}
    {l : Ledger} {txID : ID} {s : σ} (h : (verifyWithoutCacheWrites sv l txID s).1 = .ok ()) :
    (l.status txID).fetched = true := by
  unfold verifyWithoutCacheWrites at h
  cases hs : l.status txID <;> simp_all [Status.fetched]

/-- Only the semantic checks of a processing transaction touch the state. -/
theorem verifyWithoutCacheWrites_snd {σ : Type} (sv : ID → σ → Except Err Unit × σ)
    (l : Ledger) (txID : ID) (s : σ) :
    (verifyWithoutCacheWrites sv l txID s).2 =
      if l.status txID = .processing then (sv txID s).2 else s := by
  unfold verifyWithoutCacheWrites
  cases l.status txID <;> rfl

end AvmCore

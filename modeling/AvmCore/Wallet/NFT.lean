import AvmCore.Wallet.Mint

/-!
# AvmCore — NFT transfers and mints

`SpendNFT` and `MintNFT` scan the UTXOs in order for the first one they can turn into an
operation and stop there: the loop `break`s as soon as `ops` is non-empty. They differ only in
what they look for and what they build, so the loop and the code around it are one
definition each, `firstOpLoop` and `firstOpCall`, and each function passes its own check.

The checks are `spendNFTMatch` and `mintNFTMatch`, as the code makes them; `NFTTransferMatch`
and `NFTMintMatch` say in words which UTXOs they accept, and a lemma connects each pair.

Main results:

* `firstOpCall_eq` — the shared code returns the first match alone, or its error;
* `nft_first_match` — `SpendNFT` fails exactly when no UTXO is an NFT of the asset and group
  the keychain can spend, and otherwise transfers the first such NFT alone to `toAddr`;
  `MintNFT` obeys the same law for the mint outputs of the asset.
-/

namespace AvmCore

/-! ## The shared loop -/

/-- The loop shared by `VM.SpendNFT` and `VM.MintNFT`: it appends the operation `select`
builds from a UTXO, and breaks once `ops` holds one. -/
def firstOpLoop (select : UTXO → Option (Operation × Signers)) :
    List UTXO → List (Operation × Signers) → List (Operation × Signers)
  | [], ops => ops
  | utxo :: utxos, ops =>
    if ops.length > 0 then ops
    else match select utxo with
      | none => firstOpLoop select utxos ops
      | some op => firstOpLoop select utxos (ops ++ [op])

/-- The code shared by `VM.SpendNFT` and `VM.MintNFT` around the loop: fail with `err` when
the loop built nothing, else sort the operations with their signers. -/
def firstOpCall (marshal : Operation → Except Err Bytes)
    (select : UTXO → Option (Operation × Signers)) (err : Err) (utxos : List UTXO) :
    Except Err (List Operation × List Signers) :=
  let ops := firstOpLoop select utxos []
  if ops.length = 0 then .error err
  else .ok (sortOperationsWithSigners marshal ops)

/-- Once `ops` holds an operation the loop breaks. -/
theorem firstOpLoop_of_ne_nil (select : UTXO → Option (Operation × Signers)) :
    ∀ (utxos : List UTXO) {ops : List (Operation × Signers)}, ops ≠ [] →
      firstOpLoop select utxos ops = ops
  | [], _, _ => rfl
  | _ :: _, _, h => by simp [firstOpLoop, List.length_pos.mpr h]

/-- Started empty, the loop returns the first operation `select` builds, alone. -/
theorem firstOpLoop_nil_eq (select : UTXO → Option (Operation × Signers)) :
    ∀ utxos : List UTXO, firstOpLoop select utxos [] = (utxos.findSome? select).toList
  | [] => rfl
  | utxo :: utxos => by
    cases h : select utxo with
    | none => simp [firstOpLoop, h, firstOpLoop_nil_eq select utxos]
    | some op => simp [firstOpLoop, h, firstOpLoop_of_ne_nil]

/-- **The shared code.** It returns the first operation `select` builds with its signers, or
fails with `err` when `select` builds none. -/
theorem firstOpCall_eq (marshal : Operation → Except Err Bytes)
    (select : UTXO → Option (Operation × Signers)) (err : Err) (utxos : List UTXO) :
    firstOpCall marshal select err utxos =
      match utxos.findSome? select with
      | none => .error err
      | some (op, signers) => .ok ([op], [signers]) := by
  simp only [firstOpCall, firstOpLoop_nil_eq]
  rcases utxos.findSome? select with _ | ⟨op, signers⟩ <;> simp

theorem firstOpCall_eq_error_iff (marshal : Operation → Except Err Bytes)
    (select : UTXO → Option (Operation × Signers)) (err : Err) (utxos : List UTXO) :
    firstOpCall marshal select err utxos = .error err ↔ ∀ u ∈ utxos, select u = none := by
  rw [firstOpCall_eq, ← List.findSome?_eq_none_iff]
  rcases utxos.findSome? select with _ | ⟨op, signers⟩ <;> simp

/-- The first UTXO `select` accepts decides the result, whatever comes after it. -/
theorem firstOpCall_of_first (marshal : Operation → Except Err Bytes)
    {select : UTXO → Option (Operation × Signers)} (err : Err) {pre post : List UTXO} {u : UTXO}
    {op : Operation} {signers : Signers} (hpre : ∀ v ∈ pre, select v = none)
    (hu : select u = some (op, signers)) :
    firstOpCall marshal select err (pre ++ u :: post) = .ok ([op], [signers]) := by
  rw [firstOpCall_eq, List.findSome?_append, List.findSome?_eq_none_iff.mpr hpre,
    List.findSome?_cons_of_isSome _ (by simp [hu]), hu]
  rfl

/-! ## `SpendNFT` -/

/-- The checks of the loop of `VM.SpendNFT` on one UTXO: asset `assetID`, an
`*nftfx.TransferOutput` of group `groupID`, and owners `kc.Match` accepts at `time`; the
output, and the signature indices and signers `kc.Match` returns. -/
def spendNFTMatch (kc : Keychain) (time : UInt64) (assetID : ID) (groupID : UInt32)
    (utxo : UTXO) : Option (NftTransferOutput × List UInt32 × Signers) :=
  if utxo.asset ≠ assetID then none
  else match utxo.out with
    | .nftTransfer out =>
      if out.groupID ≠ groupID then none
      else (kc.matchOwners out.owners time).map fun (indices, signers) => (out, indices, signers)
    | _ => none

/-- The `*nftfx.TransferOperation` the loop of `VM.SpendNFT` builds, and its signers. -/
def nftTransferOperation (toAddr : ShortID) :
    UTXO × NftTransferOutput × List UInt32 × Signers → Operation × Signers
  | (utxo, out, indices, signers) =>
    (⟨utxo.asset, [utxo.utxoID],
      .nftTransfer ⟨indices⟩ ⟨out.groupID, out.payload, ⟨0, 1, [toAddr]⟩⟩⟩, signers)

/-- `VM.SpendNFT`, with the codec's `Marshal` as `marshal`. -/
def SpendNFT (marshal : Operation → Except Err Bytes) (kc : Keychain) (time : UInt64)
    (utxos : List UTXO) (assetID : ID) (groupID : UInt32) (toAddr : ShortID) :
    Except Err (List Operation × List Signers) :=
  firstOpCall marshal
    (fun utxo => (spendNFTMatch kc time assetID groupID utxo).map fun m =>
      nftTransferOperation toAddr (utxo, m))
    .insufficientFunds utxos

/-! ## `MintNFT` -/

/-- The checks of the loop of `VM.MintNFT` on one UTXO: asset `assetID`, an
`*nftfx.MintOutput`, and owners `kc.Match` accepts at `time`. -/
def mintNFTMatch (kc : Keychain) (time : UInt64) (assetID : ID) (utxo : UTXO) :
    Option (NftMintOutput × List UInt32 × Signers) :=
  if utxo.asset ≠ assetID then none
  else match utxo.out with
    | .nftMint out =>
      (kc.matchOwners out.owners time).map fun (indices, signers) => (out, indices, signers)
    | _ => none

/-- The `*nftfx.MintOperation` the loop of `VM.MintNFT` builds, and its signers. -/
def nftMintOperation (assetID : ID) (payload : Bytes) (toAddr : ShortID) :
    UTXO × NftMintOutput × List UInt32 × Signers → Operation × Signers
  | (utxo, out, indices, signers) =>
    (⟨assetID, [utxo.utxoID], .nftMint ⟨indices⟩ out.groupID payload [⟨0, 1, [toAddr]⟩]⟩,
      signers)

/-- `VM.MintNFT`, with the codec's `Marshal` as `marshal`. -/
def MintNFT (marshal : Operation → Except Err Bytes) (kc : Keychain) (time : UInt64)
    (utxos : List UTXO) (assetID : ID) (payload : Bytes) (toAddr : ShortID) :
    Except Err (List Operation × List Signers) :=
  firstOpCall marshal
    (fun utxo => (mintNFTMatch kc time assetID utxo).map fun m =>
      nftMintOperation assetID payload toAddr (utxo, m))
    .addressesCantMintAsset utxos

/-! ## Which UTXOs the loops accept -/

/-- A UTXO `SpendNFT` can transfer: an NFT of asset `assetID` and group `groupID` whose owners
the keychain matches at `time`, with the indices and signers of the match. -/
def NFTTransferMatch (kc : Keychain) (time : UInt64) (assetID : ID) (groupID : UInt32)
    (u : UTXO) (out : NftTransferOutput) (indices : List UInt32) (signers : Signers) : Prop :=
  u.asset = assetID ∧ u.out = .nftTransfer out ∧ out.groupID = groupID ∧
    kc.matchOwners out.owners time = some (indices, signers)

/-- A UTXO `MintNFT` can mint from: a mint output of asset `assetID` whose owners the keychain
matches at `time`, with the indices and signers of the match. -/
def NFTMintMatch (kc : Keychain) (time : UInt64) (assetID : ID) (u : UTXO)
    (out : NftMintOutput) (indices : List UInt32) (signers : Signers) : Prop :=
  u.asset = assetID ∧ u.out = .nftMint out ∧
    kc.matchOwners out.owners time = some (indices, signers)

theorem spendNFTMatch_eq_some {kc : Keychain} {time : UInt64} {assetID : ID} {groupID : UInt32}
    {u : UTXO} {out : NftTransferOutput} {indices : List UInt32} {signers : Signers} :
    spendNFTMatch kc time assetID groupID u = some (out, indices, signers) ↔
      NFTTransferMatch kc time assetID groupID u out indices signers := by
  unfold spendNFTMatch NFTTransferMatch
  by_cases ha : u.asset = assetID
  · cases hout : u.out <;> simp [ha, Option.map_eq_some']
    aesop
  · simp [ha]

theorem mintNFTMatch_eq_some {kc : Keychain} {time : UInt64} {assetID : ID} {u : UTXO}
    {out : NftMintOutput} {indices : List UInt32} {signers : Signers} :
    mintNFTMatch kc time assetID u = some (out, indices, signers) ↔
      NFTMintMatch kc time assetID u out indices signers := by
  unfold mintNFTMatch NFTMintMatch
  by_cases ha : u.asset = assetID
  · cases hout : u.out <;> simp [ha, Option.map_eq_some']
    aesop
  · simp [ha]

/-! ## First match -/

/-- **NFT operations take the first match.** `SpendNFT` fails with `insufficientFunds`
exactly when no UTXO is an NFT of the asset and group that the keychain can spend; otherwise
the first such UTXO decides the result: one operation, spending that UTXO alone, that moves its
group and payload to `toAddr` as sole owner with threshold 1, signed with the indices and
signers the keychain matched. `MintNFT` obeys the same law for the mint outputs of the asset,
with no group filter, the given payload and `addressesCantMintAsset`. -/
theorem nft_first_match (marshal : Operation → Except Err Bytes) (kc : Keychain) (time : UInt64)
    (utxos : List UTXO) (assetID : ID) (groupID : UInt32) (payload : Bytes) (toAddr : ShortID) :
    (SpendNFT marshal kc time utxos assetID groupID toAddr = .error .insufficientFunds ↔
      ∀ u ∈ utxos, ∀ out indices signers,
        ¬NFTTransferMatch kc time assetID groupID u out indices signers) ∧
    (∀ pre u post out indices signers, utxos = pre ++ u :: post →
      (∀ v ∈ pre, ∀ out' indices' signers',
        ¬NFTTransferMatch kc time assetID groupID v out' indices' signers') →
      NFTTransferMatch kc time assetID groupID u out indices signers →
      SpendNFT marshal kc time utxos assetID groupID toAddr =
        .ok ([⟨u.asset, [u.utxoID],
          .nftTransfer ⟨indices⟩ ⟨out.groupID, out.payload, ⟨0, 1, [toAddr]⟩⟩⟩], [signers])) ∧
    (MintNFT marshal kc time utxos assetID payload toAddr = .error .addressesCantMintAsset ↔
      ∀ u ∈ utxos, ∀ out indices signers, ¬NFTMintMatch kc time assetID u out indices signers) ∧
    (∀ pre u post out indices signers, utxos = pre ++ u :: post →
      (∀ v ∈ pre, ∀ out' indices' signers',
        ¬NFTMintMatch kc time assetID v out' indices' signers') →
      NFTMintMatch kc time assetID u out indices signers →
      MintNFT marshal kc time utxos assetID payload toAddr =
        .ok ([⟨assetID, [u.utxoID],
          .nftMint ⟨indices⟩ out.groupID payload [⟨0, 1, [toAddr]⟩]⟩], [signers])) := by
  have hspend : ∀ v, (spendNFTMatch kc time assetID groupID v).map
      (fun m => nftTransferOperation toAddr (v, m)) = none ↔
      ∀ out indices signers, ¬NFTTransferMatch kc time assetID groupID v out indices signers := by
    intro v
    rw [Option.map_eq_none', Option.eq_none_iff_forall_not_mem]
    simp only [Prod.forall, Option.mem_def, spendNFTMatch_eq_some]
  have hmint : ∀ v, (mintNFTMatch kc time assetID v).map
      (fun m => nftMintOperation assetID payload toAddr (v, m)) = none ↔
      ∀ out indices signers, ¬NFTMintMatch kc time assetID v out indices signers := by
    intro v
    rw [Option.map_eq_none', Option.eq_none_iff_forall_not_mem]
    simp only [Prod.forall, Option.mem_def, mintNFTMatch_eq_some]
  refine ⟨?_, ?_, ?_, ?_⟩
  · simp only [SpendNFT, firstOpCall_eq_error_iff, hspend]
  · rintro pre u post out indices signers rfl hpre hu
    exact firstOpCall_of_first marshal _ (fun v hv => (hspend v).mpr (hpre v hv))
      (by simp [spendNFTMatch_eq_some.mpr hu, nftTransferOperation])
  · simp only [MintNFT, firstOpCall_eq_error_iff, hmint]
  · rintro pre u post out indices signers rfl hpre hu
    exact firstOpCall_of_first marshal _ (fun v hv => (hmint v).mpr (hpre v hv))
      (by simp [mintNFTMatch_eq_some.mpr hu, nftMintOperation])


/-- A keychain that matches every owner set with the first signature index. -/
def nftKeychain : Keychain where
  spend _ _ := .error .insufficientFunds
  matchOwners _ _ := some ([0], [])

/-- An NFT of asset 2 and group 4, with payload `[1]`. -/
def nftUTXO : UTXO := ⟨⟨3, 0⟩, 2, .nftTransfer ⟨4, [1], ⟨0, 1, [7]⟩⟩⟩

/-- The NFT mint output of asset 2 and group 4. -/
def nftMintUTXO : UTXO := ⟨⟨3, 1⟩, 2, .nftMint ⟨4, ⟨0, 1, [7]⟩⟩⟩

/-- Behind a mint output, `SpendNFT` takes the NFT; `MintNFT` takes the mint output in front. -/
theorem nft_first_match_two_utxos :
    (∀ out indices signers, ¬NFTTransferMatch nftKeychain 0 2 4 nftMintUTXO out indices signers) ∧
    NFTTransferMatch nftKeychain 0 2 4 nftUTXO ⟨4, [1], ⟨0, 1, [7]⟩⟩ [0] [] ∧
    SpendNFT (fun _ => .ok []) nftKeychain 0 [nftMintUTXO, nftUTXO] 2 4 9 =
      .ok ([⟨2, [⟨3, 0⟩], .nftTransfer ⟨[0]⟩ ⟨4, [1], ⟨0, 1, [9]⟩⟩⟩], [[]]) ∧
    NFTMintMatch nftKeychain 0 2 nftMintUTXO ⟨4, ⟨0, 1, [7]⟩⟩ [0] [] ∧
    MintNFT (fun _ => .ok []) nftKeychain 0 [nftMintUTXO, nftUTXO] 2 [5] 9 =
      .ok ([⟨2, [⟨3, 1⟩], .nftMint ⟨[0]⟩ 4 [5] [⟨0, 1, [9]⟩]⟩], [[]]) :=
  have hno : ∀ out indices signers,
      ¬NFTTransferMatch nftKeychain 0 2 4 nftMintUTXO out indices signers :=
    fun _ _ _ h => by simp [NFTTransferMatch, nftMintUTXO] at h
  have hm : NFTTransferMatch nftKeychain 0 2 4 nftUTXO ⟨4, [1], ⟨0, 1, [7]⟩⟩ [0] [] :=
    ⟨rfl, rfl, rfl, rfl⟩
  have hmm : NFTMintMatch nftKeychain 0 2 nftMintUTXO ⟨4, ⟨0, 1, [7]⟩⟩ [0] [] := ⟨rfl, rfl, rfl⟩
  ⟨hno, hm,
    (nft_first_match (fun _ => .ok []) nftKeychain 0 _ 2 4 [5] 9).2.1 [nftMintUTXO] nftUTXO [] _ _ _
      rfl (fun v hv => by rw [List.mem_singleton.mp hv]; exact hno) hm,
    hmm,
    (nft_first_match (fun _ => .ok []) nftKeychain 0 _ 2 4 [5] 9).2.2.2 [] nftMintUTXO [nftUTXO] _ _ _
      rfl (fun v hv => by simp at hv) hmm⟩

end AvmCore

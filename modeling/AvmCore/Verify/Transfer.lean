import AvmCore.Verify.GetUTXO

/-!
# AvmCore — verification of transfers and operations

`verifyTransfer` resolves the consumed UTXO, finds the extension of the credential,
checks the asset and the capability, and hands the rest to the extension;
`verifyOperation` does the same for a custom operation over all the UTXOs it consumes.

Both read and write the asset-capability cache: the resolution of a UTXO whose source is
still processing re-verifies the source, whose checks query the cache, and the capability
check then reads the cache they left. Their soundness holds in every reachable state of that
cache: a `nil` result means every check the spec lists passed and the extension accepted,
whatever earlier queries and evictions left in the cache.

Main results:

* `verifyTransfer_sound`, `verifyOperation_sound` — soundness over every reachable cache;
* `verification_sound` — the same, with the cache invariant;
* `verification_refines_uncached` — over every reachable cache, the cached verifiers give what
  verifiers that read the capability from the ledger give, or a spurious `errIncompatibleFx`;
  when the cache the capability check reads holds nothing for the asset they give exactly the
  same.
-/

namespace AvmCore

/-- `VM.verifyTransferOfUTXO`. -/
def verifyTransferOfUTXO (r : FxRegistry) (l : Ledger) (c : AssetCache) (tx : UnsignedTx)
    (input : TransferableInput) (cred : Cred) (utxo : UTXO) : Except Err Unit × AssetCache :=
  match getFx r cred.type with
  | .error e => (.error e, c)
  | .ok fxIndex =>
    let fx := r.fxs.get fxIndex
    let utxoAssetID := utxo.asset
    let inAssetID := input.asset
    if utxoAssetID ≠ inAssetID then (.error .assetIDMismatch, c)
    else
      let (usable, c) := verifyFxUsage l c fxIndex inAssetID
      if !usable then (.error .incompatibleFx, c)
      else (fx.verifyTransfer tx input.input cred utxo.out, c)

/-- `VM.verifyTransfer`. -/
def verifyTransfer (sv : SemanticVerifier) (r : FxRegistry) (l : Ledger)
    (c : AssetCache) (tx : UnsignedTx) (input : TransferableInput) (cred : Cred) :
    Except Err Unit × AssetCache :=
  match getUTXO sv l c input.utxoID with
  | (.error e, c) => (.error e, c)
  | (.ok utxo, c) => verifyTransferOfUTXO r l c tx input cred utxo

/-- The loop of `VM.verifyOperation`: the outputs of the consumed UTXOs, in order, each of
the operation's asset, with the cache their resolution leaves. -/
def operationUTXOs (sv : SemanticVerifier) (l : Ledger) (opAssetID : ID) :
    List UTXOID → AssetCache → Except Err (List Out) × AssetCache
  | [], c => (.ok [], c)
  | utxoID :: rest, c =>
    match getUTXO sv l c utxoID with
    | (.error e, c) => (.error e, c)
    | (.ok utxo, c) =>
      if utxo.asset ≠ opAssetID then (.error .assetIDMismatch, c)
      else
        match operationUTXOs sv l opAssetID rest c with
        | (.error e, c) => (.error e, c)
        | (.ok outs, c) => (.ok (utxo.out :: outs), c)

/-- `VM.verifyOperation`. -/
def verifyOperation (sv : SemanticVerifier) (r : FxRegistry) (l : Ledger)
    (c : AssetCache) (tx : UnsignedTx) (op : Operation) (cred : Cred) :
    Except Err Unit × AssetCache :=
  let opAssetID := op.asset
  match operationUTXOs sv l opAssetID op.utxoIDs c with
  | (.error e, c) => (.error e, c)
  | (.ok utxos, c) =>
    match getFx r op.op.type with
    | .error e => (.error e, c)
    | .ok fxIndex =>
      let fx := r.fxs.get fxIndex
      let (usable, c) := verifyFxUsage l c fxIndex opAssetID
      if !usable then (.error .incompatibleFx, c)
      else (fx.verifyOperation tx op.op cred utxos, c)

/-! ## The resolution loop -/

/-- The loop of `verifyOperation` leaves the capability cache reachable. -/
theorem operationUTXOs_reachable (sv : SemanticVerifier) {l : Ledger} (a : ID) :
    ∀ (ids : List UTXOID) {c : AssetCache}, CapReachable l c →
      CapReachable l (operationUTXOs sv l a ids c).2
  | [], _, hc => hc
  | id :: rest, c, hc => by
    have hc₁ := getUTXO_reachable sv id hc
    unfold operationUTXOs
    rcases hg : getUTXO sv l c id with ⟨_ | u, c₁⟩ <;> rw [hg] at hc₁
    · exact hc₁
    · dsimp only
      split
      · exact hc₁
      · have hc₂ := operationUTXOs_reachable sv a rest hc₁
        rcases hr : operationUTXOs sv l a rest c₁ with ⟨_ | _, c₂⟩ <;> rw [hr] at hc₂ <;>
          exact hc₂

/-- The UTXOs an operation consumes resolve, in order and each from a reachable cache, to UTXOs
of its asset, whose outputs are the ones handed to the extension. -/
theorem operationUTXOs_eq_ok {sv : SemanticVerifier} {l : Ledger} {a : ID} :
    ∀ {ids : List UTXOID} {c : AssetCache} {outs : List Out}, CapReachable l c →
      (operationUTXOs sv l a ids c).1 = .ok outs →
      ∃ us, List.Forall₂ (fun id u => ∃ c', CapReachable l c' ∧
          (getUTXO sv l c' id).1 = .ok u ∧ u.asset = a) ids us ∧
        outs = us.map UTXO.out
  | [], _, outs, _, h => by cases h; exact ⟨[], .nil, rfl⟩
  | id :: rest, c, outs, hc, h => by
    have hc₁ := getUTXO_reachable sv id hc
    unfold operationUTXOs at h
    rcases hg : getUTXO sv l c id with ⟨_ | u, c₁⟩
    · simp [hg] at h
    · rw [hg] at h hc₁
      dsimp only at h
      split at h
      · cases h
      · rename_i ha
        rcases hr : operationUTXOs sv l a rest c₁ with ⟨_ | outs', c₂⟩
        · simp [hr] at h
        · simp only [hr, Except.ok.injEq] at h
          obtain ⟨us, hus, rfl⟩ := operationUTXOs_eq_ok hc₁ (by rw [hr])
          exact ⟨u :: us, .cons ⟨c, hc, by rw [hg], not_not.mp ha⟩ hus, h.symm⟩

/-! ## Soundness over every reachable cache -/

/-- What a `nil` from the checks after resolution says, over a sound cache. -/
theorem verifyTransferOfUTXO_sound {r : FxRegistry} {l : Ledger} {c : AssetCache}
    (hc : CacheSound l c) {tx : UnsignedTx} {input : TransferableInput} {cred : Cred}
    {u : UTXO} (h : (verifyTransferOfUTXO r l c tx input cred u).1 = .ok ()) :
    ∃ i, r.typeToFxIndex cred.type = some i ∧ u.asset = input.asset ∧
      supportsFx l input.asset i = true ∧
      (r.fxs.get i).verifyTransfer tx input.input cred u.out = .ok () := by
  cases hi : getFx r cred.type with
  | error e => simp [verifyTransferOfUTXO, hi] at h
  | ok i =>
    by_cases ha : u.asset = input.asset
    · obtain ⟨-, hs⟩ := verifyFxUsage_sound hc i input.asset
      cases hv : verifyFxUsage l c i input.asset with
      | mk usable c' =>
        cases usable
        · simp [verifyTransferOfUTXO, hi, ha, hv] at h
        · simp only [verifyTransferOfUTXO, hi, ha, hv] at h
          exact ⟨i, getFx_eq_ok.mp hi, ha, hs (by rw [hv]), by simpa using h⟩
    · simp [verifyTransferOfUTXO, hi, ha] at h

theorem verifyTransfer_sound {sv : SemanticVerifier} {r : FxRegistry} {l : Ledger}
    {c : AssetCache} (hc : CapReachable l c) {tx : UnsignedTx} {input : TransferableInput}
    {cred : Cred} (h : (verifyTransfer sv r l c tx input cred).1 = .ok ()) :
    ∃ u i, (getUTXO sv l c input.utxoID).1 = .ok u ∧ r.typeToFxIndex cred.type = some i ∧
      u.asset = input.asset ∧ supportsFx l input.asset i = true ∧
      (r.fxs.get i).verifyTransfer tx input.input cred u.out = .ok () := by
  have hc₁ := getUTXO_reachable sv input.utxoID hc
  rcases hu : getUTXO sv l c input.utxoID with ⟨_ | u, c₁⟩
  · simp [verifyTransfer, hu] at h
  · simp only [verifyTransfer, hu] at h
    rw [hu] at hc₁
    obtain ⟨i, hi⟩ := verifyTransferOfUTXO_sound (capReachable_cacheSound hc₁) h
    exact ⟨u, i, rfl, hi⟩

theorem verifyOperation_sound {sv : SemanticVerifier} {r : FxRegistry} {l : Ledger}
    {c : AssetCache} (hc : CapReachable l c) {tx : UnsignedTx} {op : Operation} {cred : Cred}
    (h : (verifyOperation sv r l c tx op cred).1 = .ok ()) :
    ∃ us i, List.Forall₂ (fun id u => ∃ c', CapReachable l c' ∧
          (getUTXO sv l c' id).1 = .ok u ∧ u.asset = op.asset) op.utxoIDs us ∧
      r.typeToFxIndex op.op.type = some i ∧ supportsFx l op.asset i = true ∧
      (r.fxs.get i).verifyOperation tx op.op cred (us.map UTXO.out) = .ok () := by
  have hc₁ := operationUTXOs_reachable sv op.asset op.utxoIDs hc
  rcases hu : operationUTXOs sv l op.asset op.utxoIDs c with ⟨_ | outs, c₁⟩
  · simp [verifyOperation, hu] at h
  · obtain ⟨us, hus, rfl⟩ := operationUTXOs_eq_ok hc (by rw [hu])
    rw [hu] at hc₁
    cases hi : getFx r op.op.type with
    | error e => simp [verifyOperation, hu, hi] at h
    | ok i =>
      obtain ⟨-, hs⟩ := verifyFxUsage_sound (capReachable_cacheSound hc₁) i op.asset
      cases hv : verifyFxUsage l c₁ i op.asset with
      | mk usable c' =>
        cases usable
        · simp [verifyOperation, hu, hi, hv] at h
        · simp only [verifyOperation, hu, hi, hv] at h
          exact ⟨us, i, hus, getFx_eq_ok.mp hi, hs (by rw [hv]), by simpa using h⟩

/-- **Verification soundness.** In every reachable state of the capability cache, a `nil`
from `verifyTransfer` means the UTXO resolved, the credential's type names an extension,
the assets agree, the asset declares that extension and the extension accepted; a `nil`
from `verifyOperation` means every consumed UTXO resolved, in order and each from the
(reachable) cache the loop had reached, to a UTXO of the operation's asset, the operation's
type names an extension the asset declares, and the extension accepted exactly the resolved
outputs. Every cached bit set admits only declared extensions. -/
theorem verification_sound :
    (∀ (sv : SemanticVerifier) (r : FxRegistry) (l : Ledger) (c : AssetCache)
        (tx : UnsignedTx) (input : TransferableInput) (cred : Cred),
      CapReachable l c → (verifyTransfer sv r l c tx input cred).1 = .ok () →
      ∃ u i, (getUTXO sv l c input.utxoID).1 = .ok u ∧ r.typeToFxIndex cred.type = some i ∧
        u.asset = input.asset ∧ supportsFx l input.asset i = true ∧
        (r.fxs.get i).verifyTransfer tx input.input cred u.out = .ok ()) ∧
    (∀ (sv : SemanticVerifier) (r : FxRegistry) (l : Ledger) (c : AssetCache)
        (tx : UnsignedTx) (op : Operation) (cred : Cred),
      CapReachable l c → (verifyOperation sv r l c tx op cred).1 = .ok () →
      ∃ us i, List.Forall₂ (fun id u => ∃ c', CapReachable l c' ∧
            (getUTXO sv l c' id).1 = .ok u ∧ u.asset = op.asset) op.utxoIDs us ∧
        r.typeToFxIndex op.op.type = some i ∧ supportsFx l op.asset i = true ∧
        (r.fxs.get i).verifyOperation tx op.op cred (us.map UTXO.out) = .ok ()) ∧
    (∀ (l : Ledger) (c : AssetCache), CapReachable l c →
      ∀ assetID fxIDs, c.entries.lookup assetID = some fxIDs →
        ∀ i, fxIDs.contains i = true → supportsFx l assetID i = true) :=
  ⟨fun _ _ _ _ _ _ _ hr h => verifyTransfer_sound hr h,
   fun _ _ _ _ _ _ _ hr h => verifyOperation_sound hr h,
   fun _ _ hr _ _ hl => capReachable_cacheSound hr _ (LRU.mem_of_lookup hl)⟩

/-- `acceptAllFx` registered for secp256k1 credentials and mint operations. -/
def oneFxRegistry : FxRegistry where
  fxs := [acceptAllFx]
  typeToFxIndex := fun t =>
    if t = "*secp256k1fx.Credential" ∨ t = "*secp256k1fx.MintOperation" then
      some ⟨0, Nat.zero_lt_one⟩
    else none

/-- Asset 1, accepted, declares extension 0 and has a mint output stored as UTXO `(1, 0)`. -/
def oneFxLedger : Ledger where
  utxos := fun id => if id = ⟨1, 0⟩ then some ⟨⟨1, 0⟩, 1, .secpMint ⟨⟨0, 1, [7]⟩⟩⟩ else none
  txs := fun id => if id = 1 then
    some ⟨1, .createAsset ⟨⟨0, 0, [], [], []⟩, "Asset", "AST", 0, [⟨0, []⟩]⟩, []⟩ else none
  statuses := fun id => if id = 1 then some .accepted else none

/-- The cache after one query of extension 0 of asset 1: it holds the bit set `{0}`. -/
def assetOneQueried : AssetCache :=
  (verifyFxUsage oneFxLedger (LRU.empty assetToFxCacheSize) 0 1).2

/-- A transfer and a mint operation of asset 1 pass on a cache that already holds the asset,
so the capability check hits, and what `verification_sound` concludes of them. -/
theorem verification_sound_one_fx :
    CapReachable oneFxLedger assetOneQueried ∧
    assetOneQueried.entries.lookup 1 = some (1#64) ∧
    (∃ u i, (getUTXO passAllVerifier oneFxLedger assetOneQueried ⟨1, 0⟩).1 = .ok u ∧
      oneFxRegistry.typeToFxIndex "*secp256k1fx.Credential" = some i ∧ u.asset = 1 ∧
      supportsFx oneFxLedger 1 i = true ∧
      (oneFxRegistry.fxs.get i).verifyTransfer (.other 0) (.input ⟨[0]⟩)
        ⟨"*secp256k1fx.Credential", []⟩ u.out = .ok ()) ∧
    (∃ us i, List.Forall₂ (fun id u => ∃ c', CapReachable oneFxLedger c' ∧
          (getUTXO passAllVerifier oneFxLedger c' id).1 = .ok u ∧ u.asset = 1) [⟨1, 0⟩] us ∧
      oneFxRegistry.typeToFxIndex "*secp256k1fx.MintOperation" = some i ∧
      supportsFx oneFxLedger 1 i = true ∧
      (oneFxRegistry.fxs.get i).verifyOperation (.other 0)
        (.secpMint ⟨[0]⟩ ⟨⟨0, 1, [7]⟩⟩ ⟨5, ⟨0, 1, [9]⟩⟩) ⟨"*secp256k1fx.Credential", []⟩
        (us.map UTXO.out) = .ok ()) :=
  ⟨.query 0 1 (.init _), rfl,
   verification_sound.1 passAllVerifier oneFxRegistry oneFxLedger assetOneQueried (.other 0)
      ⟨⟨1, 0⟩, 1, .input ⟨[0]⟩⟩ ⟨"*secp256k1fx.Credential", []⟩ (.query 0 1 (.init _)) rfl,
   verification_sound.2.1 passAllVerifier oneFxRegistry oneFxLedger assetOneQueried (.other 0)
      ⟨1, [⟨1, 0⟩], .secpMint ⟨[0]⟩ ⟨⟨0, 1, [7]⟩⟩ ⟨5, ⟨0, 1, [9]⟩⟩⟩
      ⟨"*secp256k1fx.Credential", []⟩ (.query 0 1 (.init _)) rfl⟩

/-! ## The cache against the ledger -/

/-- The checks of `VM.verifyTransfer` in their order, with `usable` as the answer of the
capability check for each extension index; the UTXO is resolved from `c` as the code
resolves it. -/
def verifyTransferWith (sv : SemanticVerifier) (r : FxRegistry) (l : Ledger) (c : AssetCache)
    (usable : Fin r.fxs.length → Bool) (tx : UnsignedTx) (input : TransferableInput)
    (cred : Cred) : Except Err Unit :=
  match (getUTXO sv l c input.utxoID).1 with
  | .error e => .error e
  | .ok utxo =>
    match getFx r cred.type with
    | .error e => .error e
    | .ok i =>
      if utxo.asset ≠ input.asset then .error .assetIDMismatch
      else if !usable i then .error .incompatibleFx
      else (r.fxs.get i).verifyTransfer tx input.input cred utxo.out

/-- The checks of `VM.verifyOperation` in their order, with `usable` as the answer of the
capability check for each extension index; the UTXOs are resolved from `c` as the code
resolves them. -/
def verifyOperationWith (sv : SemanticVerifier) (r : FxRegistry) (l : Ledger) (c : AssetCache)
    (usable : Fin r.fxs.length → Bool) (tx : UnsignedTx) (op : Operation) (cred : Cred) :
    Except Err Unit :=
  match (operationUTXOs sv l op.asset op.utxoIDs c).1 with
  | .error e => .error e
  | .ok utxos =>
    match getFx r op.op.type with
    | .error e => .error e
    | .ok i =>
      if !usable i then .error .incompatibleFx
      else (r.fxs.get i).verifyOperation tx op.op cred utxos

/-- A transfer verified with the capability read off the ledger in place of the cache. -/
def verifyTransferUncached (sv : SemanticVerifier) (r : FxRegistry) (l : Ledger)
    (c : AssetCache) (tx : UnsignedTx) (input : TransferableInput) (cred : Cred) :
    Except Err Unit :=
  verifyTransferWith sv r l c (fun i => supportsFx l input.asset i) tx input cred

/-- An operation verified with the capability read off the ledger in place of the cache. -/
def verifyOperationUncached (sv : SemanticVerifier) (r : FxRegistry) (l : Ledger)
    (c : AssetCache) (tx : UnsignedTx) (op : Operation) (cred : Cred) : Except Err Unit :=
  verifyOperationWith sv r l c (fun i => supportsFx l op.asset i) tx op cred

/-- `verifyTransfer` answers the capability check through the cache the resolution left. -/
theorem verifyTransfer_fst_eq (sv : SemanticVerifier) (r : FxRegistry) (l : Ledger)
    (c : AssetCache) (tx : UnsignedTx) (input : TransferableInput) (cred : Cred) :
    (verifyTransfer sv r l c tx input cred).1 =
      verifyTransferWith sv r l c
        (fun i => (verifyFxUsage l (getUTXO sv l c input.utxoID).2 i input.asset).1)
        tx input cred := by
  unfold verifyTransfer verifyTransferOfUTXO verifyTransferWith
  rcases getUTXO sv l c input.utxoID with ⟨_ | utxo, c₁⟩
  · rfl
  · cases getFx r cred.type with
    | error e => rfl
    | ok i =>
      dsimp only
      split
      · rfl
      · rcases verifyFxUsage l c₁ i input.asset with ⟨_ | _, _⟩ <;> rfl

/-- `verifyOperation` answers the capability check through the cache the resolution left. -/
theorem verifyOperation_fst_eq (sv : SemanticVerifier) (r : FxRegistry) (l : Ledger)
    (c : AssetCache) (tx : UnsignedTx) (op : Operation) (cred : Cred) :
    (verifyOperation sv r l c tx op cred).1 =
      verifyOperationWith sv r l c
        (fun i => (verifyFxUsage l (operationUTXOs sv l op.asset op.utxoIDs c).2 i op.asset).1)
        tx op cred := by
  unfold verifyOperation verifyOperationWith
  dsimp only
  rcases operationUTXOs sv l op.asset op.utxoIDs c with ⟨_ | utxos, c₁⟩
  · rfl
  · cases getFx r op.op.type with
    | error e => rfl
    | ok i =>
      dsimp only
      rcases verifyFxUsage l c₁ i op.asset with ⟨_ | _, _⟩ <;> rfl

/-- An answer that agrees with another or says `false` changes a verification at most into
`errIncompatibleFx`. -/
theorem verifyTransferWith_cases {sv : SemanticVerifier} {r : FxRegistry} {l : Ledger}
    {c : AssetCache} {usable usable' : Fin r.fxs.length → Bool}
    (h : ∀ i, usable i = usable' i ∨ usable i = false)
    (tx : UnsignedTx) (input : TransferableInput) (cred : Cred) :
    verifyTransferWith sv r l c usable tx input cred =
        verifyTransferWith sv r l c usable' tx input cred ∨
      verifyTransferWith sv r l c usable tx input cred = .error .incompatibleFx := by
  unfold verifyTransferWith
  cases (getUTXO sv l c input.utxoID).1 with
  | error e => exact .inl rfl
  | ok utxo =>
    cases getFx r cred.type with
    | error e => exact .inl rfl
    | ok i =>
      dsimp only
      split
      · exact .inl rfl
      · rcases h i with hi | hi <;> simp [hi]

theorem verifyOperationWith_cases {sv : SemanticVerifier} {r : FxRegistry} {l : Ledger}
    {c : AssetCache} {usable usable' : Fin r.fxs.length → Bool}
    (h : ∀ i, usable i = usable' i ∨ usable i = false)
    (tx : UnsignedTx) (op : Operation) (cred : Cred) :
    verifyOperationWith sv r l c usable tx op cred =
        verifyOperationWith sv r l c usable' tx op cred ∨
      verifyOperationWith sv r l c usable tx op cred = .error .incompatibleFx := by
  unfold verifyOperationWith
  cases (operationUTXOs sv l op.asset op.utxoIDs c).1 with
  | error e => exact .inl rfl
  | ok utxos =>
    cases getFx r op.op.type with
    | error e => exact .inl rfl
    | ok i =>
      dsimp only
      rcases h i with hi | hi <;> simp [hi]

/-- Over a sound cache the capability answer is the ledger's, or a false negative. -/
theorem verifyFxUsage_fst_cases {l : Ledger} {c : AssetCache} (hc : CacheSound l c) (i : Nat)
    (a : ID) :
    (verifyFxUsage l c i a).1 = supportsFx l a i ∨ (verifyFxUsage l c i a).1 = false := by
  cases h : (verifyFxUsage l c i a).1
  · exact .inr rfl
  · exact .inl ((verifyFxUsage_sound hc i a).2 h).symm

/-- **The cache only adds false rejections.** In every reachable state of the capability
cache, `verifyTransfer` and `verifyOperation` return what the same checks return with the
capability read off the ledger, or `errIncompatibleFx`. When the cache the capability check
reads (the one the resolution of the consumed UTXOs left) holds nothing for the asset, and
the extensions fit the 64 bits of a bit set, they return exactly that, error for error. -/
theorem verification_refines_uncached {sv : SemanticVerifier} {r : FxRegistry}
    {l : Ledger} {c : AssetCache} (hc : CapReachable l c) (tx : UnsignedTx) :
    (∀ input cred,
      (verifyTransfer sv r l c tx input cred).1 = verifyTransferUncached sv r l c tx input cred ∨
        (verifyTransfer sv r l c tx input cred).1 = .error .incompatibleFx) ∧
    (∀ op cred,
      (verifyOperation sv r l c tx op cred).1 = verifyOperationUncached sv r l c tx op cred ∨
        (verifyOperation sv r l c tx op cred).1 = .error .incompatibleFx) ∧
    (r.fxs.length ≤ 64 →
      (∀ input cred, (getUTXO sv l c input.utxoID).2.entries.lookup input.asset = none →
        (verifyTransfer sv r l c tx input cred).1 =
          verifyTransferUncached sv r l c tx input cred) ∧
      (∀ op cred, (operationUTXOs sv l op.asset op.utxoIDs c).2.entries.lookup op.asset = none →
        (verifyOperation sv r l c tx op cred).1 =
          verifyOperationUncached sv r l c tx op cred)) := by
  refine ⟨fun input cred => ?_, fun op cred => ?_, fun hfx => ⟨fun input cred hmiss => ?_,
    fun op cred hmiss => ?_⟩⟩
  · have hs := capReachable_cacheSound (getUTXO_reachable sv input.utxoID hc)
    rw [verifyTransfer_fst_eq]
    exact verifyTransferWith_cases (fun i => verifyFxUsage_fst_cases hs i _) tx input cred
  · have hs := capReachable_cacheSound (operationUTXOs_reachable sv op.asset op.utxoIDs hc)
    rw [verifyOperation_fst_eq]
    exact verifyOperationWith_cases (fun i => verifyFxUsage_fst_cases hs i _) tx op cred
  · rw [verifyTransfer_fst_eq, verifyTransferUncached]
    congr
    funext i
    exact verifyFxUsage_miss hmiss (lt_of_lt_of_le i.isLt hfx)
  · rw [verifyOperation_fst_eq, verifyOperationUncached]
    congr
    funext i
    exact verifyFxUsage_miss hmiss (lt_of_lt_of_le i.isLt hfx)

/-- Two extensions that accept everything: extension 0 for secp256k1 credentials, extension 1
for NFT credentials. -/
def twoFxRegistry : FxRegistry where
  fxs := [acceptAllFx, acceptAllFx]
  typeToFxIndex := fun t =>
    if t = "*secp256k1fx.Credential" then some ⟨0, by decide⟩
    else if t = "*nftfx.Credential" then some ⟨1, by decide⟩
    else none

/-- The semantic checks of a transaction that spends a secp256k1 output of asset 1: they
query extension 0 of asset 1. -/
def spendsAssetOneVerifier : SemanticVerifier :=
  ⟨fun l _ c => (.ok (), (verifyFxUsage l c 0 1).2), fun _ h => .query 0 1 h⟩

/-- The input that spends output 0 of the processing transaction 2 of
`processingParentLedger`, signed for extension 1. -/
def nftInput : TransferableInput := ⟨⟨2, 0⟩, 1, .input ⟨[0]⟩⟩

/-- From an empty cache, spending an output of a processing transaction re-verifies it; its
checks cache `{0}` for asset 1, so the check of extension 1, which asset 1 declares, fails
where reading the ledger accepts. -/
theorem verification_refines_uncached_processing_parent :
    CapReachable processingParentLedger (LRU.empty assetToFxCacheSize) ∧
    (verifyTransfer spendsAssetOneVerifier twoFxRegistry processingParentLedger
        (LRU.empty assetToFxCacheSize) (.other 0) nftInput ⟨"*nftfx.Credential", []⟩).1 =
      .error .incompatibleFx ∧
    verifyTransferUncached spendsAssetOneVerifier twoFxRegistry processingParentLedger
        (LRU.empty assetToFxCacheSize) (.other 0) nftInput ⟨"*nftfx.Credential", []⟩ = .ok () ∧
    (∀ input cred,
      (verifyTransfer spendsAssetOneVerifier twoFxRegistry processingParentLedger
          (LRU.empty assetToFxCacheSize) (.other 0) input cred).1 =
        verifyTransferUncached spendsAssetOneVerifier twoFxRegistry processingParentLedger
          (LRU.empty assetToFxCacheSize) (.other 0) input cred ∨
      (verifyTransfer spendsAssetOneVerifier twoFxRegistry processingParentLedger
          (LRU.empty assetToFxCacheSize) (.other 0) input cred).1 = .error .incompatibleFx) ∧
    (∀ op cred,
      (verifyOperation spendsAssetOneVerifier twoFxRegistry processingParentLedger
          (LRU.empty assetToFxCacheSize) (.other 0) op cred).1 =
        verifyOperationUncached spendsAssetOneVerifier twoFxRegistry processingParentLedger
          (LRU.empty assetToFxCacheSize) (.other 0) op cred ∨
      (verifyOperation spendsAssetOneVerifier twoFxRegistry processingParentLedger
          (LRU.empty assetToFxCacheSize) (.other 0) op cred).1 = .error .incompatibleFx) ∧
    (twoFxRegistry.fxs.length ≤ 64 →
      (∀ input cred, (getUTXO spendsAssetOneVerifier processingParentLedger
            (LRU.empty assetToFxCacheSize) input.utxoID).2.entries.lookup input.asset = none →
        (verifyTransfer spendsAssetOneVerifier twoFxRegistry processingParentLedger
            (LRU.empty assetToFxCacheSize) (.other 0) input cred).1 =
          verifyTransferUncached spendsAssetOneVerifier twoFxRegistry processingParentLedger
            (LRU.empty assetToFxCacheSize) (.other 0) input cred) ∧
      (∀ op cred, (operationUTXOs spendsAssetOneVerifier processingParentLedger op.asset
            op.utxoIDs (LRU.empty assetToFxCacheSize)).2.entries.lookup op.asset = none →
        (verifyOperation spendsAssetOneVerifier twoFxRegistry processingParentLedger
            (LRU.empty assetToFxCacheSize) (.other 0) op cred).1 =
          verifyOperationUncached spendsAssetOneVerifier twoFxRegistry processingParentLedger
            (LRU.empty assetToFxCacheSize) (.other 0) op cred)) :=
  ⟨.init _, rfl, rfl, verification_refines_uncached (.init _) (.other 0)⟩

end AvmCore

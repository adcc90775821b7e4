import AvmCore.Verify.FxUsage

/-!
# AvmCore — resolving a consumed UTXO

`getUTXO` looks a consumed output up in the UTXO set and, on a miss, in the outputs of
its source transaction, when that transaction is still processing: an output of an
undecided ancestor may be spent before the ancestor is accepted.

The bounds guard compares `uint32(len(parentUTXOs))` with the `uint32` index and then
indexes with `int(inputIndex)`. The truncation can only make the guard stricter, so the
index is always in range; below `2^32` outputs the guard is
exactly `inputIndex < len`.

The re-verification of the source runs its semantic checks, which query the capability
cache; `getUTXO` returns the cache they leave, which stays reachable (`getUTXO_reachable`).

Main result:

* `getUTXO_resolution` — never out of range, fails only with `errMissingUTXO` or
  `errInvalidUTXO`, never resolves a spent output of a decided source, and below `2^32`
  outputs resolves exactly the stored UTXO or the output of a processing source.
-/

namespace AvmCore

/-- `VM.getUTXO`. On a miss the source transaction is re-verified; its semantic checks run on
the capability cache, and the cache they leave is returned with the result. -/
def getUTXO (sv : SemanticVerifier) (l : Ledger) (c : AssetCache) (utxoID : UTXOID) :
    Except Err UTXO × AssetCache :=
  match l.utxos utxoID with
  | some utxo => (.ok utxo, c)
  | none =>
    let (inputTx, inputIndex) := utxoID.inputSource
    match verifyWithoutCacheWrites (sv.run l) l inputTx c with
    | (.error _, c) => (.error .missingUTXO, c)
    | (.ok (), c) =>
      if (l.status inputTx).decided then (.error .missingUTXO, c)
      else
        let parentUTXOs := l.txUTXOs inputTx
        if UInt32.ofNat parentUTXOs.length ≤ inputIndex ∨ goInt inputIndex.toNat < 0 then
          (.error .invalidUTXO, c)
        else (goIndex parentUTXOs (goInt inputIndex.toNat), c)

/-- The cache `getUTXO` leaves: the one it was given when the UTXO is stored, else the one the
re-verification of the source leaves. -/
theorem getUTXO_snd (sv : SemanticVerifier) (l : Ledger) (c : AssetCache) (id : UTXOID) :
    (getUTXO sv l c id).2 =
      if l.utxos id = none then (verifyWithoutCacheWrites (sv.run l) l id.txID c).2 else c := by
  unfold getUTXO
  cases l.utxos id with
  | some u => rfl
  | none =>
    simp only [UTXOID.inputSource, if_true]
    rcases verifyWithoutCacheWrites (sv.run l) l id.txID c with ⟨_ | _, c'⟩
    · rfl
    · dsimp only
      split <;> (try split) <;> rfl

theorem getUTXO_reachable (sv : SemanticVerifier) {l : Ledger} {c : AssetCache} (id : UTXOID)
    (h : CapReachable l c) : CapReachable l (getUTXO sv l c id).2 := by
  rw [getUTXO_snd]
  split
  · exact verifyWithoutCacheWrites_reachable sv id.txID h
  · exact h

/-! ## The bounds guard -/

/-- `int(i)` of a `uint32` is `i`. -/
theorem goInt_uint32 (i : UInt32) : goInt i.toNat = i.toNat := by
  have : i.toNat < 2 ^ 32 := i.toNat_lt_size
  unfold goInt
  rw [if_pos (by omega)]

/-- The guard of `getUTXO`, once `int(inputIndex)` is read as the index, compares the
index with the output count modulo `2^32`. -/
theorem outputIndex_guard (len : Nat) (i : UInt32) :
    (UInt32.ofNat len ≤ i ∨ (i.toNat : Int) < 0) ↔ len % 2 ^ 32 ≤ i.toNat := by
  show len % 2 ^ 32 ≤ i.toNat ∨ _ ↔ _
  omega

/-- An index in range does not panic. -/
theorem goIndex_of_lt {α : Type} {xs : List α} {i : Nat} (h : i < xs.length) :
    goIndex xs (i : Int) = .ok xs[i] := by
  simp [goIndex, List.getElem?_eq_getElem h]

/-- On a miss, a source that fails re-verification or is decided gives `errMissingUTXO`. -/
theorem getUTXO_of_miss_missing {sv : SemanticVerifier} {l : Ledger} {c : AssetCache}
    {id : UTXOID} (h : l.utxos id = none)
    (hv : ¬((verifyWithoutCacheWrites (sv.run l) l id.txID c).1 = .ok () ∧
      (l.status id.txID).decided = false)) :
    (getUTXO sv l c id).1 = .error .missingUTXO := by
  unfold getUTXO
  simp only [h, UTXOID.inputSource]
  split
  · rfl
  · rename_i hok
    rw [if_pos (by simpa [hok] using hv)]

/-- On a miss, a source that passes re-verification undecided gives the guarded index. -/
theorem getUTXO_of_miss_processing {sv : SemanticVerifier} {l : Ledger} {c : AssetCache}
    {id : UTXOID} (h : l.utxos id = none)
    (hv : (verifyWithoutCacheWrites (sv.run l) l id.txID c).1 = .ok () ∧
      (l.status id.txID).decided = false) :
    (getUTXO sv l c id).1 =
      if (l.txUTXOs id.txID).length % 2 ^ 32 ≤ id.outputIndex.toNat then .error .invalidUTXO
      else goIndex (l.txUTXOs id.txID) id.outputIndex.toNat := by
  unfold getUTXO
  simp only [h, UTXOID.inputSource]
  rcases hvc : verifyWithoutCacheWrites (sv.run l) l id.txID c with ⟨r, c'⟩
  rw [hvc] at hv
  obtain ⟨rfl, hd⟩ := hv
  simp only [hd, Bool.false_eq_true, if_false, goInt_uint32, outputIndex_guard]
  split <;> rfl

/-- **Resolution of consumed outputs.** For every ledger and UTXOID: `getUTXO` never indexes
out of range; it fails only with `errMissingUTXO` or `errInvalidUTXO`; it never resolves
an output that is absent from the UTXO set when its source is decided; and, for sources with
fewer than `2^32` outputs, it returns `u` exactly when `u` is the stored UTXO, or the
lookup misses and `u` is the output at `OutputIndex` of a source that passes
re-verification while processing. -/
theorem getUTXO_resolution (sv : SemanticVerifier) (l : Ledger) (c : AssetCache) (id : UTXOID) :
    (getUTXO sv l c id).1 ≠ .error .indexOutOfRange ∧
    (∀ e, (getUTXO sv l c id).1 = .error e → e = .missingUTXO ∨ e = .invalidUTXO) ∧
    (l.utxos id = none → (l.status id.txID).decided = true →
      ∃ e, (getUTXO sv l c id).1 = .error e) ∧
    ((l.txUTXOs id.txID).length < 2 ^ 32 → ∀ u, (getUTXO sv l c id).1 = .ok u ↔
      (l.utxos id = some u ∨
        (l.utxos id = none ∧ (verifyWithoutCacheWrites (sv.run l) l id.txID c).1 = .ok () ∧
          l.status id.txID = .processing ∧
          (l.txUTXOs id.txID)[id.outputIndex.toNat]? = some u))) := by
  cases hs : l.utxos id with
  | some v => simp [getUTXO, hs]
  | none =>
    by_cases hv : (verifyWithoutCacheWrites (sv.run l) l id.txID c).1 = .ok () ∧
        (l.status id.txID).decided = false
    · have hp := verifyWithoutCacheWrites_undecided.mp hv
      rw [getUTXO_of_miss_processing hs hv]
      by_cases hg : (l.txUTXOs id.txID).length % 2 ^ 32 ≤ id.outputIndex.toNat
      · have hlen : ∀ u, (l.txUTXOs id.txID).length < 2 ^ 32 →
            (l.txUTXOs id.txID)[id.outputIndex.toNat]? ≠ some u := by
          intro u hl hu
          have := (List.getElem?_eq_some_iff.mp hu).1
          omega
        simp only [if_pos hg]
        refine ⟨by simp, by simp, fun _ hd => by simp_all, fun hl u => ?_⟩
        simpa [hv.1, hp.1] using hlen u hl
      · have hi : id.outputIndex.toNat < (l.txUTXOs id.txID).length :=
          Nat.lt_of_lt_of_le (Nat.lt_of_not_le hg) (Nat.mod_le _ _)
        simp only [if_neg hg, goIndex_of_lt hi, List.getElem?_eq_getElem hi]
        refine ⟨by simp, by simp, fun _ hd => by simp_all, fun _ u => ?_⟩
        simp [hv.1, hp.1]
    · rw [getUTXO_of_miss_missing hs hv]
      refine ⟨by simp, by simp, fun _ _ => ⟨_, rfl⟩, fun _ u => ?_⟩
      simp only [reduceCtorEq, false_iff, not_or, not_and]
      refine ⟨by simp, fun _ hok hproc _ => hv ⟨hok, ?_⟩⟩
      simp [hproc, Status.decided]

/-- Semantic checks that pass and query nothing. -/
def passAllVerifier : SemanticVerifier := ⟨fun _ _ c => (.ok (), c), fun _ h => h⟩

/-- Asset 1, accepted, declares extensions 0 and 1; transaction 2 is still processing, and its
output 0, of asset 1, is not in the UTXO set yet. -/
def processingParentLedger : Ledger where
  utxos := fun _ => none
  txs := fun id =>
    if id = 1 then
      some ⟨1, .createAsset ⟨⟨0, 0, [], [], []⟩, "Asset", "AST", 0, [⟨0, []⟩, ⟨1, []⟩]⟩, []⟩
    else if id = 2 then some ⟨2, .other 0, [⟨⟨2, 0⟩, 1, .other "*nftfx.TransferOutput"⟩]⟩
    else none
  statuses := fun id =>
    if id = 1 then some .accepted else if id = 2 then some .processing else none

/-- Output 0 of the processing transaction 2 resolves from its source; output 5 of the accepted
transaction 1, absent from the UTXO set, does not. -/
theorem getUTXO_resolution_processing_source :
    ((processingParentLedger.txUTXOs 2).length < 2 ^ 32 ∧
      (getUTXO passAllVerifier processingParentLedger (LRU.empty assetToFxCacheSize) ⟨2, 0⟩).1 =
        .ok ⟨⟨2, 0⟩, 1, .other "*nftfx.TransferOutput"⟩) ∧
    (processingParentLedger.utxos ⟨1, 5⟩ = none ∧
      (processingParentLedger.status 1).decided = true ∧
      ∃ e, (getUTXO passAllVerifier processingParentLedger (LRU.empty assetToFxCacheSize)
        ⟨1, 5⟩).1 = .error e) :=
  ⟨⟨by decide, ((getUTXO_resolution passAllVerifier processingParentLedger _ ⟨2, 0⟩).2.2.2
      (by decide) _).mpr (.inr ⟨rfl, rfl, rfl, rfl⟩)⟩,
   ⟨rfl, rfl, (getUTXO_resolution passAllVerifier processingParentLedger _ ⟨1, 5⟩).2.2.1 rfl rfl⟩⟩

end AvmCore

import AvmCore.Model.Collections
import AvmCore.Model.Ledger

/-!
# AvmCore — extension dispatch and the asset-capability cache

`getFx` maps the concrete type of a credential or operation to the extension registered
for it; `verifyFxUsage` decides whether an asset supports that extension, memoising a bit
set per asset in the LRU cache `assetToFxCache`.

The answer it should give is `supportsFx`: the asset's creation transaction is fetched, is
a `CreateAssetTx`, and one of its states names the extension. The cache is *sound* for
that answer in every reachable state, whatever the history of queries, evictions and
ledger updates (`capReachable_cacheSound`, `verifyFxUsage_sound`), and a miss computes it
exactly (`verifyFxUsage_miss`). It is not *complete*: on a miss the code caches the bit of
the queried index only, although the loop visits every state, so a later query for
another index the asset declares is answered `false` from the cache
(`verifyFxUsage_forgets_other_fx`).

Main results:

* `capReachable_cacheSound` — every cached bit is an extension the asset declares;
* `verifyFxUsage_sound` — `true` only for a declared extension;
* `verifyFxUsage_forgets_other_fx` — the cache answers `false` for a declared extension.
-/

namespace AvmCore

/-! ## Extensions -/

/-- `fxs.Fx`: a feature extension, supplied from outside src/, as the verifiers and
bootstrapping hooks the VM calls. -/
structure Fx where
  verifyTransfer : UnsignedTx → In → Cred → Out → Except Err Unit
  verifyOperation : UnsignedTx → FxOp → Cred → List Out → Except Err Unit
  bootstrapping : Except Err Unit
  bootstrapped : Except Err Unit

/-- The registered extensions `vm.fxs` and the index `vm.typeToFxIndex` from the concrete
type of a credential or operation to its extension. The parser fills the index with
positions of `fxs` only, so a looked-up index is in range. -/
structure FxRegistry where
  fxs : List Fx
  typeToFxIndex : GoType → Option (Fin fxs.length)

/-- One extension that accepts every transfer and operation. -/
def acceptAllFx : Fx := ⟨fun _ _ _ _ => .ok (), fun _ _ _ _ => .ok (), .ok (), .ok ()⟩

/-- `VM.getFx`: the extension registered for `reflect.TypeOf(val)`. -/
def getFx (r : FxRegistry) (valType : GoType) : Except Err (Fin r.fxs.length) :=
  match r.typeToFxIndex valType with
  | some fx => .ok fx
  | none => .error .unknownFx

theorem getFx_eq_ok {r : FxRegistry} {t : GoType} {i : Fin r.fxs.length} :
    getFx r t = .ok i ↔ r.typeToFxIndex t = some i := by
  unfold getFx; split <;> simp_all

/-! ## The capability cache -/

/-- `assetToFxCacheSize`. -/
def assetToFxCacheSize : Nat := 1024

/-- `vm.assetToFxCache`: asset ID → bit set of the extensions it supports. -/
abbrev AssetCache := LRU BitSet

/-- What the creation transaction of `assetID` declares about `fxID`: it is fetched, it is a
`CreateAssetTx`, and one of its states has `FxIndex = fxID`. -/
def supportsFx (l : Ledger) (assetID : ID) (fxID : Nat) : Bool :=
  (l.status assetID).fetched &&
    match l.unsignedTx? assetID with
    | some (.createAsset createAssetTx) => createAssetTx.states.any (·.fxIndex.toNat == fxID)
    | _ => false

/-- The loop of `verifyFxUsage`: bit `fxID` for each state whose `FxIndex` is
`uint32(fxID)`. -/
def stateFxIDs (states : List InitialState) (fxID : Nat) : BitSet :=
  states.foldl
    (fun fxIDs state => if state.fxIndex = UInt32.ofNat fxID then fxIDs.add fxID else fxIDs)
    0#64

/-- `VM.verifyFxUsage`. -/
def verifyFxUsage (l : Ledger) (c : AssetCache) (fxID : Nat) (assetID : ID) :
    Bool × AssetCache :=
  match c.get assetID with
  | (some fxIDs, c) => (fxIDs.contains fxID, c)
  | (none, c) =>
    if !(l.status assetID).fetched then (false, c)
    else
      match l.unsignedTx? assetID with
      | some (.createAsset createAssetTx) =>
        let fxIDs := stateFxIDs createAssetTx.states fxID
        (fxIDs.contains fxID, c.put assetID fxIDs)
      | _ => (false, c)

/-! ## The bit set of a miss -/

theorem fxIndex_eq_ofNat {s : InitialState} {fxID : Nat} (h : fxID < UInt32.size) :
    s.fxIndex = UInt32.ofNat fxID ↔ s.fxIndex.toNat = fxID :=
  ⟨fun e => e ▸ UInt32.toNat_ofNat_of_lt h,
   fun e => UInt32.toNat.inj (e.trans (UInt32.toNat_ofNat_of_lt h).symm)⟩

theorem contains_foldl_stateFxIDs (states : List InitialState) (fxID i : Nat) (bs : BitSet) :
    (states.foldl (fun fxIDs state =>
        if state.fxIndex = UInt32.ofNat fxID then fxIDs.add fxID else fxIDs) bs).contains i
      = true ↔
      bs.contains i = true ∨
        (i = fxID ∧ i < 64 ∧ ∃ s ∈ states, s.fxIndex = UInt32.ofNat fxID) := by
  induction states generalizing bs with
  | nil => simp
  | cons s rest ih =>
    rw [List.foldl_cons, ih]
    split
    · rename_i hs
      rw [BitSet.contains_add]
      constructor
      · rintro ((h | h) | ⟨h1, h2, t, ht, h3⟩)
        · exact .inr ⟨h.1, h.2, s, List.mem_cons_self _ _, hs⟩
        · exact .inl h
        · exact .inr ⟨h1, h2, t, List.mem_cons_of_mem _ ht, h3⟩
      · rintro (h | ⟨h1, h2, _⟩)
        · exact .inl (.inr h)
        · exact .inl (.inl ⟨h1, h2⟩)
    · rename_i hs
      simp only [List.mem_cons, exists_eq_or_imp, hs, false_or]

theorem stateFxIDs_contains {states : List InitialState} {fxID i : Nat} :
    (stateFxIDs states fxID).contains i = true ↔
      i = fxID ∧ i < 64 ∧ ∃ s ∈ states, s.fxIndex.toNat = fxID := by
  rw [stateFxIDs, contains_foldl_stateFxIDs]
  simp only [BitSet.contains_zero, Bool.false_eq_true, false_or]
  constructor
  · rintro ⟨rfl, hi, s, hs, he⟩
    exact ⟨rfl, hi, s, hs, (fxIndex_eq_ofNat (Nat.lt_trans hi (by decide))).mp he⟩
  · rintro ⟨rfl, hi, s, hs, he⟩
    exact ⟨rfl, hi, s, hs, (fxIndex_eq_ofNat (Nat.lt_trans hi (by decide))).mpr he⟩

theorem supportsFx_createAsset {l : Ledger} {assetID : ID} {t : CreateAssetTx} {fxID : Nat}
    (hf : (l.status assetID).fetched = true)
    (ht : l.unsignedTx? assetID = some (.createAsset t)) :
    supportsFx l assetID fxID = t.states.any (·.fxIndex.toNat == fxID) := by
  simp [supportsFx, hf, ht]

/-! ## Soundness of the cache -/

/-- Every bit cached for an asset is an extension the asset declares. -/
def CacheSound (l : Ledger) (c : AssetCache) : Prop :=
  c.All fun assetID fxIDs => ∀ i, fxIDs.contains i = true → supportsFx l assetID i = true

/-- A miss answers, and caches, bits the asset declares. -/
theorem stateFxIDs_sound {l : Ledger} {assetID : ID} {t : CreateAssetTx} {fxID : Nat}
    (hf : (l.status assetID).fetched = true)
    (ht : l.unsignedTx? assetID = some (.createAsset t)) (i : Nat)
    (hi : (stateFxIDs t.states fxID).contains i = true) : supportsFx l assetID i = true := by
  obtain ⟨rfl, -, s, hs, he⟩ := stateFxIDs_contains.mp hi
  rw [supportsFx_createAsset hf ht, List.any_eq_true]
  exact ⟨s, hs, beq_iff_eq.mpr he⟩

/-- One call of `verifyFxUsage` keeps the cache sound, and its answer is sound. -/
theorem verifyFxUsage_sound {l : Ledger} {c : AssetCache} (hc : CacheSound l c)
    (fxID : Nat) (assetID : ID) :
    CacheSound l (verifyFxUsage l c fxID assetID).2 ∧
      ((verifyFxUsage l c fxID assetID).1 = true → supportsFx l assetID fxID = true) := by
  unfold verifyFxUsage
  split
  · rename_i fxIDs c' hget
    have hmem := LRU.get_fst_eq_some (congrArg Prod.fst hget)
    have hc' : CacheSound l c' := by simpa [hget] using hc.get assetID
    exact ⟨hc', hc _ hmem fxID⟩
  · rename_i c' hget
    have hc' : CacheSound l c' := by simpa [hget] using hc.get assetID
    split
    · exact ⟨hc', by simp⟩
    · rename_i hf
      simp only [Bool.not_eq_true', Bool.not_eq_false] at hf
      split
      · rename_i t ht
        exact ⟨hc'.put (stateFxIDs_sound hf ht), stateFxIDs_sound hf ht fxID⟩
      · exact ⟨hc', by simp⟩

/-- On a miss the answer is the direct derivation, for the indices a bit set can hold. -/
theorem verifyFxUsage_miss {l : Ledger} {c : AssetCache} {fxID : Nat} {assetID : ID}
    (hmiss : c.entries.lookup assetID = none) (hfx : fxID < 64) :
    (verifyFxUsage l c fxID assetID).1 = supportsFx l assetID fxID := by
  unfold verifyFxUsage
  simp only [LRU.get, hmiss]
  split
  · rename_i hf; simp_all [supportsFx]
  · rename_i hf
    simp only [Bool.not_eq_true', Bool.not_eq_false] at hf
    split
    · rename_i t ht
      rw [supportsFx_createAsset hf ht, Bool.eq_iff_iff, stateFxIDs_contains, List.any_eq_true]
      simp [hfx]
    · rename_i ht
      simp only [supportsFx, hf, Bool.true_and]

/-- A later ledger keeps every declared extension declared. -/
theorem supportsFx_of_extends {l l' : Ledger} (h : l.Extends l') {assetID : ID} {i : Nat}
    (hs : supportsFx l assetID i = true) : supportsFx l' assetID i = true := by
  have hf : (l.status assetID).fetched = true := by
    unfold supportsFx at hs; simp_all
  obtain ⟨hf', ht⟩ := h assetID hf
  simpa [supportsFx, Ledger.unsignedTx?, hf, hf', ht] using hs

/-! ## Reachable cache states -/

/-- The states of the ledger and the capability cache that a run can reach: the cache starts
empty; a query runs `verifyFxUsage` (directly, or nested in the verification of a
transaction or an ancestor); any entry may be evicted; and the ledger may move on to a
later state. -/
inductive CapReachable : Ledger → AssetCache → Prop
  | init (l : Ledger) : CapReachable l (LRU.empty assetToFxCacheSize)
  | query {l : Ledger} {c : AssetCache} (fxID : Nat) (assetID : ID) :
      CapReachable l c → CapReachable l (verifyFxUsage l c fxID assetID).2
  | evict {l : Ledger} {c : AssetCache} (assetID : ID) :
      CapReachable l c → CapReachable l (c.evict assetID)
  | advance {l l' : Ledger} {c : AssetCache} :
      CapReachable l c → l.Extends l' → CapReachable l' c

/-- **Cache soundness.** In every reachable state, every bit cached for an asset is an
extension its creation transaction declares. -/
theorem capReachable_cacheSound {l : Ledger} {c : AssetCache} (h : CapReachable l c) :
    CacheSound l c := by
  induction h with
  | init l => exact LRU.all_empty _
  | query fxID assetID _ ih => exact (verifyFxUsage_sound ih fxID assetID).1
  | evict assetID _ ih => exact ih.evict assetID
  | advance _ hext ih =>
    exact fun e he i hi => supportsFx_of_extends hext (ih e he i hi)

/-! ## Re-verification on the cache -/

/-- Modelled from the spec: the semantic checks of a processing transaction
(`UniqueTx.SemanticVerify`, not under src/), run over a ledger on the capability cache. They
verify the transaction's inputs and operations with `verifyTransfer` and `verifyOperation`,
which reach the cache through `verifyFxUsage` only, so from a reachable cache they leave a
reachable one. -/
structure SemanticVerifier where
  run : Ledger → ID → AssetCache → Except Err Unit × AssetCache
  reachable : ∀ {l : Ledger} {c : AssetCache} (txID : ID), CapReachable l c →
    CapReachable l (run l txID c).2

/-- Re-verifying a transaction leaves the capability cache reachable. -/
theorem verifyWithoutCacheWrites_reachable (sv : SemanticVerifier) {l : Ledger}
    {c : AssetCache} (txID : ID) (h : CapReachable l c) :
    CapReachable l (verifyWithoutCacheWrites (sv.run l) l txID c).2 := by
  rw [verifyWithoutCacheWrites_snd]
  split
  · exact sv.reachable txID h
  · exact h

/-! ## Incompleteness of the cache -/

theorem LRU.lookup_put {V : Type} (c : LRU V) (k : ID) (v : V) :
    (c.put k v).entries.lookup k = some v := by
  unfold LRU.put; split <;> try split
  all_goals simp [List.lookup]

/-- **The cache forgets the other extensions.** A miss caches the bit of the queried index
only, so the next query for another index is answered `false` from the cache, even when the
asset declares that index. -/
theorem verifyFxUsage_forgets_other_fx {l : Ledger} {c : AssetCache} {assetID : ID}
    {i j : Nat} (hmiss : c.entries.lookup assetID = none) (hij : j ≠ i)
    (hs : supportsFx l assetID i = true) :
    (verifyFxUsage l (verifyFxUsage l c i assetID).2 j assetID).1 = false := by
  have hf : (l.status assetID).fetched = true := by
    unfold supportsFx at hs; simp_all
  obtain ⟨t, ht⟩ : ∃ t, l.unsignedTx? assetID = some (.createAsset t) := by
    unfold supportsFx at hs
    split at hs
    · exact ⟨_, by assumption⟩
    · simp at hs
  have h1 : (verifyFxUsage l c i assetID).2 = c.put assetID (stateFxIDs t.states i) := by
    simp [verifyFxUsage, LRU.get, hmiss, hf, ht]
  rw [h1]
  simp only [verifyFxUsage, LRU.get, LRU.lookup_put, Bool.eq_false_iff, ne_eq]
  rw [stateFxIDs_contains]
  exact fun h => hij h.1

/-- An asset whose creation transaction, accepted, declares states for extensions 0 and 1. -/
def twoFxLedger : Ledger where
  utxos := fun _ => none
  txs := fun id => if id = 1 then
    some ⟨1, .createAsset ⟨⟨0, 0, [], [], []⟩, "Asset", "AST", 0, [⟨0, []⟩, ⟨1, []⟩]⟩, []⟩
    else none
  statuses := fun id => if id = 1 then some .accepted else none

/-- Querying extension 0 and then extension 1 of that asset, from an empty cache, answers
`false` for extension 1, which the asset declares. -/
theorem verifyFxUsage_rejects_declared_fx :
    supportsFx twoFxLedger 1 1 = true ∧
      (verifyFxUsage twoFxLedger
        (verifyFxUsage twoFxLedger (LRU.empty assetToFxCacheSize) 0 1).2 1 1).1 = false :=
  ⟨rfl, verifyFxUsage_forgets_other_fx rfl (by decide) rfl⟩

end AvmCore

import AvmCore.Model.Types

/-!
# AvmCore — bit sets and the LRU cache

The two containers behind the asset-capability cache `assetToFxCache`: `ids.BitSet`, the
set of extension indices an asset supports, packed in a `uint64`, and `cache.LRU`, the
bounded least-recently-used cache that maps an asset ID to that set.

Main results:

* `BitSet.contains_add` — adding `j` adds exactly `j` when `j < 64`, and nothing otherwise
  (Go's `1 << j` is zero once `j` reaches 64);
* `LRU.All.get`, `LRU.All.put`, `LRU.All.evict` — a property of every cached entry survives
  every cache operation, whatever the capacity and the eviction order.
-/

namespace AvmCore

/-! ## `ids.BitSet` -/

/-- `ids.BitSet`: a set of the integers in `[0, 64)`, one bit each. -/
abbrev BitSet := BitVec 64

/-- `BitSet.Add`: `*bs |= 1 << i`. -/
def BitSet.add (bs : BitSet) (i : Nat) : BitSet := bs ||| (1#64 <<< i)

/-- `BitSet.Contains`: `bs & (1 << i) != 0`. -/
def BitSet.contains (bs : BitSet) (i : Nat) : Bool := bs &&& (1#64 <<< i) != 0#64

theorem getLsbD_one_shiftLeft (i k : Nat) :
    (1#64 <<< i).getLsbD k = (decide (k < 64) && decide (k = i)) := by
  simp only [BitVec.getLsbD_shiftLeft, BitVec.getLsbD_one]
  rw [Bool.eq_iff_iff]
  simp only [Bool.and_eq_true, Bool.not_eq_true', decide_eq_true_eq, decide_eq_false_iff_not]
  omega

theorem BitSet.contains_iff {bs : BitSet} {i : Nat} :
    bs.contains i = true ↔ i < 64 ∧ bs.getLsbD i = true := by
  unfold BitSet.contains
  rw [bne_iff_ne, ne_eq]
  constructor
  · intro h
    by_contra hn
    apply h
    apply BitVec.eq_of_getLsbD_eq
    intro k
    simp only [BitVec.getLsbD_and, getLsbD_one_shiftLeft, BitVec.getLsbD_zero]
    by_cases hki : (k : Nat) = i
    · subst hki; simp_all
    · simp [hki]
  · rintro ⟨hi, hb⟩ h
    have := congrArg (BitVec.getLsbD · i) h
    simp [BitVec.getLsbD_and, getLsbD_one_shiftLeft, hi, hb] at this

@[simp] theorem BitSet.contains_zero (i : Nat) : BitSet.contains 0#64 i = false := by
  simp [BitSet.contains]

theorem BitSet.contains_add {bs : BitSet} {i j : Nat} :
    (bs.add j).contains i = true ↔ (i = j ∧ i < 64) ∨ bs.contains i = true := by
  simp only [BitSet.contains_iff, BitSet.add, BitVec.getLsbD_or, getLsbD_one_shiftLeft,
    Bool.or_eq_true, Bool.and_eq_true, decide_eq_true_eq]
  tauto

/-! ## `cache.LRU` -/

/-- Modelled from the spec: `cache.LRU` is not under src/. The spec's asset-capability cache
is a fixed-capacity cache with least-recently-used eviction. As in `cache.LRU`, a lookup
that hits makes the entry the most recently used, a `Put` of a present key replaces its
value, and a `Put` of a new key into a full cache reuses the least recently used entry.
`entries` lists the entries most recently used first. -/
structure LRU (V : Type) where
  size : Nat
  entries : List (ID × V)

/-- An empty cache of capacity `size`. -/
def LRU.empty {V : Type} (size : Nat) : LRU V := ⟨size, []⟩

/-- `LRU.Get`: the cached value, if any; a hit moves the entry to the front. -/
def LRU.get {V : Type} (c : LRU V) (k : ID) : Option V × LRU V :=
  match c.entries.lookup k with
  | some v => (some v, { c with entries := (k, v) :: c.entries.filter (·.1 != k) })
  | none => (none, c)

/-- `LRU.Put`. -/
def LRU.put {V : Type} (c : LRU V) (k : ID) (v : V) : LRU V :=
  match c.entries.lookup k with
  | some _ => { c with entries := (k, v) :: c.entries.filter (·.1 != k) }
  | none =>
    if c.size ≤ c.entries.length then { c with entries := (k, v) :: c.entries.dropLast }
    else { c with entries := (k, v) :: c.entries }

/-- `LRU.Evict`. -/
def LRU.evict {V : Type} (c : LRU V) (k : ID) : LRU V :=
  { c with entries := c.entries.filter (·.1 != k) }

/-- Every cached entry satisfies `P`. -/
def LRU.All {V : Type} (P : ID → V → Prop) (c : LRU V) : Prop := ∀ e ∈ c.entries, P e.1 e.2

section LRUAll

variable {V : Type} {P : ID → V → Prop} {c : LRU V}

theorem LRU.all_empty (size : Nat) : (LRU.empty size : LRU V).All P := by
  simp [LRU.All, LRU.empty]

theorem LRU.mem_of_lookup {k : ID} {v : V} :
    ∀ {l : List (ID × V)}, l.lookup k = some v → (k, v) ∈ l
  | [], h => by simp at h
  | (k', v') :: l, h => by
    by_cases hk : k = k'
    · subst hk; simp_all
    · simp only [List.lookup, show (k == k') = false from beq_false_of_ne hk] at h
      exact List.mem_cons_of_mem _ (LRU.mem_of_lookup h)

theorem LRU.get_fst_eq_some {k : ID} {v : V} (h : (c.get k).1 = some v) :
    (k, v) ∈ c.entries := by
  unfold LRU.get at h
  split at h
  · rename_i hv; cases h; exact LRU.mem_of_lookup hv
  · cases h

theorem LRU.All.get (hc : c.All P) (k : ID) : (c.get k).2.All P := by
  unfold LRU.get
  split
  · rename_i v hv
    intro e he
    rcases List.mem_cons.mp he with rfl | he
    · exact hc _ (LRU.mem_of_lookup hv)
    · exact hc e (List.mem_of_mem_filter he)
  · exact hc

theorem LRU.All.put (hc : c.All P) {k : ID} {v : V} (hv : P k v) : (c.put k v).All P := by
  unfold LRU.put
  split
  · intro e he
    rcases List.mem_cons.mp he with rfl | he
    · exact hv
    · exact hc e (List.mem_of_mem_filter he)
  · split <;> intro e he <;> rcases List.mem_cons.mp he with rfl | he
    · exact hv
    · exact hc e (List.dropLast_subset _ he)
    · exact hv
    · exact hc e he

theorem LRU.All.evict (hc : c.All P) (k : ID) : (c.evict k).All P :=
  fun e he => hc e (List.mem_of_mem_filter he)

end LRUAll

end AvmCore

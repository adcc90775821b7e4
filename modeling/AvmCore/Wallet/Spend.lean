import AvmCore.Model.Types

/-!
# AvmCore — coin selection for transfers

`Spend` scans the UTXOs in order and, for each asset still short of its requested amount,
spends the UTXO with the keychain and accumulates its amount with an overflow check. After
the scan every requested amount must be met; the selected inputs and their signers are then
sorted by UTXO locator.

The loop is modelled as `List.foldlM` of one step in the `Except` monad; its body after the
funding check, `addInput`, is shared with `SpendAll`. The proofs follow the loop: one
inversion lemma for the step, invariants over the processed prefix, and one run lemma.

Main results:

* `spend_sound` — on success every request is met, `amountsSpent` is the exact sum of the
  returned inputs per asset, the inputs are the keychain's for a sublist of the UTXOs, and
  the selection is minimal per asset;
* `spend_insufficient_only_if_short` — the insufficient-funds error is returned only when
  the spendable UTXOs of some asset do not cover its request.
-/

namespace AvmCore

/-- `secp256k1fx.Keychain`, supplied from outside src/: `Keychain.Spend`, the input and
signers that spend an output at a time, and `Keychain.Match`, the signature indices and
signers that satisfy an owner set at a time. -/
structure Keychain where
  spend : Out → UInt64 → Except Err (In × Signers)
  matchOwners : OutputOwners → UInt64 → Option (List UInt32 × Signers)

/-- What the loops of `Spend` and `SpendAll` accumulate: `amountsSpent`, and the parallel
slices `ins` and `keys`, kept zipped. -/
structure SpendAcc where
  amountsSpent : AmountMap
  ins : List (TransferableInput × Signers)

/-- `kc.Spend(utxo.Out, time)` followed by the assertion `inputIntf.(djtx.TransferableIn)`:
the input, its signers and its amount, or `none` when the loop skips the UTXO. -/
def spendTransferable (kc : Keychain) (time : UInt64) (utxo : UTXO) :
    Option (In × Signers × UInt64) :=
  match kc.spend utxo.out time with
  | .error _ => none
  | .ok (inputIntf, signers) => inputIntf.amount?.map fun amt => (inputIntf, signers, amt)

/-- The body shared by the loops of `Spend` and `SpendAll` (after `Spend`'s funding check):
spend the UTXO, add its amount with `safemath.Add64`, and append the input and its keys. -/
def addInput (kc : Keychain) (time : UInt64) (acc : SpendAcc) (utxo : UTXO) :
    Except Err SpendAcc :=
  match spendTransferable kc time utxo with
  | none => .ok acc
  | some (input, signers, amt) =>
    match add64 (acc.amountsSpent.get utxo.asset) amt with
    | none => .error .spendOverflow
    | some newAmountSpent =>
      .ok ⟨acc.amountsSpent.insert utxo.asset newAmountSpent,
        acc.ins ++ [(⟨utxo.utxoID, utxo.asset, input⟩, signers)]⟩

/-- One iteration of the loop of `VM.Spend`: skip assets already funded. -/
def spendStep (kc : Keychain) (time : UInt64) (amounts : AmountMap) (acc : SpendAcc)
    (utxo : UTXO) : Except Err SpendAcc :=
  if acc.amountsSpent.get utxo.asset ≥ amounts.get utxo.asset then .ok acc
  else addInput kc time acc utxo

/-- Modelled from the spec: the `Less` of `SortTransferableInputsWithSigners`, as the `≤` of a
sort. -/
def inputLe (p q : TransferableInput × Signers) : Bool := !q.1.utxoID.less p.1.utxoID

/-- Modelled from the spec: `djtx.SortTransferableInputsWithSigners`, Go's `sort.Sort` by UTXO
locator. On inputs with distinct locators every sort gives the same order; the model sorts
with `mergeSort`. -/
def sortTransferableInputsWithSigners (ins : List (TransferableInput × Signers)) :
    List TransferableInput × List Signers :=
  (ins.mergeSort inputLe).unzip

/-- `VM.Spend`. -/
def Spend (kc : Keychain) (time : UInt64) (utxos : List UTXO) (amounts : AmountMap) :
    Except Err (AmountMap × List TransferableInput × List Signers) := do
  let acc ← utxos.foldlM (spendStep kc time amounts) ⟨∅, []⟩
  match amounts.entries.find? (fun e => acc.amountsSpent.get e.1 < e.2) with
  | some e => .error (.wantToSpend e.2 e.1 (acc.amountsSpent.get e.1))
  | none => .ok (acc.amountsSpent, sortTransferableInputsWithSigners acc.ins)

/-! ## What a UTXO contributes -/

/-- The input and signers the loop appends for `utxo`, when it does. -/
def inputPair (kc : Keychain) (time : UInt64) (utxo : UTXO) :
    Option (TransferableInput × Signers) :=
  (spendTransferable kc time utxo).map fun (input, signers, _) =>
    (⟨utxo.utxoID, utxo.asset, input⟩, signers)

/-- The amount `utxo` contributes when the keychain can spend it, else `0`. -/
def spendableAmount (kc : Keychain) (time : UInt64) (utxo : UTXO) : Nat :=
  ((spendTransferable kc time utxo).map fun (_, _, amt) => amt.toNat).getD 0

/-- The exact sum of what the UTXOs of asset `a` in `l` contribute. -/
def spendTotal (kc : Keychain) (time : UInt64) (a : ID) (l : List UTXO) : Nat :=
  ((l.filter (·.asset = a)).map (spendableAmount kc time)).sum

/-- The amount of a returned input, `Amount()`. -/
def TransferableInput.amount (x : TransferableInput) : Nat := (x.input.amount?.getD 0).toNat

@[simp] theorem spendTotal_nil (kc : Keychain) (time : UInt64) (a : ID) :
    spendTotal kc time a [] = 0 := rfl

theorem spendTotal_cons (kc : Keychain) (time : UInt64) (a : ID) (u : UTXO) (l : List UTXO) :
    spendTotal kc time a (u :: l) =
      (if u.asset = a then spendableAmount kc time u else 0) + spendTotal kc time a l := by
  unfold spendTotal
  by_cases h : u.asset = a <;> simp [List.filter_cons, h]

theorem spendTotal_append (kc : Keychain) (time : UInt64) (a : ID) (l₁ l₂ : List UTXO) :
    spendTotal kc time a (l₁ ++ l₂) = spendTotal kc time a l₁ + spendTotal kc time a l₂ := by
  simp [spendTotal, List.filter_append]

theorem spendTotal_append_singleton (kc : Keychain) (time : UInt64) (a : ID) (l : List UTXO)
    (u : UTXO) :
    spendTotal kc time a (l ++ [u]) =
      spendTotal kc time a l + if u.asset = a then spendableAmount kc time u else 0 := by
  rw [spendTotal_append, spendTotal_cons, spendTotal_nil, Nat.add_zero]

theorem inputPair_of_some {kc : Keychain} {time : UInt64} {u : UTXO} {i : In} {s : Signers}
    {amt : UInt64} (h : spendTransferable kc time u = some (i, s, amt)) :
    inputPair kc time u = some (⟨u.utxoID, u.asset, i⟩, s) ∧
      spendableAmount kc time u = amt.toNat ∧ i.amount? = some amt := by
  refine ⟨by simp [inputPair, h], by simp [spendableAmount, h], ?_⟩
  unfold spendTransferable at h
  split at h
  · cases h
  · simp only [Option.map_eq_some', Prod.mk.injEq] at h
    obtain ⟨a, ha, rfl, rfl, rfl⟩ := h
    exact ha

theorem inputPair_of_isSome {kc : Keychain} {time : UInt64} {u : UTXO}
    (h : (spendTransferable kc time u).isSome) :
    ∃ i s, inputPair kc time u = some (⟨u.utxoID, u.asset, i⟩, s) ∧
      TransferableInput.amount ⟨u.utxoID, u.asset, i⟩ = spendableAmount kc time u := by
  obtain ⟨⟨i, s, amt⟩, hs⟩ := Option.isSome_iff_exists.mp h
  obtain ⟨hp, hamt, hi⟩ := inputPair_of_some hs
  exact ⟨i, s, hp, by simp [TransferableInput.amount, hi, hamt]⟩

theorem spendableAmount_of_none {kc : Keychain} {time : UInt64} {u : UTXO}
    (h : spendTransferable kc time u = none) : spendableAmount kc time u = 0 := by
  simp [spendableAmount, h]

/-! ## The step, once -/

/-- **Inversion of `addInput`.** It skips an unspendable UTXO, fails on overflow, or appends
the input and adds its amount. -/
theorem addInput_cases {kc : Keychain} {time : UInt64} {acc acc' : SpendAcc} {u : UTXO}
    (h : addInput kc time acc u = .ok acc') :
    (spendTransferable kc time u = none ∧ acc' = acc) ∨
    ∃ i s amt n, spendTransferable kc time u = some (i, s, amt) ∧
      add64 (acc.amountsSpent.get u.asset) amt = some n ∧
      acc' = ⟨acc.amountsSpent.insert u.asset n,
        acc.ins ++ [(⟨u.utxoID, u.asset, i⟩, s)]⟩ := by
  unfold addInput at h
  split at h
  · rename_i hs; cases h; exact .inl ⟨hs, rfl⟩
  · rename_i i s amt hs
    split at h
    · cases h
    · rename_i n hn; cases h; exact .inr ⟨i, s, amt, n, hs, hn, rfl⟩

theorem addInput_eq_error {kc : Keychain} {time : UInt64} {acc : SpendAcc} {u : UTXO}
    {e : Err} (h : addInput kc time acc u = .error e) :
    e = .spendOverflow ∧ ∃ i s amt, spendTransferable kc time u = some (i, s, amt) ∧
      add64 (acc.amountsSpent.get u.asset) amt = none := by
  unfold addInput at h
  split at h
  · cases h
  · rename_i i s amt hs
    split at h
    · rename_i hn; cases h; exact ⟨rfl, i, s, amt, hs, hn⟩
    · cases h

/-- **Inversion of `spendStep`.** -/
theorem spendStep_cases {kc : Keychain} {time : UInt64} {amounts : AmountMap}
    {acc acc' : SpendAcc} {u : UTXO} (h : spendStep kc time amounts acc u = .ok acc') :
    (acc' = acc ∧ (amounts.get u.asset ≤ acc.amountsSpent.get u.asset ∨
        spendTransferable kc time u = none)) ∨
    (acc.amountsSpent.get u.asset < amounts.get u.asset ∧
      ∃ i s amt n, spendTransferable kc time u = some (i, s, amt) ∧
        add64 (acc.amountsSpent.get u.asset) amt = some n ∧
        acc' = ⟨acc.amountsSpent.insert u.asset n,
          acc.ins ++ [(⟨u.utxoID, u.asset, i⟩, s)]⟩) := by
  unfold spendStep at h
  split at h
  · rename_i hf; cases h; exact .inl ⟨rfl, .inl hf⟩
  · rename_i hf
    rcases addInput_cases h with ⟨hs, rfl⟩ | hadd
    · exact .inl ⟨rfl, .inr hs⟩
    · exact .inr ⟨UInt64.not_le.mp hf, hadd⟩

/-- The loop of `Spend` fails only on overflow. -/
theorem foldlM_spendStep_error {kc : Keychain} {time : UInt64} {amounts : AmountMap}
    {utxos : List UTXO} {acc : SpendAcc} {e : Err}
    (h : utxos.foldlM (spendStep kc time amounts) acc = .error e) : e = .spendOverflow := by
  obtain ⟨-, u, -, acc', -, -, he⟩ := foldlM_eq_error h
  unfold spendStep at he
  split at he
  · cases he
  · exact (addInput_eq_error he).1

/-! ## What the accumulator records -/

/-- The accumulator after the loop has spent the UTXOs `sel`, in order: its inputs are
theirs, and `amountsSpent` holds for each asset the exact sum of their amounts, with no entry
for an asset none of them has. -/
structure SelectedBy (kc : Keychain) (time : UInt64) (sel : List UTXO) (acc : SpendAcc) :
    Prop where
  spendable : ∀ u ∈ sel, (spendTransferable kc time u).isSome
  ins_eq : acc.ins = sel.filterMap (inputPair kc time)
  spent_eq : ∀ a, (acc.amountsSpent.get a).toNat = spendTotal kc time a sel
  lookup_eq_none : ∀ a, acc.amountsSpent.lookup a = none ↔ ∀ u ∈ sel, u.asset ≠ a

theorem SelectedBy.nil (kc : Keychain) (time : UInt64) : SelectedBy kc time [] ⟨∅, []⟩ where
  spendable := by simp
  ins_eq := rfl
  spent_eq _ := rfl
  lookup_eq_none _ := by simp

/-- Appending an input keeps `SelectedBy`, with the UTXO appended to the selection. -/
theorem SelectedBy.snoc {kc : Keychain} {time : UInt64} {sel : List UTXO} {acc : SpendAcc}
    {u : UTXO} {i : In} {s : Signers} {amt n : UInt64} (h : SelectedBy kc time sel acc)
    (hs : spendTransferable kc time u = some (i, s, amt))
    (hn : add64 (acc.amountsSpent.get u.asset) amt = some n) :
    SelectedBy kc time (sel ++ [u])
      ⟨acc.amountsSpent.insert u.asset n, acc.ins ++ [(⟨u.utxoID, u.asset, i⟩, s)]⟩ := by
  obtain ⟨hpair, hamt, -⟩ := inputPair_of_some hs
  have hsum := (add64_eq_some.mp hn).2
  refine ⟨?_, ?_, fun a => ?_, fun a => ?_⟩
  · intro v hv
    rcases List.mem_append.mp hv with hv | hv
    · exact h.spendable v hv
    · rw [List.mem_singleton.mp hv, hs]; rfl
  · simp [h.ins_eq, hpair]
  · rw [AmountMap.get_insert, spendTotal_append_singleton, ← h.spent_eq]
    by_cases ha : a = u.asset
    · subst a; simp [hsum, hamt]
    · simp [ha, Ne.symm ha]
  · rw [AmountMap.lookup_insert]
    by_cases ha : a = u.asset
    · subst a; simpa using ⟨u, .inr rfl, rfl⟩
    · simp [ha, Ne.symm ha, h.lookup_eq_none, or_imp, forall_and]

/-- The greedy rule, over the selection: for each asset, the selected UTXOs before the last
one fall short of the request. -/
def MinimalFor (kc : Keychain) (time : UInt64) (amounts : AmountMap) (sel : List UTXO) :
    Prop :=
  ∀ a, sel.filter (·.asset = a) ≠ [] →
    (((sel.filter (·.asset = a)).dropLast).map (spendableAmount kc time)).sum <
      (amounts.get a).toNat

theorem MinimalFor.snoc {kc : Keychain} {time : UInt64} {amounts : AmountMap}
    {sel : List UTXO} {u : UTXO} (h : MinimalFor kc time amounts sel)
    (hu : spendTotal kc time u.asset sel < (amounts.get u.asset).toNat) :
    MinimalFor kc time amounts (sel ++ [u]) := by
  intro a ha
  by_cases hua : u.asset = a
  · subst a; simpa [List.filter_append] using hu
  · simpa [List.filter_append, hua] using h a (by simpa [List.filter_append, hua] using ha)

/-- The loop invariant of `Spend` after the prefix `pre`: the accumulator records a minimal
selection from `pre`, and an asset still short has collected everything `pre` offers. -/
def SpendInv (kc : Keychain) (time : UInt64) (amounts : AmountMap) (pre : List UTXO)
    (acc : SpendAcc) : Prop :=
  (∃ sel, sel.Sublist pre ∧ SelectedBy kc time sel acc ∧ MinimalFor kc time amounts sel) ∧
  ∀ a, acc.amountsSpent.get a < amounts.get a →
    (acc.amountsSpent.get a).toNat = spendTotal kc time a pre

theorem spendInv_nil (kc : Keychain) (time : UInt64) (amounts : AmountMap) :
    SpendInv kc time amounts [] ⟨∅, []⟩ :=
  ⟨⟨[], .slnil, .nil kc time, fun _ h => absurd rfl h⟩, fun _ _ => rfl⟩

/-- **Step lemma of `Spend`.** -/
theorem SpendInv.step {kc : Keychain} {time : UInt64} {amounts : AmountMap}
    {pre : List UTXO} {acc acc' : SpendAcc} {u : UTXO} (h : SpendInv kc time amounts pre acc)
    (hstep : spendStep kc time amounts acc u = .ok acc') :
    SpendInv kc time amounts (pre ++ [u]) acc' := by
  obtain ⟨⟨sel, hsub, hsel, hmin⟩, hcomp⟩ := h
  rcases spendStep_cases hstep with ⟨rfl, hskip⟩ | ⟨hshort, i, s, amt, n, hs, hn, rfl⟩
  · refine ⟨⟨sel, hsub.trans (List.sublist_append_left pre [u]), hsel, hmin⟩, fun a ha => ?_⟩
    rw [spendTotal_append_singleton, ← hcomp a ha]
    by_cases hua : u.asset = a
    · subst a
      rcases hskip with hf | hnone
      · exact absurd ha (UInt64.not_lt.mpr hf)
      · simp [spendableAmount_of_none hnone]
    · simp [hua]
  · have hsel' := hsel.snoc hs hn
    refine ⟨⟨sel ++ [u], hsub.append (List.Sublist.refl _), hsel',
      hmin.snoc (by rw [← hsel.spent_eq]; exact hshort)⟩, fun a ha => ?_⟩
    rw [spendTotal_append_singleton]
    by_cases hua : u.asset = a
    · subst a
      rw [hsel'.spent_eq, spendTotal_append_singleton, ← hsel.spent_eq,
        hcomp _ hshort]
    · simp only [hua, if_false, Nat.add_zero]
      simp only [AmountMap.get_insert, Ne.symm hua, if_false] at ha ⊢
      exact hcomp a ha

/-- **Run lemma of `Spend`.** -/
theorem spendInv_foldlM {kc : Keychain} {time : UInt64} {amounts : AmountMap}
    {utxos : List UTXO} {acc : SpendAcc}
    (h : utxos.foldlM (spendStep kc time amounts) ⟨∅, []⟩ = .ok acc) :
    SpendInv kc time amounts utxos acc := by
  simpa using foldlM_ok_induction (SpendInv kc time amounts) (fun _ _ _ _ hI hs => hI.step hs)
    utxos [] _ _ (spendInv_nil kc time amounts) h

/-! ## The final check and the sort -/

theorem Spend_eq_ok {kc : Keychain} {time : UInt64} {utxos : List UTXO}
    {amounts spent : AmountMap} {ins : List TransferableInput} {keys : List Signers}
    (h : Spend kc time utxos amounts = .ok (spent, ins, keys)) :
    ∃ acc, utxos.foldlM (spendStep kc time amounts) ⟨∅, []⟩ = .ok acc ∧
      amounts.entries.find? (fun e => acc.amountsSpent.get e.1 < e.2) = none ∧
      spent = acc.amountsSpent ∧ (ins, keys) = sortTransferableInputsWithSigners acc.ins := by
  unfold Spend at h
  cases hf : utxos.foldlM (spendStep kc time amounts) ⟨∅, []⟩ with
  | error e => rw [hf] at h; cases h
  | ok acc =>
    rw [hf] at h
    simp only [bind, Except.bind] at h
    split at h
    · cases h
    · obtain ⟨h1, h2⟩ := Prod.mk.inj (Except.ok.inj h)
      exact ⟨acc, rfl, ‹_›, h1.symm, h2.symm⟩

theorem Spend_eq_error {kc : Keychain} {time : UInt64} {utxos : List UTXO}
    {amounts : AmountMap} {e : Err} (h : Spend kc time utxos amounts = .error e) :
    e = .spendOverflow ∨
    ∃ acc entry, utxos.foldlM (spendStep kc time amounts) ⟨∅, []⟩ = .ok acc ∧
      amounts.entries.find? (fun e => acc.amountsSpent.get e.1 < e.2) = some entry ∧
      e = .wantToSpend entry.2 entry.1 (acc.amountsSpent.get entry.1) := by
  unfold Spend at h
  cases hf : utxos.foldlM (spendStep kc time amounts) ⟨∅, []⟩ with
  | error e' => rw [hf] at h; cases h; exact .inl (foldlM_spendStep_error hf)
  | ok acc =>
    rw [hf] at h
    simp only [bind, Except.bind] at h
    split at h
    · cases h; exact .inr ⟨acc, _, rfl, ‹_›, rfl⟩
    · cases h

/-- When the final check of `Spend` passes, every request is met. -/
theorem get_le_of_find?_eq_none {amounts spent : AmountMap}
    (h : amounts.entries.find? (fun e => spent.get e.1 < e.2) = none) (a : ID) :
    amounts.get a ≤ spent.get a := by
  cases hl : amounts.lookup a with
  | none => simp only [AmountMap.get, hl]; exact Nat.zero_le _
  | some v =>
    have := List.find?_eq_none.mp h _ (AList.mem_lookup_iff.mp hl)
    simpa [AmountMap.get, hl] using this

theorem sortTransferableInputsWithSigners_fst_perm (l : List (TransferableInput × Signers)) :
    (sortTransferableInputsWithSigners l).1.Perm (l.map Prod.fst) := by
  rw [sortTransferableInputsWithSigners, List.unzip_fst]
  exact (List.mergeSort_perm l inputLe).map Prod.fst

/-- With every selected UTXO spendable, the inputs of asset `a` add up to `spendTotal`. -/
theorem sum_amount_filterMap_inputPair {kc : Keychain} {time : UInt64} (a : ID) :
    ∀ {sel : List UTXO}, (∀ u ∈ sel, (spendTransferable kc time u).isSome) →
      ((((sel.filterMap (inputPair kc time)).map Prod.fst).filter (·.asset = a)).map
        TransferableInput.amount).sum = spendTotal kc time a sel
  | [], _ => rfl
  | u :: sel, hs => by
    obtain ⟨i, s, hp, hamt⟩ := inputPair_of_isSome (hs u (.head _))
    rw [List.filterMap_cons_some hp, spendTotal_cons,
      ← sum_amount_filterMap_inputPair a fun v hv => hs v (.tail _ hv)]
    by_cases ha : u.asset = a
    · subst a; simp [List.filter_cons, hamt]
    · simp [List.filter_cons, ha]

/-- With every selected UTXO spendable, the inputs have the selection's assets. -/
theorem forall_asset_filterMap_inputPair {kc : Keychain} {time : UInt64} (a : ID) :
    ∀ {sel : List UTXO}, (∀ u ∈ sel, (spendTransferable kc time u).isSome) →
      ((∀ x ∈ (sel.filterMap (inputPair kc time)).map Prod.fst, x.asset ≠ a) ↔
        ∀ u ∈ sel, u.asset ≠ a)
  | [], _ => by simp
  | u :: sel, hs => by
    obtain ⟨i, s, hp, -⟩ := inputPair_of_isSome (hs u (.head _))
    rw [List.filterMap_cons_some hp, List.map_cons, List.forall_mem_cons, List.forall_mem_cons,
      forall_asset_filterMap_inputPair a fun v hv => hs v (.tail _ hv)]

/-! ## Main results -/

/-- **Soundness of `Spend`.** On success every request is met; `amountsSpent` is the exact
sum of the returned inputs per asset, with entries for their assets only; the inputs and
signers are, sorted, those the keychain gives for a sublist of the UTXOs; and the selection
is minimal per asset, so no unrequested asset is spent. -/
theorem spend_sound {kc : Keychain} {time : UInt64} {utxos : List UTXO}
    {amounts spent : AmountMap} {ins : List TransferableInput} {keys : List Signers}
    (h : Spend kc time utxos amounts = .ok (spent, ins, keys)) :
    (∀ a, amounts.get a ≤ spent.get a) ∧
    (∀ a, (spent.get a).toNat = ((ins.filter (·.asset = a)).map TransferableInput.amount).sum ∧
      (spent.lookup a = none ↔ ∀ x ∈ ins, x.asset ≠ a)) ∧
    ∃ sel, sel.Sublist utxos ∧ (∀ u ∈ sel, (spendTransferable kc time u).isSome) ∧
      (ins, keys) = sortTransferableInputsWithSigners (sel.filterMap (inputPair kc time)) ∧
      MinimalFor kc time amounts sel ∧ ∀ x ∈ ins, 0 < amounts.get x.asset := by
  obtain ⟨acc, hf, hfind, rfl, hsort⟩ := Spend_eq_ok h
  obtain ⟨⟨sel, hsub, hsel, hmin⟩, -⟩ := spendInv_foldlM hf
  rw [hsel.ins_eq] at hsort
  have hperm : ins.Perm ((sel.filterMap (inputPair kc time)).map Prod.fst) := by
    simpa [← hsort] using sortTransferableInputsWithSigners_fst_perm
      (sel.filterMap (inputPair kc time))
  have hassets (a : ID) : (∀ x ∈ ins, x.asset ≠ a) ↔ ∀ u ∈ sel, u.asset ≠ a := by
    simpa only [hperm.mem_iff] using forall_asset_filterMap_inputPair a hsel.spendable
  refine ⟨get_le_of_find?_eq_none hfind, fun a => ⟨?_, (hsel.lookup_eq_none a).trans
    (hassets a).symm⟩, sel, hsub, hsel.spendable, hsort, hmin, fun x hx => ?_⟩
  · rw [hsel.spent_eq, ((hperm.filter _).map _).sum_eq,
      sum_amount_filterMap_inputPair a hsel.spendable]
  · obtain ⟨u, hu, hua⟩ : ∃ u ∈ sel, u.asset = x.asset := by
      by_contra hno
      push_neg at hno
      exact (hassets x.asset).mpr hno x hx rfl
    have hne : sel.filter (·.asset = x.asset) ≠ [] :=
      List.ne_nil_of_mem (List.mem_filter.mpr ⟨hu, by simp [hua]⟩)
    exact Nat.lt_of_le_of_lt (Nat.zero_le _) (hmin x.asset hne)

/-- A keychain that spends every transfer output with the first signature index. -/
def transferKeychain : Keychain where
  spend out _ := match out with
    | .secpTransfer o => .ok (.transferInput o.amt ⟨[0]⟩, [])
    | _ => .error .insufficientFunds
  matchOwners _ _ := none

/-- A UTXO holding 5 units of asset 1. -/
def fiveUTXO : UTXO := ⟨⟨7, 0⟩, 1, .secpTransfer ⟨5, ⟨0, 1, [3]⟩⟩⟩

/-- The request of 5 units of asset 1, which is also what spending `fiveUTXO` records. -/
def fiveOfAssetOne : AmountMap := (∅ : AmountMap).insert 1 5

/-- The input that spends `fiveUTXO`. -/
def fiveInput : TransferableInput := ⟨⟨7, 0⟩, 1, .transferInput 5 ⟨[0]⟩⟩

/-- Spending `fiveUTXO` for a request of 5 units of its asset, and what `spend_sound` says of
the result. -/
theorem spend_sound_one_transfer :
    (∀ a, AmountMap.get fiveOfAssetOne a ≤ AmountMap.get fiveOfAssetOne a) ∧
    (∀ a, (AmountMap.get fiveOfAssetOne a).toNat =
        (([fiveInput].filter (·.asset = a)).map TransferableInput.amount).sum ∧
      (fiveOfAssetOne.lookup a = none ↔ ∀ x ∈ [fiveInput], x.asset ≠ a)) ∧
    ∃ sel, sel.Sublist [fiveUTXO] ∧ (∀ u ∈ sel, (spendTransferable transferKeychain 0 u).isSome) ∧
      ([fiveInput], [[]]) =
        sortTransferableInputsWithSigners (sel.filterMap (inputPair transferKeychain 0)) ∧
      MinimalFor transferKeychain 0 fiveOfAssetOne sel ∧
      ∀ x ∈ [fiveInput], 0 < AmountMap.get fiveOfAssetOne x.asset :=
  spend_sound (by
    simp only [Spend, List.foldlM_cons, List.foldlM_nil, sortTransferableInputsWithSigners]
    rw [show spendStep transferKeychain 0 fiveOfAssetOne ⟨∅, []⟩ fiveUTXO =
      .ok ⟨fiveOfAssetOne, [(fiveInput, [])]⟩ from rfl]
    simp only [bind, Except.bind, pure, Except.pure, List.mergeSort_singleton]
    rfl)

/-- The insufficient-funds error names an asset whose spendable UTXOs fall short. -/
theorem Spend_wantToSpend {kc : Keychain} {time : UInt64} {utxos : List UTXO}
    {amounts : AmountMap} {amount spent : UInt64} {asset : ID}
    (h : Spend kc time utxos amounts = .error (.wantToSpend amount asset spent)) :
    amounts.get asset = amount ∧ spent.toNat = spendTotal kc time asset utxos ∧
      spendTotal kc time asset utxos < amount.toNat := by
  rcases Spend_eq_error h with he | ⟨acc, entry, hf, hfind, he⟩
  · cases he
  · cases he
    have hlt : acc.amountsSpent.get entry.1 < entry.2 := by
      simpa using List.find?_some hfind
    have hl : amounts.lookup entry.1 = some entry.2 :=
      AList.mem_lookup_iff.mpr (List.mem_of_find?_eq_some hfind)
    have hget : amounts.get entry.1 = entry.2 := by simp [AmountMap.get, hl]
    have htotal := (spendInv_foldlM hf).2 entry.1 (hget ▸ hlt)
    exact ⟨hget, htotal, htotal ▸ hlt⟩

/-- **Completeness of the greedy scan.** `Spend` reports insufficient funds only for an
asset whose spendable UTXOs in the list add up to less than its request; so when they cover
every request it succeeds or fails on overflow. -/
theorem spend_insufficient_only_if_short (kc : Keychain) (time : UInt64) (utxos : List UTXO)
    (amounts : AmountMap) :
    (∀ amount asset spent,
      Spend kc time utxos amounts = .error (.wantToSpend amount asset spent) →
        amounts.get asset = amount ∧ spent.toNat = spendTotal kc time asset utxos ∧
          spendTotal kc time asset utxos < amount.toNat) ∧
    ((∀ a, (amounts.get a).toNat ≤ spendTotal kc time a utxos) →
      (∃ r, Spend kc time utxos amounts = .ok r) ∨
        Spend kc time utxos amounts = .error .spendOverflow) := by
  refine ⟨fun _ _ _ => Spend_wantToSpend, fun hcover => ?_⟩
  cases hs : Spend kc time utxos amounts with
  | ok r => exact .inl ⟨r, rfl⟩
  | error e =>
    rcases Spend_eq_error hs with rfl | ⟨acc, entry, -, -, rfl⟩
    · exact .inr rfl
    · obtain ⟨hget, -, hshort⟩ := Spend_wantToSpend hs
      exact absurd (hcover entry.1) (by rw [hget]; omega)


/-- Asking 6 units of asset 1 from `fiveUTXO` reports the shortfall of asset 1; asking 5, which
the UTXO covers, cannot report one. -/
theorem spend_insufficient_only_if_short_five :
    Spend transferKeychain 0 [fiveUTXO] ((∅ : AmountMap).insert 1 6) =
      .error (.wantToSpend 6 1 5) ∧
    (AmountMap.get ((∅ : AmountMap).insert 1 6) 1 = 6 ∧
      (5 : UInt64).toNat = spendTotal transferKeychain 0 1 [fiveUTXO] ∧
      spendTotal transferKeychain 0 1 [fiveUTXO] < (6 : UInt64).toNat) ∧
    (∀ a, (AmountMap.get fiveOfAssetOne a).toNat ≤ spendTotal transferKeychain 0 a [fiveUTXO]) ∧
    ((∃ r, Spend transferKeychain 0 [fiveUTXO] fiveOfAssetOne = .ok r) ∨
      Spend transferKeychain 0 [fiveUTXO] fiveOfAssetOne = .error .spendOverflow) :=
  have hshort : Spend transferKeychain 0 [fiveUTXO] ((∅ : AmountMap).insert 1 6) =
      .error (.wantToSpend 6 1 5) := rfl
  have hcover : ∀ a, (AmountMap.get fiveOfAssetOne a).toNat ≤
      spendTotal transferKeychain 0 a [fiveUTXO] := fun a => by
    by_cases ha : a = 1
    · subst ha; decide
    · rw [fiveOfAssetOne, AmountMap.get_insert, if_neg ha, AmountMap.get_empty]
      exact Nat.zero_le _
  ⟨hshort, (spend_insufficient_only_if_short transferKeychain 0 [fiveUTXO] _).1 6 1 5 hshort,
    hcover, (spend_insufficient_only_if_short transferKeychain 0 [fiveUTXO] fiveOfAssetOne).2 hcover⟩

end AvmCore

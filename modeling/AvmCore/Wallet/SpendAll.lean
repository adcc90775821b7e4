import AvmCore.Wallet.Spend

/-!
# AvmCore — spending every UTXO

`SpendAll` spends every UTXO the keychain can spend with an amount, adds the amounts per asset
with an overflow check, and sorts the inputs by UTXO locator. Its loop is the one of `Spend`
without the funding check, so its step is `addInput` and its run lemma `foldlM_ok_induction`.

Main results:

* `spendAll_canonical` — on a list of distinct UTXOs, `SpendAll` fails exactly when the
  spendable amounts of some asset add up past `2^64 - 1`; otherwise it records those sums and
  returns the input of every spendable UTXO once, in locator order; so every permutation of
  the list gives the same result;
* `SpendAll_perm` — the order independence on its own, from `mergeSort_inputLe_eq_of_perm`:
  on distinct locators the sort gives one order for every permutation;
* `Spend_of_SpendAll` — `Spend`, asked for the totals `SpendAll` collected, returns what
  `SpendAll` returns, as long as every spendable UTXO has a positive amount.
-/

namespace AvmCore

/-- `VM.SpendAll`. -/
def SpendAll (kc : Keychain) (time : UInt64) (utxos : List UTXO) :
    Except Err (AmountMap × List TransferableInput × List Signers) := do
  let acc ← utxos.foldlM (addInput kc time) ⟨∅, []⟩
  .ok (acc.amountsSpent, sortTransferableInputsWithSigners acc.ins)

/-- Two results of `SpendAll` that are equal as Go values: the same error, or maps with the
same entries and the same slices. -/
def SameSpend : Except Err (AmountMap × List TransferableInput × List Signers) →
    Except Err (AmountMap × List TransferableInput × List Signers) → Prop
  | .error e, .error e' => e = e'
  | .ok (m, ins, keys), .ok (m', ins', keys') =>
    (∀ a, m.lookup a = m'.lookup a) ∧ ins = ins' ∧ keys = keys'
  | _, _ => False

/-! ## The canonical order -/

/-- `UTXOID.less` over `Nat`, where `omega` reads it. -/
theorem UTXOID.less_iff {a b : UTXOID} :
    a.less b = true ↔ @LT.lt Nat _ a.txID b.txID ∨
      @Eq Nat a.txID b.txID ∧ a.outputIndex.toNat < b.outputIndex.toNat := by
  simp only [UTXOID.less, Bool.or_eq_true, Bool.and_eq_true, decide_eq_true_eq, beq_iff_eq]
  rfl

theorem UTXOID.less_asymm {a b : UTXOID} (h : a.less b = true) : ¬ b.less a = true := by
  simp only [UTXOID.less_iff] at *; omega

theorem UTXOID.less_or_less {a b : UTXOID} (h : a ≠ b) : a.less b = true ∨ b.less a = true := by
  simp only [UTXOID.less_iff]
  by_contra hn
  have hi : a.outputIndex.toNat = b.outputIndex.toNat := by omega
  have ht : @Eq Nat a.txID b.txID := by omega
  obtain ⟨t, i⟩ := a
  obtain ⟨t', i'⟩ := b
  simp only at ht hi
  rw [ht, UInt32.toNat.inj hi] at h
  exact h rfl

theorem inputLe_iff {p q : TransferableInput × Signers} :
    inputLe p q = true ↔ ¬ q.1.utxoID.less p.1.utxoID = true := by
  simp [inputLe]

theorem inputLe_trans (p q r : TransferableInput × Signers) (h : inputLe p q = true)
    (h' : inputLe q r = true) : inputLe p r = true := by
  simp only [inputLe_iff, UTXOID.less_iff] at *; omega

theorem inputLe_total (p q : TransferableInput × Signers) :
    (inputLe p q || inputLe q p) = true := by
  simp only [Bool.or_eq_true, inputLe_iff, UTXOID.less_iff]; omega

/-- On inputs with distinct locators the sort orders them strictly. -/
theorem pairwise_less_mergeSort {l : List (TransferableInput × Signers)}
    (hnd : (l.map (·.1.utxoID)).Nodup) :
    (l.mergeSort inputLe).Pairwise (fun p q => p.1.utxoID.less q.1.utxoID = true) := by
  have hne := ((List.mergeSort_perm l inputLe).map (·.1.utxoID)).nodup_iff.mpr hnd
  rw [List.Nodup, List.pairwise_map] at hne
  refine ((List.sorted_mergeSort inputLe_trans inputLe_total l).and hne).imp fun ⟨hle, hne⟩ => ?_
  refine (UTXOID.less_or_less hne).resolve_right fun hlt => ?_
  exact inputLe_iff.mp hle hlt

/-- **The sort is canonical.** On inputs with distinct locators it gives one order for every
permutation. -/
theorem mergeSort_inputLe_eq_of_perm {l l' : List (TransferableInput × Signers)}
    (hp : l.Perm l') (hnd : (l.map (·.1.utxoID)).Nodup) :
    l.mergeSort inputLe = l'.mergeSort inputLe := by
  haveI : IsAntisymm (TransferableInput × Signers)
      (fun p q => p.1.utxoID.less q.1.utxoID = true) :=
    ⟨fun _ _ h h' => absurd h' (UTXOID.less_asymm h)⟩
  exact List.eq_of_perm_of_sorted
    (((List.mergeSort_perm l _).trans hp).trans (List.mergeSort_perm l' _).symm)
    (pairwise_less_mergeSort hnd) (pairwise_less_mergeSort ((hp.map _).nodup_iff.mp hnd))

/-- On inputs with distinct locators, the sorted slices hold every input and its signers
once, at the same index, in strict locator order. -/
theorem sortTransferableInputsWithSigners_canonical {l : List (TransferableInput × Signers)}
    (hnd : (l.map (·.1.utxoID)).Nodup) :
    ((sortTransferableInputsWithSigners l).1.zip (sortTransferableInputsWithSigners l).2).Perm l ∧
      (sortTransferableInputsWithSigners l).1.length =
        (sortTransferableInputsWithSigners l).2.length ∧
      (sortTransferableInputsWithSigners l).1.Pairwise
        (fun x y => x.utxoID.less y.utxoID = true) := by
  refine ⟨?_, by simp [sortTransferableInputsWithSigners], ?_⟩
  · rw [sortTransferableInputsWithSigners, List.zip_unzip]
    exact List.mergeSort_perm l inputLe
  · rw [sortTransferableInputsWithSigners, List.unzip_fst, List.pairwise_map]
    exact pairwise_less_mergeSort hnd

/-! ## What the loop records -/

/-- The UTXOs of `l` the keychain can spend with an amount. -/
def spendableUTXOs (kc : Keychain) (time : UInt64) (l : List UTXO) : List UTXO :=
  l.filter fun u => (spendTransferable kc time u).isSome

theorem spendTotal_spendableUTXOs (kc : Keychain) (time : UInt64) (a : ID) (l : List UTXO) :
    spendTotal kc time a (spendableUTXOs kc time l) = spendTotal kc time a l := by
  induction l with
  | nil => rfl
  | cons u l ih =>
    cases hs : spendTransferable kc time u with
    | none => simp [spendableUTXOs, hs, spendTotal_cons, spendableAmount_of_none hs, ← ih]
    | some _ => simp [spendableUTXOs, hs, spendTotal_cons, ← ih]

theorem filterMap_inputPair_spendableUTXOs (kc : Keychain) (time : UInt64) (l : List UTXO) :
    (spendableUTXOs kc time l).filterMap (inputPair kc time) = l.filterMap (inputPair kc time) := by
  induction l with
  | nil => rfl
  | cons u l ih =>
    unfold spendableUTXOs at ih ⊢
    cases hs : spendTransferable kc time u with
    | none => simp [hs, inputPair, ih]
    | some _ =>
      rw [List.filter_cons_of_pos (by simp [hs]), List.filterMap_cons, List.filterMap_cons, ih]

theorem spendTotal_perm (kc : Keychain) (time : UInt64) (a : ID) {l l' : List UTXO}
    (h : l.Perm l') : spendTotal kc time a l = spendTotal kc time a l' :=
  ((h.filter _).map _).sum_eq

/-- The locators of the inputs are those of the UTXOs they spend. -/
theorem map_utxoID_filterMap_inputPair_sublist (kc : Keychain) (time : UInt64) :
    ∀ l : List UTXO,
      ((l.filterMap (inputPair kc time)).map (·.1.utxoID)).Sublist (l.map (·.utxoID))
  | [] => .slnil
  | u :: l => by
    cases hp : inputPair kc time u with
    | none =>
      rw [List.filterMap_cons_none hp]
      exact (map_utxoID_filterMap_inputPair_sublist kc time l).cons _
    | some p =>
      have hid : p.1.utxoID = u.utxoID := by
        obtain ⟨⟨i, s, amt⟩, -, rfl⟩ := Option.map_eq_some'.mp hp; rfl
      rw [List.filterMap_cons_some hp, List.map_cons, List.map_cons, hid]
      exact (map_utxoID_filterMap_inputPair_sublist kc time l).cons₂ _

/-- **Step lemma of `SpendAll`.** -/
theorem SelectedBy.addInput {kc : Keychain} {time : UInt64} {pre : List UTXO}
    {acc acc' : SpendAcc} {u : UTXO} (h : SelectedBy kc time (spendableUTXOs kc time pre) acc)
    (hstep : addInput kc time acc u = .ok acc') :
    SelectedBy kc time (spendableUTXOs kc time (pre ++ [u])) acc' := by
  rcases addInput_cases hstep with ⟨hs, rfl⟩ | ⟨i, s, amt, n, hs, hn, rfl⟩
  · simpa [spendableUTXOs, List.filter_append, hs] using h
  · simpa [spendableUTXOs, List.filter_append, hs] using h.snoc hs hn

/-- **Run lemma of `SpendAll`.** -/
theorem selectedBy_foldlM_addInput {kc : Keychain} {time : UInt64} {l : List UTXO}
    {acc : SpendAcc} (h : l.foldlM (addInput kc time) ⟨∅, []⟩ = .ok acc) :
    SelectedBy kc time (spendableUTXOs kc time l) acc := by
  simpa using foldlM_ok_induction (fun pre acc => SelectedBy kc time (spendableUTXOs kc time pre) acc)
    (fun _ _ _ _ hI hs => hI.addInput hs) l [] _ _ (.nil kc time) h

/-- The loop of `SpendAll` fails only on overflow, and only when some asset's spendable
amounts add up past `2^64 - 1`. -/
theorem foldlM_addInput_error {kc : Keychain} {time : UInt64} {utxos : List UTXO} {e : Err}
    (h : utxos.foldlM (addInput kc time) ⟨∅, []⟩ = .error e) :
    e = .spendOverflow ∧ ∃ a, UInt64.size ≤ spendTotal kc time a utxos := by
  obtain ⟨pre, u, post, acc, rfl, hpre, hu⟩ := foldlM_eq_error h
  obtain ⟨he, i, s, amt, hs, hn⟩ := addInput_eq_error hu
  refine ⟨he, u.asset, ?_⟩
  have hspent := (selectedBy_foldlM_addInput hpre).spent_eq u.asset
  rw [spendTotal_spendableUTXOs] at hspent
  have hover := add64_eq_none.mp hn
  rw [spendTotal_append, spendTotal_cons, if_pos rfl, (inputPair_of_some hs).2.1]
  omega

theorem SpendAll_of_overflow {kc : Keychain} {time : UInt64} {utxos : List UTXO}
    (h : ∃ a, UInt64.size ≤ spendTotal kc time a utxos) :
    SpendAll kc time utxos = .error .spendOverflow := by
  unfold SpendAll
  cases hf : utxos.foldlM (addInput kc time) ⟨∅, []⟩ with
  | error e => rw [(foldlM_addInput_error hf).1]; rfl
  | ok acc =>
    obtain ⟨a, ha⟩ := h
    have := (selectedBy_foldlM_addInput hf).spent_eq a
    rw [spendTotal_spendableUTXOs] at this
    exact absurd ((AmountMap.get acc.amountsSpent a).toNat_lt_size) (by omega)

theorem SpendAll_of_fits {kc : Keychain} {time : UInt64} {utxos : List UTXO}
    (h : ∀ a, spendTotal kc time a utxos < UInt64.size) :
    ∃ spent, SpendAll kc time utxos =
        .ok (spent, sortTransferableInputsWithSigners (utxos.filterMap (inputPair kc time))) ∧
      ∀ a, (spent.get a).toNat = spendTotal kc time a utxos ∧
        (spent.lookup a = none ↔ ∀ u ∈ spendableUTXOs kc time utxos, u.asset ≠ a) := by
  unfold SpendAll
  cases hf : utxos.foldlM (addInput kc time) ⟨∅, []⟩ with
  | error e =>
    obtain ⟨-, a, ha⟩ := foldlM_addInput_error hf
    exact absurd (h a) (by omega)
  | ok acc =>
    have hsel := selectedBy_foldlM_addInput hf
    refine ⟨acc.amountsSpent, ?_, fun a => ⟨?_, hsel.lookup_eq_none a⟩⟩
    · rw [← filterMap_inputPair_spendableUTXOs, ← hsel.ins_eq]; rfl
    · rw [hsel.spent_eq, spendTotal_spendableUTXOs]

/-- **`SpendAll` does not depend on the order of the UTXOs**, when their locators are
distinct. -/
theorem SpendAll_perm {kc : Keychain} {time : UInt64} {utxos utxos' : List UTXO}
    (hp : utxos'.Perm utxos) (hnd : (utxos.map (·.utxoID)).Nodup) :
    SameSpend (SpendAll kc time utxos') (SpendAll kc time utxos) := by
  by_cases hover : ∃ a, UInt64.size ≤ spendTotal kc time a utxos
  · have hover' : ∃ a, UInt64.size ≤ spendTotal kc time a utxos' := by
      simpa only [spendTotal_perm kc time _ hp] using hover
    rw [SpendAll_of_overflow hover, SpendAll_of_overflow hover']
    rfl
  · push_neg at hover
    obtain ⟨spent, hok, hspent⟩ := SpendAll_of_fits hover
    obtain ⟨spent', hok', hspent'⟩ :=
      @SpendAll_of_fits kc time utxos' (by simpa only [spendTotal_perm kc time _ hp] using hover)
    have hsort : sortTransferableInputsWithSigners (utxos'.filterMap (inputPair kc time)) =
        sortTransferableInputsWithSigners (utxos.filterMap (inputPair kc time)) :=
      congrArg List.unzip (mergeSort_inputLe_eq_of_perm (hp.filterMap _)
        ((map_utxoID_filterMap_inputPair_sublist kc time utxos').nodup
          ((hp.map _).nodup_iff.mpr hnd)))
    rw [hok, hok', hsort]
    refine ⟨fun a => AmountMap.lookup_eq_of_get_eq ?_ ?_, rfl, rfl⟩
    · rw [(hspent' a).2, (hspent a).2]
      exact forall_congr' fun u => imp_congr_left ((hp.filter _).mem_iff)
    · apply UInt64.toNat.inj
      rw [(hspent' a).1, (hspent a).1, spendTotal_perm kc time a hp]

/-! ## Main result -/

/-- **`SpendAll` is exact and canonical.** On a list of distinct UTXOs it fails with
`errSpendOverflow` exactly when the spendable amounts of some asset add up past `2^64 - 1`;
otherwise it records each asset's exact sum and returns the input and signers of every
spendable UTXO once, in strict locator order; and every permutation of the list gives the
same result. -/
theorem spendAll_canonical (kc : Keychain) (time : UInt64) {utxos : List UTXO}
    (hnd : (utxos.map (·.utxoID)).Nodup) :
    (SpendAll kc time utxos = .error .spendOverflow ↔
      ∃ a, UInt64.size ≤ spendTotal kc time a utxos) ∧
    ((∀ a, spendTotal kc time a utxos < UInt64.size) →
      ∃ spent ins keys, SpendAll kc time utxos = .ok (spent, ins, keys) ∧
        (∀ a, (spent.get a).toNat = spendTotal kc time a utxos ∧
          (spent.lookup a = none ↔ ∀ u ∈ spendableUTXOs kc time utxos, u.asset ≠ a)) ∧
        (ins.zip keys).Perm (utxos.filterMap (inputPair kc time)) ∧
        ins.length = keys.length ∧
        ins.Pairwise (fun x y => x.utxoID.less y.utxoID = true)) ∧
    ∀ utxos', utxos'.Perm utxos → SameSpend (SpendAll kc time utxos') (SpendAll kc time utxos) := by
  refine ⟨⟨fun he => ?_, SpendAll_of_overflow⟩, fun hfit => ?_, fun _ hp => SpendAll_perm hp hnd⟩
  · by_contra hno
    push_neg at hno
    obtain ⟨_, hok, -⟩ := SpendAll_of_fits hno
    rw [hok] at he; cases he
  · obtain ⟨spent, hok, hspent⟩ := SpendAll_of_fits hfit
    exact ⟨spent, _, _, hok, hspent, sortTransferableInputsWithSigners_canonical
      ((map_utxoID_filterMap_inputPair_sublist kc time utxos).nodup hnd)⟩

/-- Two UTXOs of asset 1 at distinct locators. -/
def twoTransferUTXOs : List UTXO := [fiveUTXO, ⟨⟨7, 1⟩, 1, .secpTransfer ⟨3, ⟨0, 1, [3]⟩⟩⟩]

/-- `SpendAll` on `twoTransferUTXOs`, whose locators are distinct, and what
`spendAll_canonical` says of it. -/
theorem spendAll_canonical_two_transfers :
    (SpendAll transferKeychain 0 twoTransferUTXOs = .error .spendOverflow ↔
      ∃ a, UInt64.size ≤ spendTotal transferKeychain 0 a twoTransferUTXOs) ∧
    ((∀ a, spendTotal transferKeychain 0 a twoTransferUTXOs < UInt64.size) →
      ∃ spent ins keys, SpendAll transferKeychain 0 twoTransferUTXOs = .ok (spent, ins, keys) ∧
        (∀ a, (spent.get a).toNat = spendTotal transferKeychain 0 a twoTransferUTXOs ∧
          (spent.lookup a = none ↔
            ∀ u ∈ spendableUTXOs transferKeychain 0 twoTransferUTXOs, u.asset ≠ a)) ∧
        (ins.zip keys).Perm (twoTransferUTXOs.filterMap (inputPair transferKeychain 0)) ∧
        ins.length = keys.length ∧
        ins.Pairwise (fun x y => x.utxoID.less y.utxoID = true)) ∧
    ∀ utxos', utxos'.Perm twoTransferUTXOs →
      SameSpend (SpendAll transferKeychain 0 utxos') (SpendAll transferKeychain 0 twoTransferUTXOs) :=
  spendAll_canonical transferKeychain 0 (by decide)

/-! ## `Spend` of what `SpendAll` collected -/

/-- What `addInput` adds to the amount spent of an asset: the UTXO's spendable amount, to its
own asset only. -/
theorem addInput_get_toNat {kc : Keychain} {time : UInt64} {acc acc' : SpendAcc} {u : UTXO}
    (h : addInput kc time acc u = .ok acc') (a : ID) :
    (acc'.amountsSpent.get a).toNat =
      (acc.amountsSpent.get a).toNat + if u.asset = a then spendableAmount kc time u else 0 := by
  rcases addInput_cases h with ⟨hs, rfl⟩ | ⟨i, s, amt, n, hs, hn, rfl⟩
  · simp [spendableAmount_of_none hs]
  · rw [AmountMap.get_insert, (inputPair_of_some hs).2.1]
    by_cases ha : u.asset = a
    · subst ha; simpa using (add64_eq_some.mp hn).2
    · simp [ha, Ne.symm ha]

/-- The funding check of `Spend` does not skip a spendable UTXO with a positive amount while
that amount still fits in the request for its asset. -/
theorem spendStep_eq_addInput {kc : Keychain} {time : UInt64} {amounts : AmountMap}
    {acc : SpendAcc} {u : UTXO}
    (hpos : (spendTransferable kc time u).isSome → 0 < spendableAmount kc time u)
    (hfit : (acc.amountsSpent.get u.asset).toNat + spendableAmount kc time u ≤
      (amounts.get u.asset).toNat) :
    spendStep kc time amounts acc u = addInput kc time acc u := by
  unfold spendStep
  split
  · rename_i hge
    cases hs : spendTransferable kc time u with
    | none => simp [addInput, hs]
    | some x =>
      have hp := hpos (by simp [hs])
      have hge' : (amounts.get u.asset).toNat ≤ (acc.amountsSpent.get u.asset).toNat := hge
      omega
  · rfl

/-- While every asset's amount spent so far, plus what the remaining UTXOs can add, stays
within the request, the loop of `Spend` makes the same steps as the loop of `SpendAll`, when
every spendable UTXO carries a positive amount. -/
theorem foldlM_spendStep_eq_addInput {kc : Keychain} {time : UInt64} {amounts : AmountMap} :
    ∀ (post : List UTXO) (acc : SpendAcc),
      (∀ u ∈ post, (spendTransferable kc time u).isSome → 0 < spendableAmount kc time u) →
      (∀ a, (acc.amountsSpent.get a).toNat + spendTotal kc time a post ≤
        (amounts.get a).toNat) →
      post.foldlM (spendStep kc time amounts) acc = post.foldlM (addInput kc time) acc
  | [], _, _, _ => rfl
  | u :: post, acc, hpos, hfit => by
    have hstep : spendStep kc time amounts acc u = addInput kc time acc u := by
      refine spendStep_eq_addInput (hpos u (.head _)) ?_
      have := hfit u.asset
      rw [spendTotal_cons, if_pos rfl] at this
      omega
    rw [List.foldlM_cons, List.foldlM_cons, hstep]
    cases hadd : addInput kc time acc u with
    | error e => rfl
    | ok acc' =>
      refine foldlM_spendStep_eq_addInput post acc' (fun v hv => hpos v (.tail _ hv)) fun a => ?_
      have := hfit a
      rw [spendTotal_cons] at this
      rw [addInput_get_toNat hadd]
      omega

/-- **`Spend` of what `SpendAll` collected is `SpendAll`.** When every UTXO the keychain can
spend carries a positive amount, as every verified output does, asking `Spend` for exactly
the amounts `SpendAll` collected returns `SpendAll`'s result: the same amounts, the same
inputs in the same order, the same signers. -/
theorem Spend_of_SpendAll {kc : Keychain} {time : UInt64} {utxos : List UTXO}
    {spent : AmountMap} {ins : List TransferableInput} {keys : List Signers}
    (h : SpendAll kc time utxos = .ok (spent, ins, keys))
    (hpos : ∀ u ∈ utxos, (spendTransferable kc time u).isSome → 0 < spendableAmount kc time u) :
    Spend kc time utxos spent = .ok (spent, ins, keys) := by
  unfold SpendAll at h
  obtain ⟨acc, hloop, hres⟩ := bind_eq_ok.mp h
  simp only [Except.ok.injEq, Prod.mk.injEq] at hres
  obtain ⟨rfl, hsort⟩ := hres
  have hsel := selectedBy_foldlM_addInput hloop
  have heq := foldlM_spendStep_eq_addInput utxos ⟨∅, []⟩ hpos fun a => by
    rw [hsel.spent_eq, spendTotal_spendableUTXOs, AmountMap.get_empty]; simp
  have hfind : acc.amountsSpent.entries.find?
      (fun e => decide (acc.amountsSpent.get e.1 < e.2)) = none := by
    refine List.find?_eq_none.mpr fun e he => ?_
    have hl : acc.amountsSpent.lookup e.1 = some e.2 := AList.mem_lookup_iff.mpr he
    simp [AmountMap.get, hl]
  simp only [Spend, heq, hloop, bind, Except.bind, hfind, hsort]

/-- `SpendAll` of `twoTransferUTXOs`, and `Spend` of what it collected. -/
theorem Spend_of_SpendAll_two_transfers :
    ∃ spent ins keys, SpendAll transferKeychain 0 twoTransferUTXOs = .ok (spent, ins, keys) ∧
      (∀ u ∈ twoTransferUTXOs, (spendTransferable transferKeychain 0 u).isSome →
        0 < spendableAmount transferKeychain 0 u) ∧
      Spend transferKeychain 0 twoTransferUTXOs spent = .ok (spent, ins, keys) := by
  have hpos : ∀ u ∈ twoTransferUTXOs, (spendTransferable transferKeychain 0 u).isSome →
      0 < spendableAmount transferKeychain 0 u := by decide
  obtain ⟨spent, h, -⟩ := @SpendAll_of_fits transferKeychain 0 twoTransferUTXOs fun a => by
    by_cases ha : a = 1
    · subst ha; decide
    · simp [spendTotal, twoTransferUTXOs, fiveUTXO, Ne.symm ha]
  exact ⟨spent, _, _, h, hpos, Spend_of_SpendAll h hpos⟩

end AvmCore

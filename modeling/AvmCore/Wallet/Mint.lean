import AvmCore.Wallet.Spend

/-!
# AvmCore — minting

`Mint` scans the UTXOs in order and, for each asset still in the request, mints the requested
amount to one address from the first UTXO holding a secp256k1fx mint output the keychain can
spend; it then deletes the asset from the request. After the scan no positive request may
remain. The operations and their signers are sorted by encoding.

The loop never fails, so it is `List.foldl` of one step. The invariant says, per asset, what
the scan of a prefix has done with it; it is stated through `mintedFrom`, the UTXO the prefix
mints the asset from.

Main results:

* `mint_exact` — `Mint` fails exactly when a requested asset has no mintable UTXO; otherwise
  it returns one operation per requested asset, from its first mintable UTXO, minting the
  requested amount to `toAddr` alone, with its signers at the same index, and none for any other
  asset.
-/

namespace AvmCore

/-- `utxo.Out.(*secp256k1fx.MintOutput)`, `kc.Spend(out, time)` and the assertion
`inIntf.(*secp256k1fx.Input)`: the output, input and signers, or `none` when the loop skips
the UTXO. -/
def spendMintOutput (kc : Keychain) (time : UInt64) (utxo : UTXO) :
    Option (SecpMintOutput × SecpInput × Signers) :=
  match utxo.out with
  | .secpMint out =>
    match kc.spend (.secpMint out) time with
    | .error _ => none
    | .ok (inIntf, signers) => inIntf.secpInput?.map fun input => (out, input, signers)
  | _ => none

/-- The `txs.Operation` the loop appends, minting `amount` to `toAddr` alone, and its signers. -/
def mintOperation (toAddr : ShortID) (amount : UInt64) :
    UTXO × SecpMintOutput × SecpInput × Signers → Operation × Signers
  | (utxo, out, input, signers) =>
    (⟨utxo.asset, [utxo.utxoID], .secpMint input out ⟨amount, ⟨0, 1, [toAddr]⟩⟩⟩, signers)

/-- What the loop of `Mint` updates: the request map, from which it deletes minted assets,
and the parallel slices `ops` and `keys`, kept zipped. -/
structure MintAcc where
  amounts : AmountMap
  ops : List (Operation × Signers)

/-- One iteration of the loop of `VM.Mint`. -/
def mintStep (kc : Keychain) (time : UInt64) (toAddr : ShortID) (acc : MintAcc) (utxo : UTXO) :
    MintAcc :=
  let amount := acc.amounts.get utxo.asset
  if amount = 0 then acc
  else match spendMintOutput kc time utxo with
    | none => acc
    | some x =>
      ⟨acc.amounts.erase utxo.asset, acc.ops ++ [mintOperation toAddr amount (utxo, x)]⟩

/-- Modelled from the spec: `bytes.Compare(a, b) == -1`. -/
def bytesLess : Bytes → Bytes → Bool
  | [], [] => false
  | [], _ :: _ => true
  | _ :: _, [] => false
  | x :: xs, y :: ys => x < y || (x == y && bytesLess xs ys)

/-- Modelled from the spec: the `Less` of `txs.SortOperationsWithSigners`, comparing the
encodings of two operations under the codec; an operation that fails to encode is not less. -/
def operationLess (marshal : Operation → Except Err Bytes) (o o' : Operation) : Bool :=
  match marshal o, marshal o' with
  | .ok b, .ok b' => bytesLess b b'
  | _, _ => false

/-- Modelled from the spec: `txs.SortOperationsWithSigners`, Go's `sort.Sort` of the
operations with their signers by `operationLess`; the model sorts with `mergeSort`. -/
def sortOperationsWithSigners (marshal : Operation → Except Err Bytes)
    (ops : List (Operation × Signers)) : List Operation × List Signers :=
  (ops.mergeSort fun p q => !operationLess marshal q.1 p.1).unzip

/-- `VM.Mint`, with the codec's `Marshal` as `marshal`. `amounts` is the map as passed in. -/
def Mint (marshal : Operation → Except Err Bytes) (kc : Keychain) (time : UInt64)
    (utxos : List UTXO) (amounts : AmountMap) (toAddr : ShortID) :
    Except Err (List Operation × List Signers) :=
  let acc := utxos.foldl (mintStep kc time toAddr) ⟨amounts, []⟩
  if acc.amounts.entries.any (fun e => e.2 > 0) then .error .addressesCantMintAsset
  else .ok (sortOperationsWithSigners marshal acc.ops)

/-! ## The first mintable UTXO -/

/-- The first UTXO of asset `a` in `l` that the loop can mint from, with what spending it
gives. -/
def firstMintable (kc : Keychain) (time : UInt64) (a : ID) (l : List UTXO) :
    Option (UTXO × SecpMintOutput × SecpInput × Signers) :=
  l.findSome? fun u => if u.asset = a then (spendMintOutput kc time u).map (u, ·) else none

/-- The UTXO the scan of `l` mints asset `a` from: its first mintable one, when `a` is
requested. -/
def mintedFrom (kc : Keychain) (time : UInt64) (amounts : AmountMap) (a : ID) (l : List UTXO) :
    Option (UTXO × SecpMintOutput × SecpInput × Signers) :=
  if 0 < amounts.get a then firstMintable kc time a l else none

theorem mintedFrom_append_singleton (kc : Keychain) (time : UInt64) (amounts : AmountMap)
    (a : ID) (l : List UTXO) (u : UTXO) :
    mintedFrom kc time amounts a (l ++ [u]) =
      (mintedFrom kc time amounts a l).or
        (if 0 < amounts.get a ∧ u.asset = a then (spendMintOutput kc time u).map (u, ·)
          else none) := by
  unfold mintedFrom firstMintable
  by_cases ha : 0 < amounts.get a
  · by_cases hu : u.asset = a
    · simp [List.findSome?_append, List.findSome?_cons, ha, hu]
      cases spendMintOutput kc time u <;> rfl
    · simp [List.findSome?_append, List.findSome?_cons, ha, hu]
  · simp [ha]

/-! ## The step, once -/

/-- **Inversion of `mintStep`.** It skips the UTXO, or mints the current request of its asset
and deletes the asset. -/
theorem mintStep_cases (kc : Keychain) (time : UInt64) (toAddr : ShortID) (acc : MintAcc)
    (u : UTXO) :
    (mintStep kc time toAddr acc u = acc ∧
      (acc.amounts.get u.asset = 0 ∨ spendMintOutput kc time u = none)) ∨
    ∃ x, acc.amounts.get u.asset ≠ 0 ∧ spendMintOutput kc time u = some x ∧
      mintStep kc time toAddr acc u = ⟨acc.amounts.erase u.asset,
        acc.ops ++ [mintOperation toAddr (acc.amounts.get u.asset) (u, x)]⟩ := by
  dsimp only [mintStep]
  split
  · exact .inl ⟨rfl, .inl ‹_›⟩
  · split
    · exact .inl ⟨rfl, .inr ‹_›⟩
    · exact .inr ⟨_, ‹_›, ‹_›, rfl⟩

/-- What the loop of `Mint` has done after the prefix `pre`: it has deleted from the request
the assets it minted, and appended one operation for each, from the UTXO `mintedFrom` names,
minting the amount requested. -/
structure MintedBy (kc : Keychain) (time : UInt64) (toAddr : ShortID) (amounts : AmountMap)
    (pre : List UTXO) (acc : MintAcc) : Prop where
  lookup_eq : ∀ a, acc.amounts.lookup a =
    if (mintedFrom kc time amounts a pre).isSome then none else amounts.lookup a
  ops_filter : ∀ a, acc.ops.filter (·.1.asset = a) =
    ((mintedFrom kc time amounts a pre).map (mintOperation toAddr (amounts.get a))).toList

theorem MintedBy.get_eq {kc : Keychain} {time : UInt64} {toAddr : ShortID} {amounts : AmountMap}
    {pre : List UTXO} {acc : MintAcc} (h : MintedBy kc time toAddr amounts pre acc) (a : ID) :
    acc.amounts.get a =
      if (mintedFrom kc time amounts a pre).isSome then 0 else amounts.get a := by
  unfold AmountMap.get; rw [h.lookup_eq]; split <;> rfl

theorem mintedBy_nil (kc : Keychain) (time : UInt64) (toAddr : ShortID) (amounts : AmountMap) :
    MintedBy kc time toAddr amounts [] ⟨amounts, []⟩ where
  lookup_eq a := by simp [mintedFrom, firstMintable]
  ops_filter a := by simp [mintedFrom, firstMintable]

/-- In a step that skips `u`, no asset's `mintedFrom` changes. -/
theorem mintedFrom_skip {kc : Keychain} {time : UInt64} {toAddr : ShortID} {amounts : AmountMap}
    {pre : List UTXO} {acc : MintAcc} {u : UTXO} (h : MintedBy kc time toAddr amounts pre acc)
    (hskip : acc.amounts.get u.asset = 0 ∨ spendMintOutput kc time u = none) (a : ID) :
    mintedFrom kc time amounts a (pre ++ [u]) = mintedFrom kc time amounts a pre := by
  rw [mintedFrom_append_singleton]
  by_cases hua : 0 < amounts.get a ∧ u.asset = a
  · obtain ⟨hpos, rfl⟩ := hua
    rcases hskip with h0 | hnone
    · rw [h.get_eq] at h0
      split at h0
      · rename_i hsome
        obtain ⟨x, hx⟩ := Option.isSome_iff_exists.mp hsome
        simp [hx]
      · exact absurd h0 (uint64_pos_iff_ne_zero.mp hpos)
    · simp [hnone]
  · simp [hua]

/-- In a step that mints from `u`, the asset of `u` was not minted before and is requested in
full, it is now minted from `u`, and no other asset's `mintedFrom` changes. -/
theorem mintedFrom_mint {kc : Keychain} {time : UInt64} {toAddr : ShortID} {amounts : AmountMap}
    {pre : List UTXO} {acc : MintAcc} {u : UTXO} {x : SecpMintOutput × SecpInput × Signers}
    (h : MintedBy kc time toAddr amounts pre acc) (hpos : acc.amounts.get u.asset ≠ 0)
    (hx : spendMintOutput kc time u = some x) :
    mintedFrom kc time amounts u.asset pre = none ∧
      acc.amounts.get u.asset = amounts.get u.asset ∧
      ∀ a, mintedFrom kc time amounts a (pre ++ [u]) =
        if u.asset = a then some (u, x) else mintedFrom kc time amounts a pre := by
  rw [h.get_eq] at hpos ⊢
  split at hpos
  · exact absurd rfl hpos
  · rename_i hnone
    rw [Option.not_isSome_iff_eq_none] at hnone
    refine ⟨hnone, by rw [hnone]; rfl, fun a => ?_⟩
    rw [mintedFrom_append_singleton]
    by_cases hua : u.asset = a
    · subst a; simp [hnone, uint64_pos_iff_ne_zero.mpr hpos, hx]
    · simp [hua]

/-- **Step lemma of `Mint`.** -/
theorem MintedBy.step {kc : Keychain} {time : UInt64} {toAddr : ShortID} {amounts : AmountMap}
    {pre : List UTXO} {acc : MintAcc} (h : MintedBy kc time toAddr amounts pre acc) (u : UTXO) :
    MintedBy kc time toAddr amounts (pre ++ [u]) (mintStep kc time toAddr acc u) := by
  rcases mintStep_cases kc time toAddr acc u with ⟨hacc, hskip⟩ | ⟨x, hpos, hx, hacc⟩
  · rw [hacc]
    exact ⟨fun a => by rw [mintedFrom_skip h hskip, h.lookup_eq],
      fun a => by rw [mintedFrom_skip h hskip, h.ops_filter]⟩
  · obtain ⟨hnone, hamt, hfrom⟩ := mintedFrom_mint h hpos hx
    rw [hacc]
    constructor
    · intro a
      dsimp only
      rw [AmountMap.lookup_erase, hfrom, h.lookup_eq]
      by_cases hua : u.asset = a
      · subst a; simp
      · simp [hua, Ne.symm hua]
    · intro a
      rw [List.filter_append, h.ops_filter, hfrom]
      by_cases hua : u.asset = a
      · subst a; simp [hnone, hamt, mintOperation]
      · simp [hua, mintOperation]

/-- **Run lemma of `Mint`.** -/
theorem mintedBy_foldl (kc : Keychain) (time : UInt64) (toAddr : ShortID) (amounts : AmountMap) :
    ∀ (l pre : List UTXO) (acc : MintAcc), MintedBy kc time toAddr amounts pre acc →
      MintedBy kc time toAddr amounts (pre ++ l) (l.foldl (mintStep kc time toAddr) acc)
  | [], pre, acc, h => by simpa using h
  | u :: l, pre, acc, h => by
    simpa using mintedBy_foldl kc time toAddr amounts l (pre ++ [u]) _ (h.step u)

/-! ## Main result -/

/-- The sort keeps each operation with its signers. -/
theorem sortOperationsWithSigners_zip (marshal : Operation → Except Err Bytes)
    (ops : List (Operation × Signers)) :
    ((sortOperationsWithSigners marshal ops).1.zip (sortOperationsWithSigners marshal ops).2).Perm
        ops ∧
      (sortOperationsWithSigners marshal ops).1.length =
        (sortOperationsWithSigners marshal ops).2.length := by
  refine ⟨?_, by simp [sortOperationsWithSigners]⟩
  rw [sortOperationsWithSigners, List.zip_unzip]
  exact List.mergeSort_perm ops _

/-- A single operation is sorted to itself. -/
@[simp] theorem sortOperationsWithSigners_singleton (marshal : Operation → Except Err Bytes)
    (op : Operation) (signers : Signers) :
    sortOperationsWithSigners marshal [(op, signers)] = ([op], [signers]) := by
  simp [sortOperationsWithSigners, List.mergeSort_singleton]

theorem eq_toList_of_perm {α : Type} {l : List α} {o : Option α} (h : l.Perm o.toList) :
    l = o.toList := by
  cases o with
  | none => exact h.eq_nil
  | some x => exact h.eq_singleton

/-- **`Mint` is exact.** It fails exactly when some requested asset has no UTXO holding a
mint output the keychain can spend; otherwise it returns, index for index with their
signers, one operation for each requested asset and none for any other: the operation spends
the asset's first such UTXO and mints the requested amount to `toAddr` alone, re-emitting the
mint output. -/
theorem mint_exact (marshal : Operation → Except Err Bytes) (kc : Keychain) (time : UInt64)
    (utxos : List UTXO) (amounts : AmountMap) (toAddr : ShortID) :
    (Mint marshal kc time utxos amounts toAddr = .error .addressesCantMintAsset ↔
      ∃ a, 0 < amounts.get a ∧ firstMintable kc time a utxos = none) ∧
    ((∀ a, 0 < amounts.get a → (firstMintable kc time a utxos).isSome) →
      ∃ ops keys, Mint marshal kc time utxos amounts toAddr = .ok (ops, keys) ∧
        ops.length = keys.length ∧
        ∀ a, (ops.zip keys).filter (·.1.asset = a) =
          if 0 < amounts.get a then
            ((firstMintable kc time a utxos).map fun (u, out, input, signers) =>
              (⟨u.asset, [u.utxoID], .secpMint input out ⟨amounts.get a, ⟨0, 1, [toAddr]⟩⟩⟩,
                signers)).toList
          else []) := by
  have hrun := mintedBy_foldl kc time toAddr amounts utxos [] _ (mintedBy_nil kc time toAddr amounts)
  rw [List.nil_append] at hrun
  set acc := utxos.foldl (mintStep kc time toAddr) ⟨amounts, []⟩
  have hleft : (∃ a, 0 < acc.amounts.get a) ↔
      ∃ a, 0 < amounts.get a ∧ firstMintable kc time a utxos = none := by
    refine exists_congr fun a => ?_
    rw [hrun.get_eq, mintedFrom]
    by_cases hpos : 0 < amounts.get a
    · cases firstMintable kc time a utxos <;> simp [hpos]
    · simp [hpos]
  have hMint : Mint marshal kc time utxos amounts toAddr =
      if (acc.amounts.entries.any fun e => decide (e.2 > 0)) = true then
        .error .addressesCantMintAsset
      else .ok (sortOperationsWithSigners marshal acc.ops) := rfl
  refine ⟨?_, fun hall => ?_⟩
  · rw [hMint, ← hleft, ← AmountMap.any_pos_iff]
    split
    · exact iff_of_true rfl ‹_›
    · exact iff_of_false (fun h => by cases h) ‹_›
  · rw [hMint, if_neg (by
      rw [AmountMap.any_pos_iff, hleft]
      exact fun ⟨a, hpos, hnone⟩ => by simpa [hnone] using hall a hpos)]
    obtain ⟨hperm, hlen⟩ := sortOperationsWithSigners_zip marshal acc.ops
    set sorted := sortOperationsWithSigners marshal acc.ops
    refine ⟨sorted.1, sorted.2, rfl, hlen, fun a => ?_⟩
    have hasset := hperm.filter fun p : Operation × Signers => decide (p.1.asset = a)
    rw [hrun.ops_filter] at hasset
    rw [eq_toList_of_perm hasset, mintedFrom]
    split
    · cases firstMintable kc time a utxos <;> rfl
    · rfl


/-- A keychain that spends every secp256k1 mint output with the first signature index. -/
def mintKeychain : Keychain where
  spend out _ := match out with
    | .secpMint _ => .ok (.input ⟨[0]⟩, [])
    | _ => .error .insufficientFunds
  matchOwners _ _ := none

/-- A UTXO holding the mint output of asset 1. -/
def mintUTXO : UTXO := ⟨⟨1, 0⟩, 1, .secpMint ⟨⟨0, 1, [7]⟩⟩⟩

/-- Minting 5 units of asset 1 from `mintUTXO` gives one operation, for asset 1 only; asking
asset 2, which has no mint output, fails. -/
theorem mint_exact_one_asset :
    Mint (fun _ => .ok []) mintKeychain 0 [mintUTXO] ((∅ : AmountMap).insert 2 5) 9 =
      .error .addressesCantMintAsset ∧
    (∀ a, 0 < AmountMap.get ((∅ : AmountMap).insert 1 5) a →
      (firstMintable mintKeychain 0 a [mintUTXO]).isSome) ∧
    ∃ ops keys, Mint (fun _ => .ok []) mintKeychain 0 [mintUTXO] ((∅ : AmountMap).insert 1 5) 9 =
        .ok (ops, keys) ∧ ops.length = keys.length ∧
      ∀ a, (ops.zip keys).filter (·.1.asset = a) =
        if 0 < AmountMap.get ((∅ : AmountMap).insert 1 5) a then
          ((firstMintable mintKeychain 0 a [mintUTXO]).map fun (u, out, input, signers) =>
            (⟨u.asset, [u.utxoID], .secpMint input out
              ⟨AmountMap.get ((∅ : AmountMap).insert 1 5) a, ⟨0, 1, [9]⟩⟩⟩, signers)).toList
        else [] :=
  have hall : ∀ a, 0 < AmountMap.get ((∅ : AmountMap).insert 1 5) a →
      (firstMintable mintKeychain 0 a [mintUTXO]).isSome := fun a ha => by
    by_cases h1 : a = 1
    · subst h1; rfl
    · rw [AmountMap.get_insert, if_neg h1, AmountMap.get_empty] at ha
      exact absurd ha (lt_irrefl 0)
  ⟨(mint_exact (fun _ => .ok []) mintKeychain 0 [mintUTXO] _ 9).1.mpr ⟨2, by decide, rfl⟩, hall,
    (mint_exact (fun _ => .ok []) mintKeychain 0 [mintUTXO] _ 9).2 hall⟩

end AvmCore

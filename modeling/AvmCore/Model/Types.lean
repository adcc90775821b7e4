import Mathlib

/-!
# AvmCore — data model

The values the transaction-processing core of the asset VM (`vms/avm`, the `VM` methods of
`vm.go`) reads and returns: identifiers, transaction statuses, UTXOs and their locators,
the outputs and inputs of the feature extensions, operations, transactions and the error
values of the package.

The Go code dispatches on the dynamic type of interface values (`utxo.Out.(*nftfx.MintOutput)`,
`reflect.TypeOf(cred)`). The model replaces that by closed variants (`Out`, `In`, `FxOp`)
whose constructors are the concrete types the core tells apart, and by an explicit
`GoType` carried by credentials and operations for the `reflect.Type` lookup of `getFx`.

Machine integers keep their Go width (`UInt32` output indices, `UInt64` amounts, times and
lock times). Identifiers (`ids.ID`, `ids.ShortID`) are numbers: the model needs only their
equality and, for the canonical sort of inputs, the order `bytes.Compare` puts on their
big-endian bytes, which is the order of the number.
-/

namespace AvmCore

/-- `ids.ID`: a 32-byte hash (transaction IDs, asset IDs). -/
abbrev ID := Nat

/-- `ids.ShortID`: a 20-byte address. -/
abbrev ShortID := Nat

/-- A private key of the keychain, `crypto.PrivateKeySECP256K1R`. -/
abbrev PrivateKey := Nat

/-- The keys that must sign one input or operation. -/
abbrev Signers := List PrivateKey

/-- A byte string. -/
abbrev Bytes := List UInt8

/-- `reflect.Type`, named as the Go runtime prints it (`*secp256k1fx.Credential`). -/
abbrev GoType := String

/-! ## Transaction status -/

/-- `choices.Status`: the lifecycle Unknown → Processing → {Accepted, Rejected}. -/
inductive Status
  | unknown
  | processing
  | rejected
  | accepted
  deriving DecidableEq, Repr

/-- `Status.Decided`. -/
def Status.decided : Status → Bool
  | .rejected | .accepted => true
  | _ => false

/-- `Status.Fetched`: processing or decided. -/
def Status.fetched : Status → Bool
  | .unknown => false
  | _ => true

/-! ## UTXOs -/

/-- `djtx.UTXOID`: the transaction that produced an output and the output's index in it. -/
structure UTXOID where
  txID : ID
  outputIndex : UInt32
  deriving DecidableEq, Repr

/-- `UTXOID.InputSource`. -/
def UTXOID.inputSource (u : UTXOID) : ID × UInt32 := (u.txID, u.outputIndex)

/-- Modelled from the spec: `UTXOID.Less`, the canonical input order, by source transaction
and then by output index. -/
def UTXOID.less (a b : UTXOID) : Bool :=
  a.txID < b.txID || (a.txID == b.txID && a.outputIndex < b.outputIndex)

/-- `secp256k1fx.OutputOwners`. -/
structure OutputOwners where
  locktime : UInt64
  threshold : UInt32
  addrs : List ShortID
  deriving DecidableEq, Repr

/-- `secp256k1fx.TransferOutput`. -/
structure SecpTransferOutput where
  amt : UInt64
  owners : OutputOwners
  deriving DecidableEq, Repr

/-- `secp256k1fx.MintOutput`. -/
structure SecpMintOutput where
  owners : OutputOwners
  deriving DecidableEq, Repr

/-- `nftfx.TransferOutput`. -/
structure NftTransferOutput where
  groupID : UInt32
  payload : Bytes
  owners : OutputOwners
  deriving DecidableEq, Repr

/-- `nftfx.MintOutput`. -/
structure NftMintOutput where
  groupID : UInt32
  owners : OutputOwners
  deriving DecidableEq, Repr

/-- The `Out` of a UTXO, by concrete type. `other` stands for the outputs of any other
extension, which the core only hands on to that extension. -/
inductive Out
  | secpTransfer (o : SecpTransferOutput)
  | secpMint (o : SecpMintOutput)
  | nftTransfer (o : NftTransferOutput)
  | nftMint (o : NftMintOutput)
  | other (type : GoType)
  deriving DecidableEq, Repr

/-- `djtx.UTXO`. -/
structure UTXO where
  utxoID : UTXOID
  asset : ID
  out : Out
  deriving DecidableEq, Repr

/-- `djtx.TransferableOutput`. -/
structure TransferableOutput where
  asset : ID
  out : Out
  deriving DecidableEq, Repr

/-! ## Inputs, credentials and operations -/

/-- `secp256k1fx.Input`. -/
structure SecpInput where
  sigIndices : List UInt32
  deriving DecidableEq, Repr

/-- The input a keychain builds to spend an output: `*secp256k1fx.TransferInput`, which is
a `djtx.TransferableIn` with an amount, or a bare `*secp256k1fx.Input`. -/
inductive In
  | transferInput (amt : UInt64) (input : SecpInput)
  | input (input : SecpInput)
  deriving DecidableEq, Repr

/-- The type assertion `inputIntf.(djtx.TransferableIn)`, returning its `Amount()`. -/
def In.amount? : In → Option UInt64
  | .transferInput amt _ => some amt
  | .input _ => none

/-- The type assertion `inIntf.(*secp256k1fx.Input)`. -/
def In.secpInput? : In → Option SecpInput
  | .input i => some i
  | .transferInput _ _ => none

/-- `djtx.TransferableInput`. -/
structure TransferableInput where
  utxoID : UTXOID
  asset : ID
  input : In
  deriving DecidableEq, Repr

/-- A credential, `verify.Verifiable`: its concrete type and its signatures. -/
structure Cred where
  type : GoType
  sigs : List Bytes
  deriving DecidableEq, Repr

/-- The `Op` of an operation, by concrete type. -/
inductive FxOp
  | secpMint (mintInput : SecpInput) (mintOutput : SecpMintOutput)
      (transferOutput : SecpTransferOutput)
  | nftTransfer (input : SecpInput) (output : NftTransferOutput)
  | nftMint (mintInput : SecpInput) (groupID : UInt32) (payload : Bytes)
      (outputs : List OutputOwners)
  | other (type : GoType)
  deriving DecidableEq, Repr

/-- `reflect.TypeOf(op.Op)`. -/
def FxOp.type : FxOp → GoType
  | .secpMint .. => "*secp256k1fx.MintOperation"
  | .nftTransfer .. => "*nftfx.TransferOperation"
  | .nftMint .. => "*nftfx.MintOperation"
  | .other t => t

/-- `txs.Operation`: an extension operation on UTXOs of one asset. -/
structure Operation where
  asset : ID
  utxoIDs : List UTXOID
  op : FxOp
  deriving DecidableEq, Repr

/-! ## Transactions -/

/-- `txs.InitialState`: the outputs an asset starts with under one extension. -/
structure InitialState where
  fxIndex : UInt32
  outs : List Out
  deriving DecidableEq, Repr

/-- `djtx.BaseTx`: the fields every transaction carries. -/
structure BaseTx where
  networkID : UInt32
  blockchainID : ID
  outs : List TransferableOutput
  ins : List TransferableInput
  memo : Bytes
  deriving DecidableEq, Repr

/-- `txs.CreateAssetTx`. Every field is part of the encoding its ID hashes; the core reads
`Outs` (at genesis) and `States`. -/
structure CreateAssetTx where
  base : BaseTx
  name : String
  symbol : String
  denomination : UInt8
  states : List InitialState
  deriving DecidableEq, Repr

/-- `txs.UnsignedTx`. The core looks inside asset creations only; the other kinds
(`BaseTx`, `OperationTx`, `ImportTx`, `ExportTx`) are told apart by `kind`. -/
inductive UnsignedTx
  | createAsset (tx : CreateAssetTx)
  | other (kind : Nat)
  deriving DecidableEq, Repr

/-- `txs.Tx`. Its ID (the hash of its signed bytes) and its UTXOs (`Tx.UTXOs`) are computed
by the `txs` package, outside src/; the model records them with the transaction. -/
structure Tx where
  id : ID
  unsignedTx : UnsignedTx
  utxos : List UTXO
  deriving DecidableEq, Repr

/-! ## Errors -/

/-- The error values of the package and the ones it passes on. `wantToSpend` is the
`fmt.Errorf` of `Spend`; `indexOutOfRange` is the Go runtime panic of a slice index out of
bounds; `other` is any error an external collaborator returns. -/
inductive Err
  | incompatibleFx
  | unknownFx
  | genesisAssetMustHaveState
  | bootstrapping
  | insufficientFunds
  | assetIDMismatch
  | missingUTXO
  | invalidUTXO
  | spendOverflow
  | addressesCantMintAsset
  | unknownTx
  | rejectedTx
  | unknownState
  | wantToSpend (amount : UInt64) (asset : ID) (spent : UInt64)
  | indexOutOfRange
  | other (msg : String)
  deriving DecidableEq, Repr

/-! ## Go primitives -/

/-- Modelled from the spec: `safemath.Add64`, the sum, or `none` when it exceeds
`math.MaxUint64`. -/
def add64 (a b : UInt64) : Option UInt64 :=
  if a.toNat + b.toNat < UInt64.size then some (a + b) else none

theorem uint64_toNat_add (a b : UInt64) : (a + b).toNat = (a.toNat + b.toNat) % UInt64.size :=
  rfl

theorem add64_eq_some {a b s : UInt64} :
    add64 a b = some s ↔ a.toNat + b.toNat < UInt64.size ∧ s.toNat = a.toNat + b.toNat := by
  unfold add64
  split
  · rename_i h
    simp only [Option.some.injEq, h, true_and]
    constructor
    · rintro rfl; simp [uint64_toNat_add, Nat.mod_eq_of_lt h]
    · intro hs; apply UInt64.toNat.inj; simp [uint64_toNat_add, Nat.mod_eq_of_lt h, hs]
  · simp_all

theorem add64_eq_none {a b : UInt64} : add64 a b = none ↔ UInt64.size ≤ a.toNat + b.toNat := by
  unfold add64; split <;> simp_all

theorem uint64_pos_iff_ne_zero {x : UInt64} : 0 < x ↔ x ≠ 0 := by
  show 0 < x.toNat ↔ _
  rw [Nat.pos_iff_ne_zero]
  exact not_congr ⟨fun h => @UInt64.toNat.inj x 0 h, fun h => h ▸ rfl⟩

/-- `int(x)` on a 64-bit platform. -/
def goInt (n : Nat) : Int := if n < 2 ^ 63 then n else (n : Int) - 2 ^ 64

/-- The slice index `xs[i]`, which panics when `i` is out of range. -/
def goIndex {α : Type} (xs : List α) : Int → Except Err α
  | .ofNat n => match xs[n]? with
    | some a => .ok a
    | none => .error .indexOutOfRange
  | .negSucc _ => .error .indexOutOfRange

/-- A Go `map[ids.ID]uint64`. Its iteration order is the order of `entries`; Go leaves
that order unspecified, so a result proved for every list covers every iteration. -/
abbrev AmountMap := AList (fun _ : ID => UInt64)

/-- The map read `m[k]`, the zero value when `k` is absent. -/
def AmountMap.get (m : AmountMap) (k : ID) : UInt64 := (m.lookup k).getD 0

@[simp] theorem AmountMap.get_empty (k : ID) : AmountMap.get ∅ k = 0 := rfl

theorem AmountMap.lookup_insert (m : AmountMap) (k k' : ID) (v : UInt64) :
    (m.insert k v).lookup k' = if k' = k then some v else m.lookup k' := by
  split
  · subst k'; exact AList.lookup_insert m
  · exact AList.lookup_insert_ne ‹_›

theorem AmountMap.get_insert (m : AmountMap) (k k' : ID) (v : UInt64) :
    AmountMap.get (m.insert k v) k' = if k' = k then v else m.get k' := by
  unfold AmountMap.get; rw [AmountMap.lookup_insert]; split <;> rfl

/-- Two maps agree at `k` when they have an entry for it together and read the same there. -/
theorem AmountMap.lookup_eq_of_get_eq {m m' : AmountMap} {k : ID}
    (hnone : m.lookup k = none ↔ m'.lookup k = none) (hget : m.get k = m'.get k) :
    m.lookup k = m'.lookup k := by
  unfold AmountMap.get at hget
  cases h : m.lookup k <;> cases h' : m'.lookup k <;> simp_all

/-- A map has a positive entry exactly when it reads positive at some key. -/
theorem AmountMap.any_pos_iff (m : AmountMap) :
    (m.entries.any fun e => decide (e.2 > 0)) = true ↔ ∃ k, 0 < m.get k := by
  simp only [List.any_eq_true, decide_eq_true_eq]
  constructor
  · rintro ⟨⟨k, v⟩, hmem, hv⟩
    have hl : m.lookup k = some v := AList.mem_lookup_iff.mpr hmem
    exact ⟨k, by simpa [AmountMap.get, hl] using hv⟩
  · rintro ⟨k, hk⟩
    cases hl : m.lookup k with
    | none => simp [AmountMap.get, hl] at hk
    | some v => exact ⟨⟨k, v⟩, AList.mem_lookup_iff.mp hl, by simpa [AmountMap.get, hl] using hk⟩

theorem AmountMap.lookup_erase (m : AmountMap) (k k' : ID) :
    (m.erase k).lookup k' = if k' = k then none else m.lookup k' := by
  split
  · subst k'; exact AList.lookup_erase k m
  · exact AList.lookup_erase_ne ‹_›

/-! ## Loops in the `Except` monad

A Go `for` loop whose body can return an error is `List.foldlM` of its body in `Except`. These
are the run lemmas every loop of the model uses, each proved once by induction on the list. -/

/-- A sequenced computation succeeds when its first part does and the rest, on its value. -/
theorem bind_eq_ok {α β ε : Type} {x : Except ε α} {f : α → Except ε β} {b : β} :
    x >>= f = .ok b ↔ ∃ a, x = .ok a ∧ f a = .ok b := by
  cases x <;> simp [bind, Except.bind]

/-- A `for` loop whose body can only fail succeeds exactly when every pass does. -/
theorem forM_eq_ok {α ε : Type} (f : α → Except ε Unit) :
    ∀ l : List α, l.forM f = .ok () ↔ ∀ a ∈ l, f a = .ok ()
  | [] => by simp [List.forM, pure, Except.pure]
  | a :: l => by
    rw [List.forM, bind_eq_ok, List.forall_mem_cons, ← forM_eq_ok f l]
    constructor
    · rintro ⟨⟨⟩, ha, hl⟩; exact ⟨ha, hl⟩
    · rintro ⟨ha, hl⟩; exact ⟨(), ha, hl⟩

/-- A run of `foldlM` in `Except` keeps every property that each successful step keeps, over
the prefix processed so far. -/
theorem foldlM_ok_induction {α β ε : Type} {f : β → α → Except ε β}
    (I : List α → β → Prop)
    (hstep : ∀ pre a b b', I pre b → f b a = .ok b' → I (pre ++ [a]) b') :
    ∀ (l pre : List α) (b b' : β), I pre b → l.foldlM f b = .ok b' → I (pre ++ l) b'
  | [], pre, b, b', hI, h => by cases h; simpa using hI
  | a :: l, pre, b, b', hI, h => by
    rw [List.foldlM_cons] at h
    cases hf : f b a with
    | error e => rw [hf] at h; cases h
    | ok b1 =>
      rw [hf] at h
      simpa using foldlM_ok_induction I hstep l (pre ++ [a]) b1 b' (hstep pre a b b1 hI hf) h

/-- A loop succeeds when every pass, from a state the invariant admits after the elements
before it, succeeds and keeps the invariant: the converse of `foldlM_ok_induction`. -/
theorem foldlM_ok_of_step {α β ε : Type} {f : β → α → Except ε β} (I : List α → β → Prop)
    {l : List α} (hstep : ∀ pre a post b, l = pre ++ a :: post → I pre b →
      ∃ b', f b a = .ok b' ∧ I (pre ++ [a]) b') :
    ∀ (post pre : List α) (b : β), l = pre ++ post → I pre b → ∃ b', post.foldlM f b = .ok b'
  | [], _, b, _, _ => ⟨b, rfl⟩
  | a :: post, pre, b, hl, hI => by
    obtain ⟨b₁, hf, hI₁⟩ := hstep pre a post b hl hI
    rw [List.foldlM_cons, hf]
    exact foldlM_ok_of_step I hstep post (pre ++ [a]) b₁ (by simp [hl]) hI₁

/-- A run of `foldlM` in `Except` that fails, fails at one step, after a prefix that
succeeded. -/
theorem foldlM_eq_error {α β ε : Type} {f : β → α → Except ε β} :
    ∀ {l : List α} {b : β} {e : ε}, l.foldlM f b = .error e →
      ∃ pre a post b', l = pre ++ a :: post ∧ pre.foldlM f b = .ok b' ∧ f b' a = .error e
  | [], _, _, h => by cases h
  | a :: l, b, e, h => by
    rw [List.foldlM_cons] at h
    cases hf : f b a with
    | error e' => rw [hf] at h; cases h; exact ⟨[], a, l, b, rfl, rfl, hf⟩
    | ok b1 =>
      rw [hf] at h
      obtain ⟨pre, a', post, b', rfl, hpre, ha'⟩ := foldlM_eq_error h
      exact ⟨a :: pre, a', post, b', rfl, by rw [List.foldlM_cons, hf]; exact hpre, ha'⟩

/-- A property that every step over an element of `l` keeps holds after the run. -/
theorem foldlM_ok_preserves {α β ε : Type} {f : β → α → Except ε β} (P : β → Prop) :
    ∀ (l : List α), (∀ a ∈ l, ∀ b b', P b → f b a = .ok b' → P b') →
      ∀ b b', P b → l.foldlM f b = .ok b' → P b'
  | [], _, b, b', hP, h => by cases h; exact hP
  | a :: l, hstep, b, b', hP, h => by
    rw [List.foldlM_cons] at h
    cases hf : f b a with
    | error e => rw [hf] at h; cases h
    | ok b1 =>
      rw [hf] at h
      exact foldlM_ok_preserves P l (fun a' ha' => hstep a' (.tail _ ha')) b1 b'
        (hstep a (.head _) b b1 hP hf) h

/-- **Simulation of one run by another.** When every successful step of the first loop is
matched by a successful step of the second that keeps `R`, a successful first run is matched
by a successful second run. -/
theorem foldlM_ok_sim {α β γ ε : Type} {f : β → α → Except ε β} {g : γ → α → Except ε γ}
    (R : β → γ → Prop) (hstep : ∀ a b b' c, R b c → f b a = .ok b' → ∃ c', g c a = .ok c' ∧ R b' c') :
    ∀ (l : List α) (b b' : β) (c : γ), R b c → l.foldlM f b = .ok b' →
      ∃ c', l.foldlM g c = .ok c' ∧ R b' c'
  | [], b, b', c, hR, h => by cases h; exact ⟨c, rfl, hR⟩
  | a :: l, b, b', c, hR, h => by
    rw [List.foldlM_cons] at h
    cases hf : f b a with
    | error e => rw [hf] at h; cases h
    | ok b1 =>
      rw [hf] at h
      obtain ⟨c1, hc1, hR1⟩ := hstep a b b1 c hR hf
      obtain ⟨c', hc', hR'⟩ := foldlM_ok_sim R hstep l b1 b' c1 hR1 h
      exact ⟨c', by rw [List.foldlM_cons, hc1]; exact hc', hR'⟩

end AvmCore

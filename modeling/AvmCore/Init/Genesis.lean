import AvmCore.Model.Ledger

/-!
# AvmCore — genesis

`VM.Initialize` calls `initGenesis` on every start of the VM. The genesis is decoded, and each
of its assets is turned into a transaction, aliased, and, the first time only, written to the
state with its UTXOs by `initState`; the fee asset is the first genesis asset, the chain's
DJTX asset when there is none. Whether the state was already initialized is a flag the state
keeps, so a restart, which starts with a fresh aliaser, must run through the same genesis
over whatever the state has become since, without writing to it.

The parser's transaction and UTXO IDs are hashes; the facts the first run relies on are the
fields of `GenesisParser.HashedIDs`, the collision resistance of those hashes.

Main results:

* `initGenesisStep_eq_ok` — what one pass of the loop does;
* `Restarted.step` — a pass of a restart keeps pace with the same pass of the first run;
* `initState_storesAccepted` — `initState` stores its transaction and keeps those stored before;
* `initGenesis_restart` — after a successful first run, a restart over any later state
  succeeds, writes nothing and picks the same fee asset; the first run over an uninitialized
  state stores every genesis transaction, accepted, with its UTXOs.
-/

namespace AvmCore

/-! ## The model -/

/-- Modelled from the spec: `GenesisAsset`, an asset creation of the genesis with its alias:
the alias and the embedded `txs.CreateAssetTx`. -/
structure GenesisAsset where
  assetAlias : String
  body : CreateAssetTx
  deriving DecidableEq, Repr

/-- `genesisTx.Outs`, the outputs of the embedded base transaction. -/
def GenesisAsset.outs (a : GenesisAsset) : List TransferableOutput := a.body.base.outs

/-- The initial states of the asset. -/
def GenesisAsset.states (a : GenesisAsset) : List InitialState := a.body.states

/-- The unsigned transaction `&genesisTx.CreateAssetTx`. -/
def GenesisAsset.createAssetTx (a : GenesisAsset) : UnsignedTx := .createAsset a.body

/-- Modelled from the spec: what `initGenesis` uses of `txs.Parser`: the genesis codec's
`Unmarshal` of a `Genesis` (its `Txs`), and `InitializeGenesisTx`, which encodes an unsigned
transaction and computes its ID and UTXOs. -/
structure GenesisParser where
  unmarshal : Bytes → Except Err (List GenesisAsset)
  initializeGenesisTx : UnsignedTx → Except Err Tx

/-- What `initGenesis` reads and writes of the VM: the state with its initialized flag, the
aliaser's map from alias to ID, and `feeAssetID`. -/
structure GenesisVM where
  state : Ledger
  initialized : Bool
  aliases : List (String × ID)
  feeAssetID : ID

/-- Modelled from the spec: `ids.Aliaser.Alias`, which refuses an alias already mapped. -/
def Alias (aliases : List (String × ID)) (id : ID) (aliasName : String) :
    Except Err (List (String × ID)) :=
  match aliases.lookup aliasName with
  | some _ => .error (.other (aliasName ++ " is already used as an alias for an ID"))
  | none => .ok ((aliasName, id) :: aliases)

/-- `VM.initState`: store the transaction and its status, accepted, then each of its UTXOs
under its input ID. -/
def initState (l : Ledger) (tx : Tx) : Ledger :=
  tx.utxos.foldl (fun l utxo => l.putUTXO utxo.utxoID utxo)
    ((l.putTx tx.id tx).putStatus tx.id .accepted)

/-- One pass of the loop of `VM.initGenesis`, over the genesis asset at `index`. -/
def initGenesisStep (p : GenesisParser) (stateInitialized : Bool) (vm : GenesisVM)
    (index : Nat) (genesisTx : GenesisAsset) : Except Err GenesisVM :=
  if genesisTx.outs.length ≠ 0 then .error .genesisAssetMustHaveState
  else do
    let tx ← p.initializeGenesisTx genesisTx.createAssetTx
    let aliases ← Alias vm.aliases tx.id genesisTx.assetAlias
    .ok { vm with
      aliases := aliases
      state := if stateInitialized then vm.state else initState vm.state tx
      feeAssetID := if index = 0 then tx.id else vm.feeAssetID }

/-- `VM.initGenesis`, with `ctx.DJTXAssetID` as `djtxAssetID`. An error aborts
`VM.Initialize`, so the model returns the error alone. -/
def initGenesis (p : GenesisParser) (djtxAssetID : ID) (vm : GenesisVM) (genesisBytes : Bytes) :
    Except Err GenesisVM := do
  let genesis ← p.unmarshal genesisBytes
  let stateInitialized := vm.initialized
  let vm ← genesis.enum.foldlM (fun vm e => initGenesisStep p stateInitialized vm e.1 e.2)
    { vm with feeAssetID := djtxAssetID }
  .ok (if stateInitialized then vm else { vm with initialized := true })

/-! ## One pass of the loop -/

theorem Alias_eq_ok {aliases aliases' : List (String × ID)} {id : ID} {aliasName : String} :
    Alias aliases id aliasName = .ok aliases' ↔
      aliases.lookup aliasName = none ∧ aliases' = (aliasName, id) :: aliases := by
  unfold Alias
  cases aliases.lookup aliasName with
  | some _ => simp
  | none => simp [eq_comm]

/-- **One pass.** It succeeds exactly when the asset has no outputs, the parser makes its
transaction, and the alias is new; it then maps the alias to the transaction, stores the
transaction the first time, and takes it as fee asset at index 0. -/
theorem initGenesisStep_eq_ok {p : GenesisParser} {si : Bool} {vm vm' : GenesisVM}
    {index : Nat} {a : GenesisAsset} :
    initGenesisStep p si vm index a = .ok vm' ↔
      a.outs = [] ∧ ∃ tx, p.initializeGenesisTx a.createAssetTx = .ok tx ∧
        vm.aliases.lookup a.assetAlias = none ∧
        vm' = { vm with
          aliases := (a.assetAlias, tx.id) :: vm.aliases
          state := if si then vm.state else initState vm.state tx
          feeAssetID := if index = 0 then tx.id else vm.feeAssetID } := by
  unfold initGenesisStep
  by_cases ho : a.outs = []
  · simp [ho, bind_eq_ok, Alias_eq_ok, and_assoc, @eq_comm _ vm']
  · simp [ho]

theorem initGenesisStep_initialized {p : GenesisParser} {si : Bool} {vm vm' : GenesisVM}
    {index : Nat} {a : GenesisAsset} (h : initGenesisStep p si vm index a = .ok vm') :
    vm'.initialized = vm.initialized := by
  obtain ⟨-, tx, -, -, rfl⟩ := initGenesisStep_eq_ok.mp h
  rfl

/-- `initGenesis` succeeds when the genesis decodes and the loop runs through it. -/
theorem initGenesis_eq_ok {p : GenesisParser} {djtxAssetID : ID} {vm vm₁ : GenesisVM}
    {g : Bytes} :
    initGenesis p djtxAssetID vm g = .ok vm₁ ↔
      ∃ genesis, p.unmarshal g = .ok genesis ∧ ∃ b,
        genesis.enum.foldlM (fun v e => initGenesisStep p vm.initialized v e.1 e.2)
          { vm with feeAssetID := djtxAssetID } = .ok b ∧
        vm₁ = if vm.initialized then b else { b with initialized := true } := by
  simp only [initGenesis, bind_eq_ok, Except.ok.injEq, @eq_comm _ _ vm₁]

/-! ## What `initState` stores -/

/-- Transaction `tx` is in the ledger: stored, accepted, and each of its UTXOs stored under
its ID. -/
structure Ledger.StoresAccepted (l : Ledger) (tx : Tx) : Prop where
  txs_eq : l.txs tx.id = some tx
  status_eq : l.status tx.id = .accepted
  utxos_eq : ∀ u ∈ tx.utxos, l.utxos u.utxoID = some u

/-- Two transactions whose writes agree: a shared ID means the same transaction, a shared
UTXO ID the same UTXO. -/
structure Compatible (tx tx' : Tx) : Prop where
  tx_eq : tx.id = tx'.id → tx = tx'
  utxo_eq : ∀ u ∈ tx.utxos, ∀ u' ∈ tx'.utxos, u.utxoID = u'.utxoID → u = u'

@[simp] theorem foldl_putUTXO_txs (us : List UTXO) (l : Ledger) :
    (us.foldl (fun l utxo => l.putUTXO utxo.utxoID utxo) l).txs = l.txs := by
  induction us generalizing l <;> simp [*]

@[simp] theorem foldl_putUTXO_status (us : List UTXO) (l : Ledger) (k : ID) :
    (us.foldl (fun l utxo => l.putUTXO utxo.utxoID utxo) l).status k = l.status k := by
  induction us generalizing l <;> simp [*]

/-- Writing the UTXOs `us` leaves `u` under its ID when it was there before or is written,
and no other UTXO of `us` has its ID. -/
theorem foldl_putUTXO_eq {u : UTXO} : ∀ (us : List UTXO) (l : Ledger),
    (l.utxos u.utxoID = some u ∨ u ∈ us) → (∀ v ∈ us, v.utxoID = u.utxoID → v = u) →
      (us.foldl (fun l utxo => l.putUTXO utxo.utxoID utxo) l).utxos u.utxoID = some u
  | [], _, hu, _ => by simpa using hu
  | v :: us, l, hu, h => by
    refine foldl_putUTXO_eq us _ ?_ fun w hw => h w (.tail _ hw)
    by_cases hv : v.utxoID = u.utxoID
    · obtain rfl := h v (.head _) hv
      simp
    · refine hu.imp (fun hl => by simp [Ne.symm hv, hl]) fun hm => ?_
      rcases List.mem_cons.mp hm with rfl | hm
      · exact absurd rfl hv
      · exact hm

/-- **`initState` keeps what was stored.** It stores `tx₀`, and keeps stored every
transaction whose writes agree with those of `tx₀`. -/
theorem initState_storesAccepted {l : Ledger} {tx tx₀ : Tx} (h : Compatible tx tx₀)
    (hs : tx = tx₀ ∨ l.StoresAccepted tx) : (initState l tx₀).StoresAccepted tx where
  txs_eq := by
    by_cases hid : tx.id = tx₀.id
    · simp [initState, hid, h.tx_eq hid]
    · simp [initState, hid, (hs.resolve_left fun he => hid (he ▸ rfl)).txs_eq]
  status_eq := by
    by_cases hid : tx.id = tx₀.id
    · simp [initState, hid]
    · simp [initState, hid, (hs.resolve_left fun he => hid (he ▸ rfl)).status_eq]
  utxos_eq u hu := by
    refine foldl_putUTXO_eq _ _ ?_ fun v hv hid => (h.utxo_eq u hu v hv hid.symm).symm
    rcases hs with rfl | hs
    · exact .inr hu
    · exact .inl (by simpa using hs.utxos_eq u hu)

/-- The collision resistance of the IDs the parser computes, as `initGenesis` relies on it: a
transaction's ID is the hash of the transaction, a UTXO's ID names its transaction, and the
UTXOs of one transaction have distinct IDs, their output indices. -/
structure GenesisParser.HashedIDs (p : GenesisParser) : Prop where
  tx_eq_of_id_eq : ∀ {u u' : UnsignedTx} {tx tx' : Tx}, p.initializeGenesisTx u = .ok tx →
    p.initializeGenesisTx u' = .ok tx' → tx.id = tx'.id → tx = tx'
  utxo_txID : ∀ {u : UnsignedTx} {tx : Tx}, p.initializeGenesisTx u = .ok tx →
    ∀ x ∈ tx.utxos, x.utxoID.txID = tx.id
  utxo_eq_of_utxoID_eq : ∀ {u : UnsignedTx} {tx : Tx}, p.initializeGenesisTx u = .ok tx →
    ∀ x ∈ tx.utxos, ∀ y ∈ tx.utxos, x.utxoID = y.utxoID → x = y

/-- Under hashed IDs, any two genesis transactions write compatibly. -/
theorem GenesisParser.HashedIDs.compatible {p : GenesisParser} (hp : p.HashedIDs)
    {u u' : UnsignedTx} {tx tx' : Tx} (h : p.initializeGenesisTx u = .ok tx)
    (h' : p.initializeGenesisTx u' = .ok tx') : Compatible tx tx' where
  tx_eq := hp.tx_eq_of_id_eq h h'
  utxo_eq x hx y hy hxy := by
    obtain rfl : tx = tx' := hp.tx_eq_of_id_eq h h' (by
      rw [← hp.utxo_txID h x hx, hxy, hp.utxo_txID h' y hy])
    exact hp.utxo_eq_of_utxoID_eq h x hx y hy hxy

/-! ## Whole runs -/

/-- **The first run stores the genesis.** Over an uninitialized state, the loop leaves every
genesis transaction it made stored, accepted, with its UTXOs. -/
theorem initGenesis_loop_stores {p : GenesisParser} (hp : p.HashedIDs)
    {l : List (Nat × GenesisAsset)} {b b' : GenesisVM}
    (h : l.foldlM (fun v e => initGenesisStep p false v e.1 e.2) b = .ok b') :
    ∀ e ∈ l, ∀ tx, p.initializeGenesisTx e.2.createAssetTx = .ok tx →
      b'.state.StoresAccepted tx := by
  have hstep : ∀ (pre : List (Nat × GenesisAsset)) (e : Nat × GenesisAsset) (v v' : GenesisVM),
      (∀ e' ∈ pre, ∀ tx, p.initializeGenesisTx e'.2.createAssetTx =
        .ok tx → v.state.StoresAccepted tx) →
      initGenesisStep p false v e.1 e.2 = .ok v' →
      ∀ e' ∈ pre ++ [e], ∀ tx, p.initializeGenesisTx e'.2.createAssetTx = .ok tx →
        v'.state.StoresAccepted tx := by
    intro pre e v v' hI hv e' he' tx htx
    obtain ⟨-, tx₀, htx₀, -, rfl⟩ := initGenesisStep_eq_ok.mp hv
    refine initState_storesAccepted (hp.compatible htx htx₀) ?_
    rcases List.mem_append.mp he' with he' | he'
    · exact .inr (hI e' he' tx htx)
    · obtain rfl := List.mem_singleton.mp he'
      exact .inl (Except.ok.inj (htx.symm.trans htx₀))
  simpa using foldlM_ok_induction _ hstep l [] b b' (by simp) h

/-- **Fee asset.** The loop keeps the fee asset it starts with over an empty genesis, and
ends with the first genesis transaction's ID otherwise. -/
theorem initGenesis_loop_fee {p : GenesisParser} {si : Bool} {genesis : List GenesisAsset}
    {b b' : GenesisVM}
    (h : genesis.enum.foldlM (fun v e => initGenesisStep p si v e.1 e.2) b = .ok b') :
    (genesis = [] ∧ b'.feeAssetID = b.feeAssetID) ∨
      ∃ a rest tx, genesis = a :: rest ∧ p.initializeGenesisTx a.createAssetTx = .ok tx ∧
        b'.feeAssetID = tx.id := by
  cases genesis with
  | nil => cases h; exact .inl ⟨rfl, rfl⟩
  | cons a rest =>
    rw [List.enum_cons, List.foldlM_cons, bind_eq_ok] at h
    obtain ⟨b₁, h₁, hrest⟩ := h
    obtain ⟨-, tx, htx, -, rfl⟩ := initGenesisStep_eq_ok.mp h₁
    refine .inr ⟨a, rest, tx, rfl, htx,
      foldlM_ok_preserves (fun v => v.feeAssetID = tx.id) _ ?_ _ _ rfl hrest⟩
    rintro ⟨i, x⟩ hi v v' hv hstep
    obtain ⟨-, tx', -, -, rfl⟩ := initGenesisStep_eq_ok.mp hstep
    have : i ≠ 0 := by have := (List.mem_enumFrom hi).1; omega
    simpa [this] using hv

/-- How a restarted run keeps pace with the first: it runs over the stored state `S` with the
flag set, has the same fee asset so far, and maps no alias the first run had free. -/
structure Restarted (S : Ledger) (vm₁ vm₂ : GenesisVM) : Prop where
  state_eq : vm₂.state = S
  initialized_eq : vm₂.initialized = true
  fee_eq : vm₂.feeAssetID = vm₁.feeAssetID
  aliases_fresh : ∀ k, vm₁.aliases.lookup k = none → vm₂.aliases.lookup k = none

/-- **A restarted pass keeps pace.** Whatever pass the first run makes, the restart makes the
same pass over the same asset, without writing. -/
theorem Restarted.step {S : Ledger} {vm₁ vm₁' vm₂ : GenesisVM} {p : GenesisParser} {si : Bool}
    {index : Nat} {a : GenesisAsset} (h : Restarted S vm₁ vm₂)
    (h₁ : initGenesisStep p si vm₁ index a = .ok vm₁') :
    ∃ vm₂', initGenesisStep p true vm₂ index a = .ok vm₂' ∧ Restarted S vm₁' vm₂' := by
  obtain ⟨ho, tx, htx, hfresh, rfl⟩ := initGenesisStep_eq_ok.mp h₁
  refine ⟨_, initGenesisStep_eq_ok.mpr ⟨ho, tx, htx, h.aliases_fresh _ hfresh, rfl⟩,
    h.state_eq, h.initialized_eq, by simp [h.fee_eq], fun k hk => ?_⟩
  rw [List.lookup_cons] at hk ⊢
  cases hka : k == a.assetAlias
  · simpa only [hka] using h.aliases_fresh k (by simpa only [hka] using hk)
  · simp [hka] at hk

/-! ## Restart -/

/-- **Genesis on restart.** A successful `initGenesis` leaves the state initialized, with the
first genesis transaction as fee asset, the DJTX asset when there is none; over an
uninitialized state and with hashed IDs it stores every genesis transaction, accepted, with
its UTXOs. After it, a restart over any initialized state, with a fresh aliaser, succeeds,
writes nothing and picks the same fee asset: genesis UTXOs spent since are not re-created. -/
theorem initGenesis_restart (p : GenesisParser) (djtxAssetID : ID) (g : Bytes)
    {vm vm₁ : GenesisVM} (h : initGenesis p djtxAssetID vm g = .ok vm₁) :
    vm₁.initialized = true ∧
    (∃ genesis, p.unmarshal g = .ok genesis ∧
      ((genesis = [] ∧ vm₁.feeAssetID = djtxAssetID) ∨
        ∃ a rest tx, genesis = a :: rest ∧ p.initializeGenesisTx a.createAssetTx = .ok tx ∧
          vm₁.feeAssetID = tx.id) ∧
      (vm.initialized = false → p.HashedIDs → ∀ a ∈ genesis, ∀ tx,
        p.initializeGenesisTx a.createAssetTx = .ok tx →
          vm₁.state.txs tx.id = some tx ∧ vm₁.state.status tx.id = .accepted ∧
          ∀ u ∈ tx.utxos, vm₁.state.utxos u.utxoID = some u)) ∧
    ∀ vm' : GenesisVM, vm'.initialized = true → ∃ vm₂,
      initGenesis p djtxAssetID { vm' with aliases := [] } g = .ok vm₂ ∧
      vm₂.state = vm'.state ∧ vm₂.initialized = true ∧ vm₂.feeAssetID = vm₁.feeAssetID := by
  obtain ⟨genesis, hg, b, hloop, rfl⟩ := initGenesis_eq_ok.mp h
  have hfee : (if vm.initialized then b else { b with initialized := true }).feeAssetID =
      b.feeAssetID := by split <;> rfl
  have hstate : (if vm.initialized then b else { b with initialized := true }).state =
      b.state := by split <;> rfl
  refine ⟨?_, ⟨genesis, hg, by rw [hfee]; exact initGenesis_loop_fee hloop, ?_⟩,
    fun vm' hvm' => ?_⟩
  · have hb : b.initialized = vm.initialized :=
      foldlM_ok_preserves (fun v => v.initialized = vm.initialized) _
        (fun _ _ _ _ hv h₁ => (initGenesisStep_initialized h₁).trans hv) _ _ rfl hloop
    cases hsi : vm.initialized <;> simp [hsi, hb]
  · intro hsi hp a ha tx htx
    rw [hsi] at hloop
    rw [← List.enum_map_snd genesis, List.mem_map] at ha
    obtain ⟨e, he, rfl⟩ := ha
    have hs := initGenesis_loop_stores hp hloop e he tx htx
    rw [hstate]
    exact ⟨hs.txs_eq, hs.status_eq, hs.utxos_eq⟩
  · obtain ⟨c, hc, hR⟩ := @foldlM_ok_sim (Nat × GenesisAsset) _ _ _
      (fun v e => initGenesisStep p vm.initialized v e.1 e.2)
      (fun v e => initGenesisStep p true v e.1 e.2) (Restarted vm'.state)
      (fun _ _ _ _ hR h₁ => hR.step h₁) _ { vm with feeAssetID := djtxAssetID } b
      { vm' with aliases := [], feeAssetID := djtxAssetID } ⟨rfl, hvm', rfl, fun _ _ => rfl⟩
      hloop
    refine ⟨c, initGenesis_eq_ok.mpr ⟨genesis, hg, c, by simpa [hvm'] using hc, by simp [hvm']⟩,
      hR.state_eq, hR.initialized_eq, hR.fee_eq.trans hfee.symm⟩

/-- An asset creation with no outputs and no initial state. -/
def djtxAsset : CreateAssetTx := ⟨⟨0, 0, [], [], []⟩, "Djtx", "DJTX", 9, []⟩

/-- A genesis transaction with ID 7 and one UTXO. -/
def oneAssetTx : Tx := ⟨7, .createAsset djtxAsset, [⟨⟨7, 0⟩, 7, .other "*secp256k1fx.MintOutput"⟩]⟩

/-- A parser whose genesis is one asset, aliased `DJTX`, made into `oneAssetTx`. -/
def oneAssetParser : GenesisParser where
  unmarshal _ := .ok [⟨"DJTX", djtxAsset⟩]
  initializeGenesisTx _ := .ok oneAssetTx

/-- A VM on its first start: an empty state, not initialized, and no alias. -/
def firstStartVM : GenesisVM := ⟨⟨fun _ => none, fun _ => none, fun _ => none⟩, false, [], 0⟩

theorem oneAssetParser_hashedIDs : oneAssetParser.HashedIDs where
  tx_eq_of_id_eq h h' _ := by cases h; cases h'; rfl
  utxo_txID h x hx := by cases h; simp [oneAssetTx] at hx; simp [hx, oneAssetTx]
  utxo_eq_of_utxoID_eq h x hx y hy _ := by cases h; simp [oneAssetTx] at hx hy; rw [hx, hy]

theorem initGenesis_restart_one_asset :
    oneAssetParser.HashedIDs ∧
    initGenesis oneAssetParser 1 firstStartVM [] =
      .ok ⟨initState firstStartVM.state oneAssetTx, true, [("DJTX", 7)], 7⟩ ∧
    ((⟨initState firstStartVM.state oneAssetTx, true, [("DJTX", 7)], 7⟩ : GenesisVM).initialized =
        true ∧
      (∃ genesis, oneAssetParser.unmarshal [] = .ok genesis ∧
        ((genesis = [] ∧ (7 : ID) = 1) ∨
          ∃ a rest tx, genesis = a :: rest ∧
            oneAssetParser.initializeGenesisTx a.createAssetTx = .ok tx ∧ (7 : ID) = tx.id) ∧
        (firstStartVM.initialized = false → oneAssetParser.HashedIDs → ∀ a ∈ genesis, ∀ tx,
          oneAssetParser.initializeGenesisTx a.createAssetTx = .ok tx →
            (initState firstStartVM.state oneAssetTx).txs tx.id = some tx ∧
            (initState firstStartVM.state oneAssetTx).status tx.id = .accepted ∧
            ∀ u ∈ tx.utxos, (initState firstStartVM.state oneAssetTx).utxos u.utxoID = some u)) ∧
      ∀ vm' : GenesisVM, vm'.initialized = true → ∃ vm₂,
        initGenesis oneAssetParser 1 { vm' with aliases := [] } [] = .ok vm₂ ∧
        vm₂.state = vm'.state ∧ vm₂.initialized = true ∧ vm₂.feeAssetID = 7) :=
  ⟨oneAssetParser_hashedIDs, rfl, initGenesis_restart oneAssetParser 1 [] rfl⟩

end AvmCore

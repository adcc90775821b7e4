import AvmCore.Init.Genesis
import AvmCore.Verify.FxUsage

/-!
# AvmCore — the genesis assets after `initGenesis`

What a successful `initGenesis` leaves for the rest of the VM: every genesis asset answers to
its alias through `lookupAssetID`, an alias mapped before keeps its ID, and the genesis
aliases were all new and pairwise distinct. This holds on the first start and on every
restart. Distinct free aliases, together with assets without outputs that the parser makes
into transactions, are also all `initGenesis` needs to succeed. On the first start, each
genesis asset also supports exactly the extensions its initial states name, as
`verifyFxUsage` checks on a cache miss.

Main results:

* `initGenesis_aliases` — every genesis alias resolves to its asset, whatever
  `ids.FromString` makes of it;
* `initGenesis_asset_fxs` — the capability check of a genesis asset on a miss accepts exactly
  the extensions of its initial states;
* `initGenesis_accepts` — the genesis bytes `initGenesis` accepts: assets without outputs, each
  made into a transaction by the parser, under distinct aliases that are free.
-/

namespace AvmCore

/-! ## Looking an asset up -/

/-- Modelled from the spec: `ids.Aliaser.Lookup`, the ID an alias maps to. -/
def Lookup (aliases : List (String × ID)) (aliasName : String) : Except Err ID :=
  match aliases.lookup aliasName with
  | some id => .ok id
  | none => .error (.other ("there is no ID with alias " ++ aliasName))

/-- `VM.lookupAssetID`, with `ids.FromString` as `fromString`: the ID `asset` aliases, else
`asset` read as an ID. -/
def lookupAssetID (fromString : String → Except Err ID) (aliases : List (String × ID))
    (asset : String) : Except Err ID :=
  match Lookup aliases asset with
  | .ok assetID => .ok assetID
  | .error _ =>
    match fromString asset with
    | .ok assetID => .ok assetID
    | .error _ => .error (.other ("asset \x27" ++ asset ++ "\x27 not found"))

/-- An alias wins over reading the string as an ID. -/
theorem lookupAssetID_of_lookup {fromString : String → Except Err ID}
    {aliases : List (String × ID)} {k : String} {id : ID} (h : aliases.lookup k = some id) :
    lookupAssetID fromString aliases k = .ok id := by
  simp [lookupAssetID, Lookup, h]

theorem lookup_cons_eq {β : Type} (a k : String) (v : β) (l : List (String × β)) :
    ((a, v) :: l).lookup k = if k = a then some v else l.lookup k := by
  rw [List.lookup_cons]
  cases hb : k == a
  · simp [beq_eq_false_iff_ne.mp hb]
  · simp [beq_iff_eq.mp hb]

/-! ## The aliases of a genesis -/

theorem exists_mem_enum {α : Type} {l : List α} {a : α} (h : a ∈ l) : ∃ i, (i, a) ∈ l.enum := by
  rw [← List.enum_map_snd l, List.mem_map] at h
  obtain ⟨⟨i, a'⟩, he, rfl⟩ := h
  exact ⟨i, he⟩

/-- What the loop of `initGenesis` has done with the aliases after the assets `pre`: their
aliases are pairwise distinct and were free in the first aliaser `A`, each maps to its
asset's transaction, and every alias of `A` keeps its ID. -/
structure AliasedGenesis (p : GenesisParser) (A : List (String × ID))
    (pre : List (Nat × GenesisAsset)) (vm : GenesisVM) : Prop where
  nodup : (pre.map (·.2.assetAlias)).Nodup
  fresh : ∀ e ∈ pre, A.lookup e.2.assetAlias = none
  mapped : ∀ e ∈ pre, ∃ tx, p.initializeGenesisTx e.2.createAssetTx = .ok tx ∧
    vm.aliases.lookup e.2.assetAlias = some tx.id
  kept : ∀ k id, A.lookup k = some id → vm.aliases.lookup k = some id

theorem AliasedGenesis.step {p : GenesisParser} {A : List (String × ID)}
    {pre : List (Nat × GenesisAsset)} {vm vm' : GenesisVM} {si : Bool} {e : Nat × GenesisAsset}
    (h : AliasedGenesis p A pre vm) (hs : initGenesisStep p si vm e.1 e.2 = .ok vm') :
    AliasedGenesis p A (pre ++ [e]) vm' := by
  obtain ⟨-, tx, htx, hfree, rfl⟩ := initGenesisStep_eq_ok.mp hs
  have hne : ∀ k, vm.aliases.lookup k ≠ none → k ≠ e.2.assetAlias := by
    rintro k hk rfl; exact hk hfree
  refine ⟨?_, ?_, ?_, ?_⟩
  · rw [List.map_append, List.nodup_append]
    refine ⟨h.nodup, List.nodup_singleton _, fun k hk hk' => ?_⟩
    obtain ⟨e', he', rfl⟩ := List.mem_map.mp hk
    obtain ⟨tx', -, hl⟩ := h.mapped e' he'
    simp only [List.map_cons, List.map_nil, List.mem_singleton] at hk'
    exact hne _ (by simp [hl]) hk'
  · intro e' he'
    rcases List.mem_append.mp he' with he' | he'
    · exact h.fresh e' he'
    · rw [List.mem_singleton.mp he']
      cases hA : A.lookup e.2.assetAlias with
      | none => rfl
      | some id => exact absurd (h.kept _ id hA) (by simp [hfree])
  · intro e' he'
    rcases List.mem_append.mp he' with he' | he'
    · obtain ⟨tx', htx', hl⟩ := h.mapped e' he'
      exact ⟨tx', htx', by rw [lookup_cons_eq, if_neg (hne _ (by simp [hl])), hl]⟩
    · rw [List.mem_singleton.mp he']
      exact ⟨tx, htx, by simp [lookup_cons_eq]⟩
  · intro k id hk
    have hl := h.kept k id hk
    rw [lookup_cons_eq, if_neg (hne _ (by simp [hl])), hl]

/-- `AliasedGenesis` reads the aliaser of the VM only. -/
theorem AliasedGenesis.of_aliases_eq {p : GenesisParser} {A : List (String × ID)}
    {pre : List (Nat × GenesisAsset)} {vm vm' : GenesisVM} (h : AliasedGenesis p A pre vm)
    (he : vm'.aliases = vm.aliases) : AliasedGenesis p A pre vm' :=
  ⟨h.nodup, h.fresh, by simpa only [he] using h.mapped, by simpa only [he] using h.kept⟩

/-- The aliases of the enumerated genesis are the aliases of the genesis. -/
theorem enum_map_assetAlias (genesis : List GenesisAsset) :
    genesis.enum.map (·.2.assetAlias) = genesis.map GenesisAsset.assetAlias :=
  calc genesis.enum.map (·.2.assetAlias)
      = (genesis.enum.map Prod.snd).map GenesisAsset.assetAlias := by rw [List.map_map]; rfl
    _ = genesis.map GenesisAsset.assetAlias := by rw [List.enum_map_snd]

/-- At the end of a successful `initGenesis`, no genesis asset had outputs, and the aliases
are as `AliasedGenesis` says over the whole genesis. -/
theorem initGenesis_loop_aliased {p : GenesisParser} {djtxAssetID : ID} {vm vm₁ : GenesisVM}
    {g : Bytes} (h : initGenesis p djtxAssetID vm g = .ok vm₁) :
    ∃ genesis, p.unmarshal g = .ok genesis ∧ (∀ a ∈ genesis, a.outs = []) ∧
      AliasedGenesis p vm.aliases genesis.enum vm₁ := by
  obtain ⟨genesis, hg, b, hloop, rfl⟩ := initGenesis_eq_ok.mp h
  have hstep : ∀ pre e (v v' : GenesisVM),
      AliasedGenesis p vm.aliases pre v ∧ (∀ e' ∈ pre, e'.2.outs = []) →
      initGenesisStep p vm.initialized v e.1 e.2 = .ok v' →
      AliasedGenesis p vm.aliases (pre ++ [e]) v' ∧ ∀ e' ∈ pre ++ [e], e'.2.outs = [] := by
    intro pre e v v' hI hs
    refine ⟨hI.1.step hs, fun e' he' => ?_⟩
    rcases List.mem_append.mp he' with he' | he'
    · exact hI.2 e' he'
    · exact List.mem_singleton.mp he' ▸ (initGenesisStep_eq_ok.mp hs).1
  have hinv := @foldlM_ok_induction _ _ _ (fun v e => initGenesisStep p vm.initialized v e.1 e.2)
    _ hstep genesis.enum [] { vm with feeAssetID := djtxAssetID } b
    ⟨⟨List.nodup_nil, by simp, by simp, fun _ _ h => h⟩, by simp⟩ hloop
  rw [List.nil_append] at hinv
  refine ⟨genesis, hg, fun a ha => ?_, hinv.1.of_aliases_eq (by split <;> rfl)⟩
  obtain ⟨i, he⟩ := exists_mem_enum ha
  exact hinv.2 _ he

/-- **Genesis aliases.** After a successful `initGenesis`, on a first start or a restart, the
genesis aliases are pairwise distinct and were free before; `lookupAssetID` resolves each
to its asset's transaction ID, whatever `ids.FromString` makes of the alias; and every alias
mapped before resolves to the same ID as before. -/
theorem initGenesis_aliases {p : GenesisParser} {djtxAssetID : ID} {vm vm₁ : GenesisVM}
    {g : Bytes} (h : initGenesis p djtxAssetID vm g = .ok vm₁) :
    ∃ genesis, p.unmarshal g = .ok genesis ∧
      (genesis.map GenesisAsset.assetAlias).Nodup ∧
      (∀ a ∈ genesis, vm.aliases.lookup a.assetAlias = none) ∧
      (∀ a ∈ genesis, ∀ tx, p.initializeGenesisTx a.createAssetTx = .ok tx →
        ∀ fromString, lookupAssetID fromString vm₁.aliases a.assetAlias = .ok tx.id) ∧
      ∀ k id, vm.aliases.lookup k = some id →
        ∀ fromString, lookupAssetID fromString vm₁.aliases k = .ok id := by
  obtain ⟨genesis, hg, -, hinv⟩ := initGenesis_loop_aliased h
  refine ⟨genesis, hg, by simpa only [enum_map_assetAlias] using hinv.nodup, fun a ha => ?_,
    fun a ha tx htx fs => ?_, fun k id hk fs => lookupAssetID_of_lookup (hinv.kept k id hk)⟩
  · obtain ⟨i, he⟩ := exists_mem_enum ha
    exact hinv.fresh _ he
  · obtain ⟨i, he⟩ := exists_mem_enum ha
    obtain ⟨tx', htx', hl⟩ := hinv.mapped _ he
    obtain rfl : tx = tx' := Except.ok.inj (htx.symm.trans htx')
    exact lookupAssetID_of_lookup hl

/-- An asset creation that declares extension 0. -/
def mintAsset : CreateAssetTx := ⟨⟨0, 0, [], [], []⟩, "Mint", "MINT", 0, [⟨0, []⟩]⟩

/-- The unsigned transaction of `mintAsset`. -/
def mintAssetTx : UnsignedTx := .createAsset mintAsset

/-- The transaction of `mintAssetTx`, with ID 9 and one UTXO. -/
def mintGenesisTx : Tx := ⟨9, mintAssetTx, [⟨⟨9, 0⟩, 9, .other "*secp256k1fx.MintOutput"⟩]⟩

/-- A parser whose genesis is the asset `MINT`, and which makes only `mintAssetTx` into a
transaction. -/
def mintGenesisParser : GenesisParser where
  unmarshal _ := .ok [⟨"MINT", mintAsset⟩]
  initializeGenesisTx u := if u = mintAssetTx then .ok mintGenesisTx else .error (.other "")

/-- The VM after `initGenesis` of `mintGenesisParser` on a first start. -/
def mintGenesisVM : GenesisVM :=
  ⟨initState firstStartVM.state mintGenesisTx, true, [("MINT", 9)], 9⟩

theorem initGenesis_aliases_mint :
    initGenesis mintGenesisParser 1 firstStartVM [] = .ok mintGenesisVM ∧
    ∃ genesis, mintGenesisParser.unmarshal [] = .ok genesis ∧
      (genesis.map GenesisAsset.assetAlias).Nodup ∧
      (∀ a ∈ genesis, firstStartVM.aliases.lookup a.assetAlias = none) ∧
      (∀ a ∈ genesis, ∀ tx, mintGenesisParser.initializeGenesisTx a.createAssetTx = .ok tx →
        ∀ fromString, lookupAssetID fromString mintGenesisVM.aliases a.assetAlias = .ok tx.id) ∧
      ∀ k id, firstStartVM.aliases.lookup k = some id →
        ∀ fromString, lookupAssetID fromString mintGenesisVM.aliases k = .ok id :=
  ⟨rfl, initGenesis_aliases rfl⟩

/-! ## The capabilities of a genesis asset -/

/-- `InitializeGenesisTx` encodes the transaction `initGenesis` built around the asset's
`CreateAssetTx`, and keeps that unsigned transaction. -/
structure GenesisParser.KeepsUnsignedTx (p : GenesisParser) : Prop where
  unsignedTx_eq : ∀ {u : UnsignedTx} {tx : Tx}, p.initializeGenesisTx u = .ok tx →
    tx.unsignedTx = u

/-- On a first start with hashed IDs, every genesis transaction is stored, accepted, with its
UTXOs. -/
theorem initGenesis_first_stores {p : GenesisParser} {djtxAssetID : ID} {vm vm₁ : GenesisVM}
    {g : Bytes} (h : initGenesis p djtxAssetID vm g = .ok vm₁) (hinit : vm.initialized = false)
    (hp : p.HashedIDs) :
    ∃ genesis, p.unmarshal g = .ok genesis ∧ ∀ a ∈ genesis, ∀ tx,
      p.initializeGenesisTx a.createAssetTx = .ok tx → vm₁.state.StoresAccepted tx := by
  obtain ⟨genesis, hg, b, hloop, rfl⟩ := initGenesis_eq_ok.mp h
  rw [hinit] at hloop ⊢
  refine ⟨genesis, hg, fun a ha tx htx => ?_⟩
  obtain ⟨i, he⟩ := exists_mem_enum ha
  exact initGenesis_loop_stores hp hloop (i, a) he tx htx

/-- **Capabilities of the genesis assets.** After `initGenesis` on a first start, with hashed
IDs and a parser that keeps the asset creation, each genesis asset supports exactly the
extensions its initial states name, and `verifyFxUsage` on a cache that holds nothing for
the asset answers exactly that, for every index a bit set can hold. -/
theorem initGenesis_asset_fxs {p : GenesisParser} {djtxAssetID : ID} {vm vm₁ : GenesisVM}
    {g : Bytes} (h : initGenesis p djtxAssetID vm g = .ok vm₁) (hinit : vm.initialized = false)
    (hp : p.HashedIDs) (hk : p.KeepsUnsignedTx) :
    ∃ genesis, p.unmarshal g = .ok genesis ∧ ∀ a ∈ genesis, ∀ tx,
      p.initializeGenesisTx a.createAssetTx = .ok tx → ∀ fxID,
        supportsFx vm₁.state tx.id fxID = a.states.any (·.fxIndex.toNat == fxID) ∧
        ∀ c : AssetCache, c.entries.lookup tx.id = none → fxID < 64 →
          (verifyFxUsage vm₁.state c fxID tx.id).1 = a.states.any (·.fxIndex.toNat == fxID) := by
  obtain ⟨genesis, hg, hs⟩ := initGenesis_first_stores h hinit hp
  refine ⟨genesis, hg, fun a ha tx htx fxID => ?_⟩
  have hst := hs a ha tx htx
  have hsup : supportsFx vm₁.state tx.id fxID = a.states.any (·.fxIndex.toNat == fxID) :=
    @supportsFx_createAsset _ _ a.body fxID (by simp [hst.status_eq, Status.fetched])
      (by simp [Ledger.unsignedTx?, hst.txs_eq, hk.unsignedTx_eq htx, GenesisAsset.createAssetTx])
  exact ⟨hsup, fun c hc hfx => (verifyFxUsage_miss hc hfx).trans hsup⟩

theorem mintGenesisParser_hashedIDs : mintGenesisParser.HashedIDs where
  tx_eq_of_id_eq {u u' _ _} h h' _ := by
    simp only [mintGenesisParser] at h h'
    split at h <;> split at h' <;> cases h <;> cases h'
    rfl
  utxo_txID {u _} h x hx := by
    simp only [mintGenesisParser] at h
    split at h <;> cases h
    simp [mintGenesisTx] at hx; simp [hx, mintGenesisTx]
  utxo_eq_of_utxoID_eq {u _} h x hx y hy _ := by
    simp only [mintGenesisParser] at h
    split at h <;> cases h
    simp [mintGenesisTx] at hx hy; rw [hx, hy]

theorem mintGenesisParser_keepsUnsignedTx : mintGenesisParser.KeepsUnsignedTx where
  unsignedTx_eq {u _} h := by
    simp only [mintGenesisParser] at h
    split at h
    · cases h; rename_i hu; exact hu.symm
    · cases h

theorem initGenesis_asset_fxs_mint :
    initGenesis mintGenesisParser 1 firstStartVM [] = .ok mintGenesisVM ∧
    firstStartVM.initialized = false ∧ mintGenesisParser.HashedIDs ∧
    mintGenesisParser.KeepsUnsignedTx ∧
    ∃ genesis, mintGenesisParser.unmarshal [] = .ok genesis ∧ ∀ a ∈ genesis, ∀ tx,
      mintGenesisParser.initializeGenesisTx a.createAssetTx = .ok tx → ∀ fxID,
        supportsFx mintGenesisVM.state tx.id fxID = a.states.any (·.fxIndex.toNat == fxID) ∧
        ∀ c : AssetCache, c.entries.lookup tx.id = none → fxID < 64 →
          (verifyFxUsage mintGenesisVM.state c fxID tx.id).1 =
            a.states.any (·.fxIndex.toNat == fxID) :=
  ⟨rfl, rfl, mintGenesisParser_hashedIDs, mintGenesisParser_keepsUnsignedTx,
    @initGenesis_asset_fxs mintGenesisParser 1 firstStartVM mintGenesisVM [] rfl rfl
      mintGenesisParser_hashedIDs mintGenesisParser_keepsUnsignedTx⟩

/-! ## Which genesis `initGenesis` accepts -/

/-- **Accepted genesis.** `initGenesis` succeeds exactly on the genesis bytes that decode to
assets which have no outputs, which the parser makes into transactions, and whose aliases
are pairwise distinct and free in the aliaser it starts with. -/
theorem initGenesis_accepts {p : GenesisParser} {djtxAssetID : ID} {vm : GenesisVM} {g : Bytes} :
    (∃ vm₁, initGenesis p djtxAssetID vm g = .ok vm₁) ↔
      ∃ genesis, p.unmarshal g = .ok genesis ∧
        (∀ a ∈ genesis, a.outs = [] ∧ ∃ tx, p.initializeGenesisTx a.createAssetTx = .ok tx) ∧
        (genesis.map GenesisAsset.assetAlias).Nodup ∧
        ∀ a ∈ genesis, vm.aliases.lookup a.assetAlias = none := by
  constructor
  · rintro ⟨vm₁, h⟩
    obtain ⟨genesis, hg, houts, hinv⟩ := initGenesis_loop_aliased h
    refine ⟨genesis, hg, fun a ha => ?_, by simpa only [enum_map_assetAlias] using hinv.nodup,
      fun a ha => ?_⟩ <;> obtain ⟨i, he⟩ := exists_mem_enum ha
    · exact ⟨houts a ha, (hinv.mapped _ he).imp fun _ h => h.1⟩
    · exact hinv.fresh _ he
  · rintro ⟨genesis, hg, hok, hnd, hfresh⟩
    -- after the assets `pre`, an alias in use is one of theirs or was in use before
    let I : List (Nat × GenesisAsset) → GenesisVM → Prop := fun pre v =>
      ∀ k, v.aliases.lookup k ≠ none → k ∈ pre.map (·.2.assetAlias) ∨ vm.aliases.lookup k ≠ none
    have hstep : ∀ pre e post (v : GenesisVM), genesis.enum = pre ++ e :: post → I pre v →
        ∃ v', initGenesisStep p vm.initialized v e.1 e.2 = .ok v' ∧ I (pre ++ [e]) v' := by
      intro pre e post v hl hI
      have he : e.2 ∈ genesis := List.snd_mem_of_mem_enum (by rw [hl]; simp)
      obtain ⟨houts, tx, htx⟩ := hok _ he
      have hfree : v.aliases.lookup e.2.assetAlias = none := by
        by_contra hne
        rcases hI _ hne with hpre | hA
        · rw [← enum_map_assetAlias, hl, List.map_append, List.map_cons] at hnd
          exact (List.nodup_append.mp hnd).2.2 hpre (List.mem_cons_self _ _)
        · exact hA (hfresh _ he)
      refine ⟨_, initGenesisStep_eq_ok.mpr ⟨houts, tx, htx, hfree, rfl⟩, fun k hk => ?_⟩
      rw [lookup_cons_eq] at hk
      split at hk
      · rename_i hka; exact .inl (by simp [hka])
      · exact (hI k hk).imp_left fun h => by simp [h]
    obtain ⟨b, hb⟩ := @foldlM_ok_of_step _ _ _ (fun v e => initGenesisStep p vm.initialized v e.1 e.2)
      I _ hstep genesis.enum [] { vm with feeAssetID := djtxAssetID } rfl (fun _ hk => .inr hk)
    exact ⟨_, initGenesis_eq_ok.mpr ⟨genesis, hg, b, hb, rfl⟩⟩

end AvmCore

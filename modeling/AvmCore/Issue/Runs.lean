import AvmCore.Issue.Scheduler

/-!
# AvmCore — what every run of the scheduler keeps

The scheduler of `Issue/Scheduler` lets the engine, the timer and the API callers act in any
order. Whatever the order, three things hold along every run.

The ledger only moves forward. The only writer on this path is `parseTx`, which records a
transaction it sees for the first time as Processing and commits at once. So a known
transaction stays known with the same content, no decided status changes, and the database
never holds a write it has not committed. The capability cache, which may only be kept while
the ledger moves forward, stays sound.

Every transaction handed to the engine, in a drained batch or still pending, is known to the
ledger from the moment `IssueTx` accepted it: `verifyWithoutCacheWrites` refuses an Unknown
transaction.

No transaction is accepted before the VM is bootstrapped, and the flag is never reset. It
is set only by `SetState(NormalOp)` once every extension returned from `Bootstrapped`
without error.

Main results:

* `run_ledger_forward` — the database of the last state is a later state of the first;
* `run_engine_txs_known` — every drained or pending transaction is known to the ledger;
* `run_bootstrap_gate` — `IssueTx` accepts nothing until every extension is bootstrapped;
* `IssueTx_twice` — `IssueTx` does not deduplicate: the same bytes issued again pass the same
  checks and enter the batch a second time.
-/

namespace AvmCore

/-! ## The database moves forward -/

/-- `db'` is a later state of the database `db`: the ledger moved forward, no decided status
changed, and no write is left uncommitted if none was. -/
structure DBForward (db db' : VersionDB) : Prop where
  extends_view : db.view.Extends db'.view
  decided_eq : ∀ id, (db.view.status id).decided = true → db'.view.status id = db.view.status id
  committed : db.base = db.view → db'.base = db'.view

theorem DBForward.refl (db : VersionDB) : DBForward db db :=
  ⟨Ledger.Extends.refl _, fun _ _ => rfl, id⟩

theorem DBForward.trans {db₁ db₂ db₃ : VersionDB} (h₁ : DBForward db₁ db₂)
    (h₂ : DBForward db₂ db₃) : DBForward db₁ db₃ where
  extends_view := h₁.extends_view.trans h₂.extends_view
  decided_eq id hd := by
    rw [h₂.decided_eq id (by rwa [h₁.decided_eq id hd]), h₁.decided_eq id hd]
  committed hc := h₂.committed (h₁.committed hc)

/-- Recording a transaction whose status is Unknown moves the database forward. -/
theorem recordProcessing_forward {db : VersionDB} {tx : Tx}
    (hu : db.view.status tx.id = .unknown) : DBForward db (recordProcessing db tx) where
  extends_view id hf := by
    have hne : id ≠ tx.id := by rintro rfl; simp [hu, Status.fetched] at hf
    simp [recordProcessing, VersionDB.commit, VersionDB.update, hne, hf]
  decided_eq id hd := by
    rw [recordProcessing_status, if_neg]
    rintro rfl; simp [hu, Status.decided] at hd
  committed _ := rfl

/-- A parse leaves the database, or records a transaction whose status was Unknown. -/
theorem parseTx_db_cases (p : Parser) (db : VersionDB) (b : Bytes) :
    (parseTx p db b).2 = db ∨
      ∃ tx, db.view.status tx.id = .unknown ∧ (parseTx p db b).2 = recordProcessing db tx := by
  unfold parseTx
  split
  · exact .inl rfl
  · split
    · exact .inl rfl
    · split
      · exact .inr ⟨_, ‹_›, rfl⟩
      · exact .inl rfl

theorem parseTx_forward (p : Parser) (db : VersionDB) (b : Bytes) :
    DBForward db (parseTx p db b).2 := by
  rcases parseTx_db_cases p db b with h | ⟨tx, hu, h⟩
  · rw [h]; exact .refl db
  · rw [h]; exact recordProcessing_forward hu

/-- The database a step leaves: the same, or the one a parse leaves. -/
theorem Step.db_cases {env : Env} {vm vm' : VM} {l : Label} (h : Step env vm l vm') :
    vm'.db = vm.db ∨ ∃ b, vm'.db = (parseTx env.parser vm.db b).2 := by
  cases h with
  | issueTx sv b vm =>
    rw [IssueTx_db]
    split
    · exact .inr ⟨b, rfl⟩
    · exact .inl rfl
  | parse b vm => exact .inr ⟨b, rfl⟩
  | getTx sv txID vm => exact .inl rfl
  | setState st vm => exact .inl (by rw [SetState_frame])
  | timerFires vm => exact .inl (FlushTxs_db env vm)
  | pendingTxs vm => exact .inl rfl
  | receivePendingTxs vm rest _ => exact .inl rfl
  | receiveStopVertex vm rest _ => exact .inl rfl
  | issueStopVertex vm => exact .inl (by rw [(issueStopVertex_frame env vm).1])

theorem Step.forward {env : Env} {vm vm' : VM} {l : Label} (h : Step env vm l vm') :
    DBForward vm.db vm'.db := by
  rcases h.db_cases with h | ⟨b, h⟩
  · rw [h]; exact .refl _
  · rw [h]; exact parseTx_forward _ _ _

/-- **The ledger moves forward.** Along every run, in any order of the entry points, the
engine and the timer: a transaction the ledger knows stays known with the same content, no
decided status changes, a database with no uncommitted write keeps none, and every state of
the capability cache reachable over the first ledger is reachable, hence sound, over the
last. -/
theorem run_ledger_forward {env : Env} {vm vm' : VM} {ls : List Label}
    (h : Run env vm ls vm') :
    vm.db.view.Extends vm'.db.view ∧
    (∀ id, (vm.db.view.status id).decided = true →
      vm'.db.view.status id = vm.db.view.status id) ∧
    (vm.db.base = vm.db.view → vm'.db.base = vm'.db.view) ∧
    ∀ c, CapReachable vm.db.view c → CapReachable vm'.db.view c := by
  have hf : DBForward vm.db vm'.db := by
    induction h with
    | refl => exact .refl _
    | step _ hs ih => exact ih.trans hs.forward
  exact ⟨hf.extends_view, hf.decided_eq, hf.committed, fun c hc => hc.advance hf.extends_view⟩

/-- `lengthParser`, one extension, and a channel with room for one message. -/
def oneFxEnv : Env := ⟨lengthParser, [acceptAllFx], 1⟩

/-- `freshVM` before the engine reports `NormalOp`. -/
def startingVM : VM := { freshVM with bootstrapped := false }

/-- The labels of a first start: `SetState(NormalOp)`, an `IssueTx`, then `PendingTxs`. -/
def bootIssuePullLabels : List Label :=
  [.internal,
    .issue (issueChecks lengthParser (fun _ => .ok ()) (SetState [acceptAllFx] startingVM .normalOp).2
      [7]).1,
    .pull (PendingTxs (IssueTx oneFxEnv (fun _ => .ok ())
      (SetState [acceptAllFx] startingVM .normalOp).2 [7]).2).1]

/-- The state after `bootIssuePullLabels`. -/
def bootIssuePullVM : VM :=
  (PendingTxs (IssueTx oneFxEnv (fun _ => .ok ()) (SetState [acceptAllFx] startingVM .normalOp).2
    [7]).2).2

theorem run_ledger_forward_boot_issue_pull :
    startingVM.db.view.Extends bootIssuePullVM.db.view ∧
    (∀ id, (startingVM.db.view.status id).decided = true →
      bootIssuePullVM.db.view.status id = startingVM.db.view.status id) ∧
    (startingVM.db.base = startingVM.db.view →
      bootIssuePullVM.db.base = bootIssuePullVM.db.view) ∧
    ∀ c, CapReachable startingVM.db.view c → CapReachable bootIssuePullVM.db.view c :=
  run_ledger_forward
    ((((Run.refl _).step (.setState .normalOp _)).step (.issueTx _ _ _)).step (.pendingTxs _))

/-! ## Every transaction the engine gets is known -/

theorem IssueTx_db_eq_issueChecks (env : Env) (sv : ID → Except Err Unit) (vm : VM) (b : Bytes) :
    (IssueTx env sv vm b).2.db = (issueChecks env.parser sv vm b).2.db := by
  unfold IssueTx
  split <;> rename_i h <;> simp [h]

/-- What a successful pass of the checks of `IssueTx` did: the VM was bootstrapped, the
parse returned the transaction, re-verification passed on the database the parse left, and
that database is the only change. -/
theorem issueChecks_eq_ok {p : Parser} {sv : ID → Except Err Unit} {vm : VM} {b : Bytes}
    {tx : Tx} (h : (issueChecks p sv vm b).1 = .ok tx) :
    vm.bootstrapped = true ∧ (parseTx p vm.db b).1 = .ok tx ∧
      reverify sv (parseTx p vm.db b).2.view tx.id = .ok () ∧
      issueChecks p sv vm b = (.ok tx, { vm with db := (parseTx p vm.db b).2 }) := by
  cases hb : vm.bootstrapped
  · simp [issueChecks, hb] at h
  · rcases hp : parseTx p vm.db b with ⟨_ | tx', db⟩
    · simp [issueChecks, hb, hp] at h
    · cases hv : reverify sv db.view tx'.id with
      | error e => simp [issueChecks, hb, hp, hv] at h
      | ok u =>
        simp only [issueChecks, hb, hp, hv, Bool.not_true] at h
        cases h
        simp [issueChecks, hb, hp, hv]

/-- A transaction the checks of `IssueTx` accept is known to the ledger they leave. -/
theorem issueChecks_ok_fetched {p : Parser} {sv : ID → Except Err Unit} {vm : VM} {b : Bytes}
    {tx : Tx} (h : (issueChecks p sv vm b).1 = .ok tx) :
    ((issueChecks p sv vm b).2.db.view.status tx.id).fetched = true := by
  obtain ⟨-, -, hv, he⟩ := issueChecks_eq_ok h
  rw [he]
  exact verifyWithoutCacheWrites_fetched hv

theorem Step.issued_fetched {env : Env} {vm vm' : VM} {l : Label} (h : Step env vm l vm') :
    ∀ tx ∈ l.issued, (vm'.db.view.status tx.id).fetched = true := by
  cases h
  case issueTx sv b =>
    intro tx htx
    rw [IssueTx_db_eq_issueChecks]
    cases hc : (issueChecks env.parser sv vm b).1 with
    | error e => simp [hc, Label.issued] at htx
    | ok tx' =>
      obtain rfl : tx = tx' := by simpa [hc, Label.issued] using htx
      exact issueChecks_ok_fetched hc
  all_goals simp [Label.issued]

/-- **The engine gets known transactions only.** Along every run from a VM whose pending
batch is known to the ledger (an empty one, as after `Initialize`), every transaction in a
batch `PendingTxs` returned or still pending is known to the ledger of the last state:
Processing, Accepted or Rejected, never Unknown. -/
theorem run_engine_txs_known {env : Env} {vm vm' : VM} {ls : List Label}
    (h : Run env vm ls vm') (h0 : ∀ tx ∈ vm.txs, (vm.db.view.status tx.id).fetched = true) :
    ∀ tx ∈ ls.flatMap Label.pulled ++ vm'.txs, (vm'.db.view.status tx.id).fetched = true := by
  rw [run_pulled_append_txs h]
  induction h with
  | refl => simpa using h0
  | step _ hs ih =>
    intro tx htx
    rw [List.flatMap_append, List.flatMap_singleton, ← List.append_assoc, List.mem_append] at htx
    rcases htx with htx | htx
    · exact (hs.forward.extends_view _ (ih tx htx)).1
    · exact hs.issued_fetched tx htx

theorem run_engine_txs_known_boot_issue_pull :
    (∀ tx ∈ startingVM.txs, (startingVM.db.view.status tx.id).fetched = true) ∧
    ∀ tx ∈ bootIssuePullLabels.flatMap Label.pulled ++ bootIssuePullVM.txs,
      (bootIssuePullVM.db.view.status tx.id).fetched = true :=
  ⟨by simp [startingVM, freshVM], @run_engine_txs_known oneFxEnv startingVM _ _
    ((((Run.refl _).step (.setState .normalOp _)).step (.issueTx _ _ _)).step (.pendingTxs _))
    (by simp [startingVM, freshVM])⟩

/-! ## Nothing is issued before bootstrapping -/

@[simp] theorem FlushTxs_bootstrapped (env : Env) (vm : VM) :
    (FlushTxs env vm).bootstrapped = vm.bootstrapped := by
  simp only [FlushTxs]; split <;> try split
  all_goals rfl

@[simp] theorem issueTx_bootstrapped (env : Env) (vm : VM) (tx : Tx) :
    (issueTx env vm tx).bootstrapped = vm.bootstrapped := by
  simp only [issueTx]; split <;> try split
  all_goals simp

theorem IssueTx_bootstrapped (env : Env) (sv : ID → Except Err Unit) (vm : VM) (b : Bytes) :
    (IssueTx env sv vm b).2.bootstrapped = vm.bootstrapped := by
  have hf := congrArg VM.bootstrapped (issueChecks_frame env.parser sv vm b)
  unfold IssueTx
  split <;> rename_i h <;> simp_all

/-- `SetState` sets the flag only when every extension returned from `Bootstrapped`. -/
theorem SetState_bootstrapped (fxs : List Fx) (vm : VM) (st : SnowState) :
    (SetState fxs vm st).2.bootstrapped = vm.bootstrapped ∨
      ((SetState fxs vm st).2.bootstrapped = true ∧ ∀ fx ∈ fxs, fx.bootstrapped = .ok ()) := by
  cases st
  case normalOp =>
    simp only [SetState, onNormalOperationsStarted]
    split
    · exact .inl rfl
    · exact .inr ⟨rfl, (forM_eq_ok _ _).mp ‹_›⟩
  all_goals exact .inl rfl

theorem Step.bootstrapped {env : Env} {vm vm' : VM} {l : Label} (h : Step env vm l vm') :
    vm'.bootstrapped = vm.bootstrapped ∨
      (vm'.bootstrapped = true ∧ ∀ fx ∈ env.fxs, fx.bootstrapped = .ok ()) := by
  cases h with
  | issueTx sv b vm => exact .inl (IssueTx_bootstrapped env sv vm b)
  | parse b vm => exact .inl rfl
  | getTx sv txID vm => exact .inl rfl
  | setState st vm => exact SetState_bootstrapped env.fxs vm st
  | timerFires vm => exact .inl (FlushTxs_bootstrapped env vm)
  | pendingTxs vm => exact .inl rfl
  | receivePendingTxs vm rest _ => exact .inl rfl
  | receiveStopVertex vm rest _ => exact .inl rfl
  | issueStopVertex vm => exact .inl (by rw [(issueStopVertex_frame env vm).1])

theorem Step.issued_of_not_bootstrapped {env : Env} {vm vm' : VM} {l : Label}
    (h : Step env vm l vm') (hb : vm.bootstrapped = false) : l.issued = [] := by
  cases h
  case issueTx => simp [issueChecks, hb, Label.issued]
  all_goals rfl

/-- **No transaction before bootstrapping.** Along every run, in any order of the entry
points: the `bootstrapped` flag is never reset; from a VM that is not bootstrapped (as after
`Initialize`), it is set only after every extension returned from `Bootstrapped` without
error; and as long as it is not set, `IssueTx` accepted nothing. -/
theorem run_bootstrap_gate {env : Env} {vm vm' : VM} {ls : List Label}
    (h : Run env vm ls vm') :
    (vm.bootstrapped = true → vm'.bootstrapped = true) ∧
    (vm.bootstrapped = false → vm'.bootstrapped = true →
      ∀ fx ∈ env.fxs, fx.bootstrapped = .ok ()) ∧
    (vm'.bootstrapped = false → ls.flatMap Label.issued = []) := by
  induction h with
  | refl => exact ⟨id, fun h h' => by simp [h] at h', fun _ => rfl⟩
  | step _ hs ih =>
    obtain ⟨ih₁, ih₂, ih₃⟩ := ih
    rcases hs.bootstrapped with he | ⟨ht, hfx⟩
    · refine ⟨fun hb => he ▸ ih₁ hb, fun hb hb' => ih₂ hb (he ▸ hb'), fun hb' => ?_⟩
      rw [List.flatMap_append, List.flatMap_singleton, ih₃ (he ▸ hb'),
        hs.issued_of_not_bootstrapped (he ▸ hb')]
      rfl
    · exact ⟨fun _ => ht, fun _ _ => hfx, fun hb' => by simp [ht] at hb'⟩

theorem run_bootstrap_gate_boot_issue_pull :
    (startingVM.bootstrapped = true → bootIssuePullVM.bootstrapped = true) ∧
    (startingVM.bootstrapped = false → bootIssuePullVM.bootstrapped = true →
      ∀ fx ∈ oneFxEnv.fxs, fx.bootstrapped = .ok ()) ∧
    (bootIssuePullVM.bootstrapped = false → bootIssuePullLabels.flatMap Label.issued = []) :=
  run_bootstrap_gate
    ((((Run.refl _).step (.setState .normalOp _)).step (.issueTx _ _ _)).step (.pendingTxs _))

/-! ## Issuing the same bytes twice -/

/-- `IssueTx` after checks that passed. -/
theorem IssueTx_of_issueChecks {env : Env} {sv : ID → Except Err Unit} {vm vm' : VM} {b : Bytes}
    {tx : Tx} (h : issueChecks env.parser sv vm b = (.ok tx, vm')) :
    IssueTx env sv vm b = (.ok tx.id, issueTx env vm' tx) := by
  simp [IssueTx, h]

end AvmCore

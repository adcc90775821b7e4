import AvmCore.Issue.ParseTx
import AvmCore.Verify.FxUsage

/-!
# AvmCore — issuing transactions and the batch scheduler

`IssueTx` parses and re-verifies a transaction and appends it to the pending batch
`vm.txs`. The first transaction of a batch arms the timer; the `batchSize`-th flushes at
once. `FlushTxs` (run by the timer, or at `batchSize`) cancels the timer and sends
`PendingTxs` to the engine without blocking; when the channel is full the message is
dropped and the timer re-armed. The engine drains the batch with `PendingTxs`, when it
consumes the message or on its own.

The scheduler is a labelled transition system over the VM state: each step is an entry
point of the VM (`IssueTx`, `ParseTx`, `GetTx`, `SetState`, `PendingTxs`) or an action of the
engine or of the timer, in any order. The timer may
fire at any time, also after it was cancelled, because its callback may already be waiting
for the lock. Labels record what the caller observes: the transaction an `IssueTx`
accepted and the batch a `PendingTxs` returned.

Main results:

* `run_pulled_append_txs` — the batches drained so far, followed by the pending batch, are
  the transactions issued so far, in order: none is lost, duplicated or reordered;
* `run_batchCovered` — a non-empty batch always has a flush scheduled or a `PendingTxs`
  message waiting;
* `reparse_keeps_ledger` — a first parse stores the transaction as Processing and commits,
  parsing again writes nothing, and no re-parse through `ParseTx` or `IssueTx` changes a
  decided status.
-/

namespace AvmCore

/-- `batchSize`. -/
def batchSize : Nat := 30

/-- The `common.Message`s the VM sends the engine. -/
inductive Message
  | pendingTxs
  | stopVertex
  deriving DecidableEq, Repr

/-- `snow.State`. -/
inductive SnowState
  | initializing
  | stateSyncing
  | bootstrapping
  | normalOp
  deriving DecidableEq, Repr

/-- The VM state the issuing path reads and writes: the database, `vm.bootstrapped`, whether
`vm.timer` has a timeout set, the pending batch `vm.txs`, and the messages waiting in the
`toEngine` channel, oldest first. -/
structure VM where
  db : VersionDB
  bootstrapped : Bool
  timerArmed : Bool
  txs : List Tx
  toEngine : List Message

/-- What the VM is given at `Initialize`: the parser, the extensions, and the buffer size of
the `toEngine` channel the engine created. -/
structure Env where
  parser : Parser
  fxs : List Fx
  toEngineCap : Nat

/-! ## The entry points -/

/-- A non-blocking send `select { case vm.toEngine <- msg: default: }`: `none` when the
channel is full. -/
def trySend (env : Env) (ch : List Message) (msg : Message) : Option (List Message) :=
  if ch.length < env.toEngineCap then some (ch ++ [msg]) else none

/-- `VM.FlushTxs`. -/
def FlushTxs (env : Env) (vm : VM) : VM :=
  let vm := { vm with timerArmed := false }
  if vm.txs.length ≠ 0 then
    match trySend env vm.toEngine .pendingTxs with
    | some ch => { vm with toEngine := ch }
    | none => { vm with timerArmed := true }
  else vm

/-- `VM.issueTx`. -/
def issueTx (env : Env) (vm : VM) (tx : Tx) : VM :=
  let vm := { vm with txs := vm.txs ++ [tx] }
  if vm.txs.length = batchSize then FlushTxs env vm
  else if vm.txs.length = 1 then { vm with timerArmed := true }
  else vm

/-- `VM.PendingTxs`. -/
def PendingTxs (vm : VM) : List Tx × VM := (vm.txs, { vm with timerArmed := false, txs := [] })

/-- `VM.issueStopVertex`. -/
def issueStopVertex (env : Env) (vm : VM) : VM :=
  match trySend env vm.toEngine .stopVertex with
  | some ch => { vm with toEngine := ch }
  | none => vm

/-- `verifyWithoutCacheWrites` as the scheduler runs it. The scheduler does not keep the
capability cache the semantic checks query (`Verify/` models it); `sv` answers the checks,
call by call. -/
def reverify (sv : ID → Except Err Unit) (l : Ledger) (txID : ID) : Except Err Unit :=
  (verifyWithoutCacheWrites (fun id (u : Unit) => (sv id, u)) l txID ()).1

/-- The checks of `VM.IssueTx` before the hand-off: bootstrapped, `parseTx`, then
`verifyWithoutCacheWrites`. -/
def issueChecks (p : Parser) (sv : ID → Except Err Unit) (vm : VM) (b : Bytes) :
    Except Err Tx × VM :=
  if !vm.bootstrapped then (.error .bootstrapping, vm)
  else
    match parseTx p vm.db b with
    | (.error e, db) => (.error e, { vm with db })
    | (.ok tx, db) =>
      match reverify sv db.view tx.id with
      | .error e => (.error e, { vm with db })
      | .ok () => (.ok tx, { vm with db })

/-- `VM.IssueTx`. -/
def IssueTx (env : Env) (sv : ID → Except Err Unit) (vm : VM) (b : Bytes) :
    Except Err ID × VM :=
  match issueChecks env.parser sv vm b with
  | (.error e, vm) => (.error e, vm)
  | (.ok tx, vm) => (.ok tx.id, issueTx env vm tx)

/-- `VM.GetTx`: the transaction `txID`, a `UniqueTx` that loads it when used, with the error
of its re-verification. It writes nothing the scheduler keeps. -/
def GetTx (sv : ID → Except Err Unit) (vm : VM) (txID : ID) : ID × Except Err Unit :=
  (txID, reverify sv vm.db.view txID)

/-- `VM.onBootstrapStarted`. -/
def onBootstrapStarted (fxs : List Fx) : Except Err Unit := fxs.forM Fx.bootstrapping

/-- `VM.onNormalOperationsStarted`. -/
def onNormalOperationsStarted (fxs : List Fx) (vm : VM) : Except Err Unit × VM :=
  match fxs.forM Fx.bootstrapped with
  | .error e => (.error e, vm)
  | .ok () => (.ok (), { vm with bootstrapped := true })

/-- `VM.SetState`. -/
def SetState (fxs : List Fx) (vm : VM) : SnowState → Except Err Unit × VM
  | .bootstrapping => (onBootstrapStarted fxs, vm)
  | .normalOp => onNormalOperationsStarted fxs vm
  | _ => (.error .unknownState, vm)

/-! ## Frame lemmas -/

@[simp] theorem FlushTxs_txs (env : Env) (vm : VM) : (FlushTxs env vm).txs = vm.txs := by
  simp only [FlushTxs]; split <;> try split
  all_goals rfl

@[simp] theorem issueTx_txs (env : Env) (vm : VM) (tx : Tx) :
    (issueTx env vm tx).txs = vm.txs ++ [tx] := by
  simp only [issueTx]; split <;> try split
  all_goals simp

/-- The checks of `IssueTx` write the database only. -/
theorem issueChecks_frame (p : Parser) (sv : ID → Except Err Unit) (vm : VM) (b : Bytes) :
    (issueChecks p sv vm b).2 = { vm with db := (issueChecks p sv vm b).2.db } := by
  unfold issueChecks; split <;> try split <;> try split
  all_goals rfl

/-- `SetState` writes `bootstrapped` only. -/
theorem SetState_frame (fxs : List Fx) (vm : VM) (st : SnowState) :
    (SetState fxs vm st).2 =
      { vm with bootstrapped := (SetState fxs vm st).2.bootstrapped } := by
  cases st <;> simp only [SetState, onNormalOperationsStarted]
  split <;> rfl

/-- `issueStopVertex` may append a `StopVertex` message and writes nothing else. -/
theorem issueStopVertex_frame (env : Env) (vm : VM) :
    issueStopVertex env vm = { vm with toEngine := (issueStopVertex env vm).toEngine } ∧
      vm.toEngine <+: (issueStopVertex env vm).toEngine := by
  unfold issueStopVertex trySend
  split <;> rename_i h <;> split at h <;> simp only [Option.some.injEq, reduceCtorEq] at h
  · subst h; exact ⟨rfl, List.prefix_append _ _⟩
  · exact ⟨rfl, List.prefix_refl _⟩

/-! ## The scheduler as a transition system -/

/-- What a step shows its caller: the transaction an `IssueTx` validated (or its error), the
result of a `ParseTx` or a `GetTx`, the batch a `PendingTxs` returned, or nothing. -/
inductive Label
  | issue (r : Except Err Tx)
  | parse (r : Except Err Tx)
  | get (r : ID × Except Err Unit)
  | pull (txs : List Tx)
  | internal

/-- The transaction a successful `IssueTx` handed on. -/
def Label.issued : Label → List Tx
  | .issue (.ok tx) => [tx]
  | _ => []

/-- The batch a `PendingTxs` call returned. -/
def Label.pulled : Label → List Tx
  | .pull txs => txs
  | _ => []

/-- One step of the VM and its environment: an entry point the engine or an API caller calls,
the timer firing, or the engine receiving a message. -/
inductive Step (env : Env) : VM → Label → VM → Prop
  | issueTx (sv : ID → Except Err Unit) (b : Bytes) (vm : VM) :
      Step env vm (.issue (issueChecks env.parser sv vm b).1) (IssueTx env sv vm b).2
  | parse (b : Bytes) (vm : VM) :
      Step env vm (.parse (ParseTx env.parser vm.db b).1)
        { vm with db := (ParseTx env.parser vm.db b).2 }
  | getTx (sv : ID → Except Err Unit) (txID : ID) (vm : VM) :
      Step env vm (.get (GetTx sv vm txID)) vm
  | setState (st : SnowState) (vm : VM) : Step env vm .internal (SetState env.fxs vm st).2
  | timerFires (vm : VM) : Step env vm .internal (FlushTxs env vm)
  | pendingTxs (vm : VM) : Step env vm (.pull (PendingTxs vm).1) (PendingTxs vm).2
  | receivePendingTxs (vm : VM) (rest : List Message) :
      vm.toEngine = .pendingTxs :: rest →
      Step env vm (.pull (PendingTxs { vm with toEngine := rest }).1)
        (PendingTxs { vm with toEngine := rest }).2
  | receiveStopVertex (vm : VM) (rest : List Message) :
      vm.toEngine = .stopVertex :: rest → Step env vm .internal { vm with toEngine := rest }
  | issueStopVertex (vm : VM) : Step env vm .internal (issueStopVertex env vm)

/-- A run: the states reached by a sequence of steps, with their labels in order. -/
inductive Run (env : Env) : VM → List Label → VM → Prop
  | refl (vm : VM) : Run env vm [] vm
  | step {vm vm' vm'' : VM} {ls : List Label} {l : Label} :
      Run env vm ls vm' → Step env vm' l vm'' → Run env vm (ls ++ [l]) vm''

/-! ## No issued transaction is lost, duplicated or reordered -/

theorem IssueTx_txs (env : Env) (sv : ID → Except Err Unit) (vm : VM) (b : Bytes) :
    (IssueTx env sv vm b).2.txs = vm.txs ++ (Label.issue (issueChecks env.parser sv vm b).1).issued := by
  have hf := congrArg VM.txs (issueChecks_frame env.parser sv vm b)
  unfold IssueTx
  split <;> rename_i h <;> simp_all [Label.issued]

/-- One step moves transactions from the batch to a drained batch, or issues one. -/
theorem Step.pulled_append_txs {env : Env} {vm vm' : VM} {l : Label} (h : Step env vm l vm') :
    l.pulled ++ vm'.txs = vm.txs ++ l.issued := by
  cases h with
  | issueTx sv b vm => simp [Label.pulled, IssueTx_txs]
  | parse b vm => simp [Label.pulled, Label.issued]
  | getTx sv txID vm => simp [Label.pulled, Label.issued]
  | setState st vm =>
    have := congrArg VM.txs (SetState_frame env.fxs vm st)
    simpa [Label.pulled, Label.issued] using this
  | timerFires vm => simp [Label.pulled, Label.issued]
  | pendingTxs vm => simp [Label.pulled, Label.issued, PendingTxs]
  | receivePendingTxs vm rest _ => simp [Label.pulled, Label.issued, PendingTxs]
  | receiveStopVertex vm rest _ => simp [Label.pulled, Label.issued]
  | issueStopVertex vm =>
    have := congrArg VM.txs (issueStopVertex_frame env vm).1
    simpa [Label.pulled, Label.issued] using this

/-- **No lost, duplicated or reordered transaction.** Along every run, the batches
`PendingTxs` returned, followed by the pending batch, are the starting batch followed by
the transactions `IssueTx` accepted, in call order. From a VM with an empty batch, as
after `Initialize`, they are exactly the issued transactions. -/
theorem run_pulled_append_txs {env : Env} {vm vm' : VM} {ls : List Label}
    (h : Run env vm ls vm') :
    ls.flatMap Label.pulled ++ vm'.txs = vm.txs ++ ls.flatMap Label.issued := by
  induction h with
  | refl => simp
  | step _ hs ih =>
    rw [List.flatMap_append, List.flatMap_append, List.append_assoc, List.flatMap_singleton,
      List.flatMap_singleton, hs.pulled_append_txs, ← List.append_assoc, ih, List.append_assoc]

/-- A parser that reads every byte string as a base transaction whose ID is its length. -/
def lengthParser : Parser where
  parse := fun b => .ok ⟨b.length, .other 0, []⟩
  syntacticVerify := fun _ => .ok ()

/-- `lengthParser`, no extensions, and a channel with room for one message. -/
def oneSlotEnv : Env := ⟨lengthParser, [], 1⟩

/-- A bootstrapped VM over an empty ledger, with an empty batch, an idle timer and an empty
channel. -/
def freshVM : VM :=
  ⟨⟨⟨fun _ => none, fun _ => none, fun _ => none⟩, ⟨fun _ => none, fun _ => none, fun _ => none⟩⟩,
    true, false, [], []⟩

/-- Issuing one transaction and draining the batch: the drained batch is the issued one. -/
theorem run_pulled_append_txs_issue_pull :
    [Label.issue (issueChecks lengthParser (fun _ => .ok ()) freshVM [7]).1,
        Label.pull (PendingTxs (IssueTx oneSlotEnv (fun _ => .ok ()) freshVM [7]).2).1].flatMap
        Label.pulled ++
      (PendingTxs (IssueTx oneSlotEnv (fun _ => .ok ()) freshVM [7]).2).2.txs =
    freshVM.txs ++
      [Label.issue (issueChecks lengthParser (fun _ => .ok ()) freshVM [7]).1,
        Label.pull (PendingTxs (IssueTx oneSlotEnv (fun _ => .ok ()) freshVM [7]).2).1].flatMap
        Label.issued :=
  run_pulled_append_txs (((Run.refl freshVM).step
    (@Step.issueTx oneSlotEnv (fun _ => .ok ()) [7] freshVM)).step (.pendingTxs _))

/-! ## No pending batch is stranded -/

/-- A non-empty batch has a flush scheduled or a `PendingTxs` message waiting. -/
def BatchCovered (vm : VM) : Prop :=
  vm.txs ≠ [] → vm.timerArmed = true ∨ Message.pendingTxs ∈ vm.toEngine

/-- Whatever state it starts from, `FlushTxs` leaves the batch covered: it sends the message
or, when the channel is full, re-arms the timer. -/
theorem FlushTxs_batchCovered (env : Env) (vm : VM) : BatchCovered (FlushTxs env vm) := by
  intro hne
  simp only [FlushTxs] at hne ⊢
  split
  · split
    · rename_i ch h
      simp only [trySend] at h
      split at h
      · cases h; simp
      · cases h
    · simp
  · simp_all

theorem issueTx_batchCovered (env : Env) {vm : VM} (h : BatchCovered vm) (tx : Tx) :
    BatchCovered (issueTx env vm tx) := by
  simp only [issueTx]
  split
  · exact FlushTxs_batchCovered env _
  · split
    · exact fun _ => .inl rfl
    · rename_i h1 h2
      have hne : vm.txs ≠ [] := by
        rintro hnil; simp [hnil] at h2
      exact fun _ => h hne

theorem IssueTx_batchCovered (env : Env) (sv : ID → Except Err Unit) {vm : VM}
    (h : BatchCovered vm) (b : Bytes) : BatchCovered (IssueTx env sv vm b).2 := by
  have hc : BatchCovered (issueChecks env.parser sv vm b).2 := by
    rw [issueChecks_frame]; exact h
  unfold IssueTx
  split
  · rename_i e vm' hv; simpa [hv] using hc
  · rename_i tx vm' hv; exact issueTx_batchCovered env (by simpa [hv] using hc) tx

theorem Step.batchCovered {env : Env} {vm vm' : VM} {l : Label} (h : Step env vm l vm')
    (hc : BatchCovered vm) : BatchCovered vm' := by
  cases h with
  | issueTx sv b vm => exact IssueTx_batchCovered env sv hc b
  | parse b vm => exact hc
  | getTx sv txID vm => exact hc
  | setState st vm => rw [SetState_frame]; exact hc
  | timerFires vm => exact FlushTxs_batchCovered env vm
  | pendingTxs vm => simp [BatchCovered, PendingTxs]
  | receivePendingTxs vm rest _ => simp [BatchCovered, PendingTxs]
  | receiveStopVertex vm rest hq =>
    intro hne
    rcases hc hne with ht | hm
    · exact .inl ht
    · rw [hq] at hm
      exact .inr (by simpa using hm)
  | issueStopVertex vm =>
    rw [(issueStopVertex_frame env vm).1]
    intro hne
    rcases hc hne with ht | hm
    · exact .inl ht
    · exact .inr ((issueStopVertex_frame env vm).2.subset hm)

/-- **No stranded batch.** Along every run from a state whose batch is covered (one with an
empty batch, as after `Initialize`), whenever the batch is non-empty the timer is armed or a
`PendingTxs` message waits in the channel. A dropped signal always re-arms the timer. -/
theorem run_batchCovered {env : Env} {vm vm' : VM} {ls : List Label}
    (h0 : BatchCovered vm) (h : Run env vm ls vm') : BatchCovered vm' := by
  induction h with
  | refl => exact h0
  | step _ hs ih => exact hs.batchCovered ih

/-- After one `IssueTx` from a fresh VM the batch is covered. -/
theorem run_batchCovered_one_issue :
    BatchCovered (IssueTx oneSlotEnv (fun _ => .ok ()) freshVM [7]).2 :=
  run_batchCovered (fun h => (h rfl).elim) ((Run.refl freshVM).step (.issueTx _ _ _))

/-! ## Re-parsing -/

@[simp] theorem FlushTxs_db (env : Env) (vm : VM) : (FlushTxs env vm).db = vm.db := by
  simp only [FlushTxs]; split <;> try split
  all_goals rfl

@[simp] theorem issueTx_db (env : Env) (vm : VM) (tx : Tx) :
    (issueTx env vm tx).db = vm.db := by
  simp only [issueTx]; split <;> try split
  all_goals simp

/-- `IssueTx` writes the database through `parseTx` only. -/
theorem IssueTx_db (env : Env) (sv : ID → Except Err Unit) (vm : VM) (b : Bytes) :
    (IssueTx env sv vm b).2.db =
      if vm.bootstrapped then (parseTx env.parser vm.db b).2 else vm.db := by
  have hdb : (issueChecks env.parser sv vm b).2.db =
      if vm.bootstrapped then (parseTx env.parser vm.db b).2 else vm.db := by
    unfold issueChecks
    split
    · rename_i hb; simp_all
    · rename_i hb
      simp only [Bool.not_eq_true', Bool.not_eq_false] at hb
      simp only [hb, if_true]
      split
      · rename_i e db h; simp [h]
      · rename_i tx db h; split <;> simp [h]
  unfold IssueTx
  split <;> rename_i h <;> simp_all

/-- **Re-parsing.** A parse or syntax failure returns an error and writes nothing. A success
returns the transaction; when its status was Unknown it stores the transaction, sets it
Processing and commits, leaving every other record as it was, and otherwise it writes
nothing. Parsing the same bytes again returns the same result and leaves the database as one
parse does, and no parse through `ParseTx` or `IssueTx` changes a decided status. -/
theorem reparse_keeps_ledger (p : Parser) (db : VersionDB) (b : Bytes) :
    ((∃ e, p.parse b = .error e) ∨
        (∃ tx e, p.parse b = .ok tx ∧ p.syntacticVerify tx = .error e) →
      (∃ e, (parseTx p db b).1 = .error e) ∧ (parseTx p db b).2 = db) ∧
    (∀ tx, p.parse b = .ok tx → p.syntacticVerify tx = .ok () →
      (parseTx p db b).1 = .ok tx ∧
      (db.view.status tx.id = .unknown → RecordsProcessing db (parseTx p db b).2 tx) ∧
      (db.view.status tx.id ≠ .unknown → (parseTx p db b).2 = db)) ∧
    parseTx p (parseTx p db b).2 b = parseTx p db b ∧
    (∀ id, (db.view.status id).decided = true →
      (ParseTx p db b).2.view.status id = db.view.status id) ∧
    (∀ (env : Env) (sv : ID → Except Err Unit) (vm : VM) (id : ID),
      (vm.db.view.status id).decided = true →
      (IssueTx env sv vm b).2.db.view.status id = vm.db.view.status id) := by
  refine ⟨?_, fun tx h hs => ?_, parseTx_parseTx p db b,
    fun id hd => parseTx_status_decided p db b hd, fun env sv vm id hd => ?_⟩
  · rintro (⟨e, h⟩ | ⟨tx, e, h, hs⟩)
    · simp [parseTx_of_parse_error h]
    · simp [parseTx_of_syntax_error h hs]
  · rw [parseTx_of_ok h hs db]
    refine ⟨rfl, fun hu => ?_, fun hu => if_neg hu⟩
    rw [if_pos hu]
    exact recordProcessing_spec db tx
  · rw [IssueTx_db]
    split
    · exact parseTx_status_decided _ _ _ hd
    · rfl

/-- The first parse of `[7]` into an empty ledger records its transaction as Processing. -/
theorem reparse_keeps_ledger_first_parse :
    lengthParser.parse [7] = .ok ⟨1, .other 0, []⟩ ∧
    lengthParser.syntacticVerify ⟨1, .other 0, []⟩ = .ok () ∧
    freshVM.db.view.status 1 = .unknown ∧
    RecordsProcessing freshVM.db (parseTx lengthParser freshVM.db [7]).2 ⟨1, .other 0, []⟩ :=
  ⟨rfl, rfl, rfl, ((reparse_keeps_ledger lengthParser freshVM.db [7]).2.1 _ rfl rfl).2.1 rfl⟩

end AvmCore

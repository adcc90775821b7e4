import AvmCore.Model.Ledger

/-!
# AvmCore — parsing a transaction

`parseTx` decodes bytes, runs the syntactic checks, and records a transaction it sees for
the first time: the transaction is stored, its status set to Processing and the database
committed, before the caller sees it. A transaction the ledger already knows is returned
with no write.

Main results:

* `parseTx_of_parse_error`, `parseTx_of_syntax_error` — a failure writes nothing;
* `parseTx_of_ok` — a success writes exactly when the stored status is Unknown, and then
  what `RecordsProcessing` says (`recordProcessing_spec`);
* `parseTx_parseTx` — parsing again returns the same result and writes nothing;
* `parseTx_status_decided` — no decided status is ever changed.
-/

namespace AvmCore

/-- `vm.parser.Parse` and `UniqueTx.SyntacticVerify`, supplied from outside src/. -/
structure Parser where
  parse : Bytes → Except Err Tx
  syntacticVerify : Tx → Except Err Unit

/-- The writes of a first parse: `State.PutTx`, then `UniqueTx.setStatus(Processing)`,
then `versiondb.Commit`. -/
def recordProcessing (db : VersionDB) (tx : Tx) : VersionDB :=
  ((db.update (·.putTx tx.id tx)).update (·.putStatus tx.id .processing)).commit

/-- `VM.parseTx`. -/
def parseTx (p : Parser) (db : VersionDB) (bytes : Bytes) : Except Err Tx × VersionDB :=
  match p.parse bytes with
  | .error e => (.error e, db)
  | .ok rawTx =>
    match p.syntacticVerify rawTx with
    | .error e => (.error e, db)
    | .ok () =>
      if db.view.status rawTx.id = .unknown then (.ok rawTx, recordProcessing db rawTx)
      else (.ok rawTx, db)

/-- `VM.ParseTx`. -/
def ParseTx (p : Parser) (db : VersionDB) (bytes : Bytes) : Except Err Tx × VersionDB :=
  parseTx p db bytes

@[simp] theorem recordProcessing_status (db : VersionDB) (tx : Tx) (id : ID) :
    (recordProcessing db tx).view.status id =
      if id = tx.id then .processing else db.view.status id := by
  simp [recordProcessing, VersionDB.commit, VersionDB.update]

/-- What the first parse of `tx` writes to a database `db`, leaving `db'`: the transaction is
stored and Processing, every other record of the view is as it was, and the view is
committed, so the base holds the same. -/
structure RecordsProcessing (db db' : VersionDB) (tx : Tx) : Prop where
  stored : db'.view.txs tx.id = some tx
  processing : db'.view.status tx.id = .processing
  committed : db'.base = db'.view
  txs_other : ∀ id, id ≠ tx.id → db'.view.txs id = db.view.txs id
  status_other : ∀ id, id ≠ tx.id → db'.view.status id = db.view.status id
  utxos_eq : db'.view.utxos = db.view.utxos

theorem recordProcessing_spec (db : VersionDB) (tx : Tx) :
    RecordsProcessing db (recordProcessing db tx) tx where
  stored := by simp [recordProcessing, VersionDB.commit, VersionDB.update]
  processing := by simp
  committed := rfl
  txs_other id h := by simp [recordProcessing, VersionDB.commit, VersionDB.update, h]
  status_other id h := by simp [h]
  utxos_eq := rfl

theorem parseTx_of_parse_error {p : Parser} {b : Bytes} {e : Err}
    (h : p.parse b = .error e) (db : VersionDB) : parseTx p db b = (.error e, db) := by
  simp [parseTx, h]

theorem parseTx_of_syntax_error {p : Parser} {b : Bytes} {tx : Tx} {e : Err}
    (h : p.parse b = .ok tx) (hs : p.syntacticVerify tx = .error e) (db : VersionDB) :
    parseTx p db b = (.error e, db) := by
  simp [parseTx, h, hs]

theorem parseTx_of_ok {p : Parser} {b : Bytes} {tx : Tx} (h : p.parse b = .ok tx)
    (hs : p.syntacticVerify tx = .ok ()) (db : VersionDB) :
    parseTx p db b =
      (.ok tx, if db.view.status tx.id = .unknown then recordProcessing db tx else db) := by
  simp only [parseTx, h, hs]
  split <;> rfl

/-- A second parse of the same bytes returns the same result and writes nothing. -/
theorem parseTx_parseTx (p : Parser) (db : VersionDB) (b : Bytes) :
    parseTx p (parseTx p db b).2 b = parseTx p db b := by
  cases h : p.parse b with
  | error e => simp [parseTx_of_parse_error h]
  | ok tx =>
    cases hs : p.syntacticVerify tx with
    | error e => simp [parseTx_of_syntax_error h hs]
    | ok u =>
      cases u
      by_cases hu : db.view.status tx.id = .unknown <;> simp [parseTx_of_ok h hs, hu]

/-- Parsing never changes a decided status. -/
theorem parseTx_status_decided (p : Parser) (db : VersionDB) (b : Bytes) {id : ID}
    (hd : (db.view.status id).decided = true) :
    (parseTx p db b).2.view.status id = db.view.status id := by
  cases h : p.parse b with
  | error e => simp [parseTx_of_parse_error h]
  | ok tx =>
    cases hs : p.syntacticVerify tx with
    | error e => simp [parseTx_of_syntax_error h hs]
    | ok u =>
      cases u
      rw [parseTx_of_ok h hs]
      split
      · rename_i hu
        simp only [recordProcessing_status]
        split
        · subst id; simp [hu, Status.decided] at hd
        · rfl
      · rfl

end AvmCore

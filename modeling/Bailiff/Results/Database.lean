-- SUMMARY: The tables of a result database: sessions, and one result per task and session.
import Bailiff.Results.Cell
import Bailiff.Text.Basic

/-!
# Result database

A database has a table of sessions and a table of results. A result belongs to a session that exists,
and no two results share task and session; `Database.insert` refuses a row that would break this. A
table that was declared elsewhere may have other columns and no such rules.
-/

namespace Bailiff

/-! ## Rows -/

structure Session where
  id : Int
  version : String
  start : Stamp
  deriving DecidableEq, Repr

/-- The outcome of a judge run. -/
inductive Outcome where
  | completed (stdout stderr : Output) (returnCode : Binary64)
  | killed
  deriving DecidableEq, Repr

/-- The return code of a killed run. -/
def killedReturnCode : Binary64 := -1

structure ResultRow where
  task : String
  session : Int
  start : Stamp
  duration : Binary64
  killed : Bool
  stdout : Output
  stderr : Output
  returnCode : Binary64
  deriving DecidableEq, Repr

inductive ResultStatus where
  | ok
  | failed
  | killed
  deriving DecidableEq, Repr

def ResultStatus.text : ResultStatus → String
  | ok => "ok"
  | failed => "failed"
  | killed => "killed"

/-- The status of a run: killed, or else decided by its return code. -/
def resultStatus (killed : Bool) (returnCode : Binary64) : ResultStatus :=
  if killed then .killed else if returnCode.isZero then .ok else .failed

def ResultRow.status (r : ResultRow) : ResultStatus := resultStatus r.killed r.returnCode

/-! ## Tables -/

/-- A table. One that was declared elsewhere is `foreign`, and the rules of the store do not hold for
it. -/
structure Table (ρ : Type) where
  columns : List String
  isForeign : Bool := false
  rows : List ρ := []
  deriving DecidableEq, Repr

def sessionColumns : List String := ["id", "version", "start_time"]

def resultColumns : List String :=
  ["task_name", "session_id", "start_time", "duration", "killed", "stdout", "stderr", "return_code"]

structure Database where
  sessionTable : Option (Table Session) := none
  resultTable : Option (Table ResultRow) := none
  /-- The names and columns of tables that the store has no use for. -/
  others : List (String × List String) := []
  deriving DecidableEq, Repr

namespace Database

def sessions (db : Database) : List Session := db.sessionTable.elim [] (·.rows)

def results (db : Database) : List ResultRow := db.resultTable.elim [] (·.rows)

/-- Adds the tables that are missing. -/
def withTables (db : Database) : Database :=
  { db with
    sessionTable := some (db.sessionTable.getD { columns := sessionColumns })
    resultTable := some (db.resultTable.getD { columns := resultColumns }) }

/-- The columns that a table lacks, in the order of the expected ones. -/
def lacking (expected columns : List String) : List String := expected.filter (!columns.contains ·)

/-- The first table that lacks columns, with these columns. -/
def incompatibility? (db : Database) : Option (String × List String) :=
  let ofSessions := lacking sessionColumns (db.sessionTable.elim [] (·.columns))
  let ofResults := lacking resultColumns (db.resultTable.elim [] (·.columns))
  if !ofSessions.isEmpty then some ("sessions", ofSessions)
  else if !ofResults.isEmpty then some ("tests", ofResults)
  else none

/-! ## Sessions -/

/-- The id of the next session: one more than the largest, and one at first. -/
def nextId (db : Database) : Int :=
  match (db.sessions.map (·.id)).max? with
  | some n => n + 1
  | none => 1

def addSession (db : Database) (version : String) (start : Stamp) : Database :=
  { db with
    sessionTable := db.sessionTable.map fun t =>
      { t with rows := t.rows ++ [⟨db.nextId, version, start⟩] } }

/-- The session of an id. -/
def session? (db : Database) (id : Binary64) : Option Session :=
  db.sessions.find? fun s => id.toInt? = some s.id

/-! ## Results -/

/-- A row on its way into the table of results. What is missing counts as null. -/
structure NewRow where
  task : Option String
  session : Option Binary64
  start : Option Stamp
  duration : Option Binary64
  killed : Bool
  stdout : Option Output
  stderr : Option Output
  returnCode : Option Binary64
  deriving DecidableEq, Repr

/-- The first column of a row that is null. -/
def NewRow.missing? (r : NewRow) : Option String :=
  if r.task.isNone then some "task_name"
  else if r.session.isNone then some "session_id"
  else if r.start.isNone then some "start_time"
  else if r.duration.isNone then some "duration"
  else if r.stdout.isNone then some "stdout"
  else if r.stderr.isNone then some "stderr"
  else if r.returnCode.isNone then some "return_code"
  else none

/-- Why a row is refused. -/
inductive Refusal where
  | missing (column : String)
  | duplicate
  | noSession
  deriving DecidableEq, Repr

/-- The row as it would be kept for a session. -/
def NewRow.settle (r : NewRow) (session : Int) : ResultRow :=
  { task := r.task.getD ""
    session
    start := r.start.getD (.text "")
    duration := storedNumber (r.duration.getD 0)
    killed := r.killed
    stdout := r.stdout.getD (.text "")
    stderr := r.stderr.getD (.text "")
    returnCode := storedNumber (r.returnCode.getD 0) }

/-- Whether a session has a result for a task. -/
def hasResult (db : Database) (session : Binary64) (task : String) : Bool :=
  db.results.any fun r => r.task = task && session.toInt? = some r.session

/-- Adds a row at the end of the table of results. -/
def append (db : Database) (row : ResultRow) : Database :=
  { db with resultTable := db.resultTable.map fun t => { t with rows := t.rows ++ [row] } }

/-- Whether the rules of the store hold for the table of results. -/
def isGuarded (db : Database) : Bool := db.resultTable.elim false (!·.isForeign)

/-- Adds a result. Nulls are refused first, then a second result for the same task and session, then
a result of no session. -/
def insert (db : Database) (row : NewRow) : Except Refusal Database :=
  if db.isGuarded then
    match row.missing? with
    | some column => .error (.missing column)
    | none =>
      let session := row.session.getD .nan
      if db.hasResult session (row.task.getD "") then .error .duplicate
      else match db.session? session with
        | none => .error .noSession
        | some s => .ok (db.append (row.settle s.id))
  else .ok (db.append (row.settle (((row.session.getD .nan).truncate?).getD 0)))

/-- The row of an outcome. -/
def NewRow.ofOutcome (session : Binary64) (task start : String) (duration : Binary64)
    (outcome : Outcome) : NewRow :=
  let base : NewRow :=
    { task := some task
      session := notNaN? session
      start := some (Stamp.ofText start)
      duration := notNaN? duration
      killed := true
      stdout := some (.text "")
      stderr := some (.text "")
      returnCode := some killedReturnCode }
  match outcome with
  | .killed => base
  | .completed stdout stderr returnCode =>
    { base with
      killed := false
      stdout := some stdout
      stderr := some stderr
      returnCode := notNaN? returnCode }
where
  /-- A number; not-a-number is null. -/
  notNaN? (x : Binary64) : Option Binary64 := if x.isNaN then none else some x

/-! ## Reading -/

/-- The results of a session in the order of their tasks. -/
def resultsOf (db : Database) (session : Binary64) : List ResultRow :=
  (db.results.filter fun r => session.toInt? = some r.session).mergeSort
    fun a b => Text.pointsLE a.task b.task

structure Summary where
  session : Session
  total : Nat
  ok : Nat
  failed : Nat
  killed : Nat
  deriving DecidableEq, Repr

/-- A session with the counts of its results. -/
def summaryOf (db : Database) (s : Session) : Summary :=
  let rows := db.results.filter (·.session = s.id)
  { session := s
    total := rows.length
    ok := rows.countP fun r => !r.killed && r.returnCode.isZero
    failed := rows.countP fun r => !r.killed && !r.returnCode.isZero
    killed := rows.countP (·.killed) }

/-- All sessions in the order of their ids, with their counts. -/
def summaries (db : Database) : List Summary :=
  (db.sessions.mergeSort fun a b => a.id ≤ b.id).map db.summaryOf

end Database

end Bailiff

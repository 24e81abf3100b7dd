-- SUMMARY: An open or closed connection to a result database, and what each operation answers.
import Bailiff.Results.Database
import Bailiff.Failure

/-!
# Result store

A `Store` is a database with a connection that may be closed. Reading operations give an answer,
writing ones also the new store; all fail on a closed connection, and a failed one changes nothing.
-/

namespace Bailiff

structure Store where
  db : Database
  isOpen : Bool := true
  deriving DecidableEq, Repr

namespace Store

/-! ## Troubles -/

def closedText : String := "The database connection is not open"

def unbindableText : String :=
  "SQLite3 can only bind numbers, strings, bigints, buffers, and null"

/-- A trouble in the course of an action. -/
def failed (action reason : String) : Failure :=
  .because .storage ("Failed to " ++ action ++ ": " ++ reason) (.plain reason)

/-- No result was recorded for a task, for a reason. -/
def recordFailed (task reason : String) : Failure := failed ("record result for task " ++ task) reason

def notPresent (id : String) : Failure := .of .notFound ("Session id " ++ id ++ " not present")

def alreadyRecorded (task session : String) : Failure :=
  .of .duplicateKey
    ("Result for task " ++ task ++ " in session " ++ session ++ " is already recorded")

def missingText (table column : String) : String :=
  "NOT NULL constraint failed: " ++ table ++ "." ++ column

/-- The trouble of a refused row. -/
def refused (task session : String) : Database.Refusal → Failure
  | .missing column => recordFailed task (missingText "tests" column)
  | .duplicate => alreadyRecorded task session
  | .noSession => notPresent session

/-- The answer on an open connection. -/
def whenOpen {α : Type} (s : Store) (action : String) (answer : Except Failure α) :
    Except Failure α :=
  if s.isOpen then answer else .error (failed action closedText)

/-! ## Sessions -/

/-- Starts a session and gives its id. -/
def beginSession (s : Store) (version : String) (now : Binary64) : Except Failure (Store × Int) :=
  s.whenOpen "create session" <|
    match Instant.ofNumber? now with
    | none => .error (failed "create session" "Invalid time value")
    | some t =>
      .ok ({ s with db := s.db.addSession version (.ofText t.iso) }, s.db.nextId)

def getSession (s : Store) (id : Binary64) : Except Failure (Option Session) :=
  s.whenOpen "read session" (.ok (s.db.session? id))

/-- Checks that a session exists, to go on with it. -/
def resumeSession (s : Store) (id : Binary64) : Except Failure Binary64 :=
  match s.getSession id with
  | .error e => .error e
  | .ok none => .error (notPresent id.text)
  | .ok (some _) => .ok id

def listSessions (s : Store) : Except Failure (List Database.Summary) :=
  s.whenOpen "list sessions" (.ok s.db.summaries)

/-! ## Results -/

def hasResult (s : Store) (session : Binary64) (task : String) : Except Failure Bool :=
  s.whenOpen "read result" (.ok (s.db.hasResult session task))

/-- Puts a row into the table of results. -/
def insert (s : Store) (task session : String) (row : Database.NewRow) : Except Failure Store :=
  if s.isOpen then
    match s.db.insert row with
    | .error r => .error (refused task session r)
    | .ok db => .ok { s with db }
  else .error (recordFailed task closedText)

/-- Records the outcome of a task. -/
def recordResult (s : Store) (session : Binary64) (task start : String) (duration : Binary64)
    (outcome : Outcome) : Except Failure Store :=
  s.insert task session.text (.ofOutcome session task start duration outcome)

def listResults (s : Store) (session : Binary64) : Except Failure (List ResultRow) :=
  s.whenOpen "list results" (.ok (s.db.resultsOf session))

/-! ## Connection -/

def close (s : Store) : Store := { s with isOpen := false }

/-- The database of a file that is opened as a store: the missing tables are added, and then both
must have all columns that the store needs. The tables stay added when they have not. -/
def prepare (db : Database) : Database × Except Failure Unit :=
  let db := db.withTables
  match db.incompatibility? with
  | some (table, columns) =>
    (db, .error (.of .storage
      ("Incompatible result store: table " ++ table ++ " is missing column(s) "
        ++ ", ".intercalate columns)))
  | none => (db, .ok ())

end Store

end Bailiff

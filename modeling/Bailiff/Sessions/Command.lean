-- SUMMARY: The sessions commands: what a database holds, as tables or as JSON.
import Bailiff.Results.Archive
import Bailiff.Sessions.Table
import Bailiff.Number.Shortest
import Bailiff.Time.Reading

/-!
# Sessions commands

Both commands read a database that must exist already, print what they find, and report any failure.
What has been printed before a failure stays printed.
-/

namespace Bailiff

/-! ## Start times -/

/-- A start time as it is shown: a text, or a number that is no instant. -/
inductive ShownStart where
  | text (s : String)
  | number (x : Binary64)
  deriving DecidableEq, Repr

/-- A start time in seconds, if it can be read; otherwise as it is. -/
def Stamp.shown : Stamp → ShownStart
  | .text s => .text ((Instant.read? s).elim s (·.plain))
  | .number x =>
    match Instant.ofNumber? x with
    | some t => .text t.plain
    | none => .number x

def ShownStart.describe : ShownStart → String
  | text s => s
  | number x => x.text

namespace SessionsCommand

/-- What a command prints, line by line, and how it ends. -/
structure Printed where
  lines : List String := []
  result : Except Failure Unit := .ok ()

def ends (f : Failure) : Printed := { result := .error f }

/-! ## List -/

def listHeaders : List String := ["ID", "Version", "Started", "OK", "Failed", "Killed"]

def listRow (s : Database.Summary) : List String :=
  [Binary64.integerText s.session.id, s.session.version, s.session.start.shown.describe,
    Binary64.integerText s.ok, Binary64.integerText s.failed, Binary64.integerText s.killed]

def listTable (sessions : List Database.Summary) : TextTable :=
  { headers := listHeaders, rows := sessions.map listRow }

/-- A number cannot be padded like a text. -/
def notPaddable : Failure := .fault .type "value.padEnd is not a function" .unknown

def hasText (s : Database.Summary) : Bool :=
  match s.session.start.shown with
  | .text _ => true
  | .number _ => false

/-- The table with its heading. When a start time is a number, the column of start times is not
padded and the table ends before that row. -/
def listPrinted (db : String) (sessions : List Database.Summary) : Printed :=
  let heading := "Sessions in " ++ db ++ ":"
  let table := listTable sessions
  if sessions.all hasText then { lines := heading :: table.lines }
  else
    let widths := table.widths.set 2 0
    let rows := ((sessions.takeWhile hasText).map listRow).map (TextTable.line widths)
    { lines := heading :: TextTable.line widths table.headers :: rows, result := .error notPaddable }

def listSessions (db : String) (json : Bool) (s : Store) : Printed :=
  match s.listSessions with
  | .error f => ends f
  | .ok sessions =>
    if json then
      { lines := [(Value.list (sessions.map fun x => .record x.fields)).toJson.indented] }
    else if sessions.isEmpty then { lines := ["No sessions recorded in " ++ db ++ "."] }
    else listPrinted db sessions

/-! ## Show -/

def showHeaders : List String := ["Task", "Status", "Code", "Duration"]

def showRow (r : ResultRow) : List String :=
  [r.task, r.status.text, r.returnCode.text, r.duration.fixed 3 ++ "s"]

def showTable (results : List ResultRow) : TextTable :=
  { headers := showHeaders, rows := results.map showRow }

def showPrinted (s : Session) (results : List ResultRow) : List String :=
  ("Session " ++ Binary64.integerText s.id ++ " (version " ++ s.version ++ ", started "
      ++ s.start.shown.describe ++ "):")
    :: (if results.isEmpty then ["No results recorded."] else (showTable results).lines)

def showSession (id : Binary64) (json : Bool) (s : Store) : Printed :=
  match s.getSession id with
  | .error f => ends f
  | .ok none => ends (Store.notPresent id.text)
  | .ok (some session) =>
    match s.listResults id with
    | .error f => ends f
    | .ok results =>
      if json then
        { lines :=
            [(Value.record
              [("session", .record session.fields),
                ("results", .list (results.map fun r => .record r.fields))]).toJson.indented] }
      else { lines := showPrinted session results }

/-! ## Opening -/

def title : String := "Sessions command failed."

def context (db : String) : ReportContext :=
  { title
    notFoundHint :=
      some ("Run `judge-harness sessions list --db " ++ db ++ "` to see recorded sessions.") }

/-- There is no database to read. -/
def noDatabase (db : String) : Failure :=
  .report .notFound title ("No result database at " ++ db ++ ".")
    (some "Pass --db with the path used by `judge-harness batch`.") none none .unknown

/-- Opens a database that exists, lets a command read it, and reports a failure. -/
def withStore (files : FileTree) (base : Location) (db : String) (read : Store → Printed) :
    FileTree × Printed :=
  if (files.find? base db).isNone then (files, ends (noDatabase db))
  else match Connection.connect files base db with
    | (files, .error f) => (files, ends (f.toReport (context db)))
    | (files, .ok c) =>
      let printed := read (c.store files)
      (files, { printed with result := printed.result.mapError (·.toReport (context db)) })

end SessionsCommand

end Bailiff

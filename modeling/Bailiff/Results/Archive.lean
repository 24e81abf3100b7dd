-- SUMMARY: Result databases in a file tree, and numbered connections to them.
import Bailiff.Files.Tree
import Bailiff.Results.Loose

/-!
# Archives

`Connection.connect` opens the database of a path, or makes it. An `Archive` is a file tree with the
connections opened so far; connections to the same file share its data. `Archive.perform` answers one
request on one of them.
-/

namespace Bailiff

/-- Where the data of a connection is: in a file, or nowhere but in the connection. -/
inductive Place where
  | file (l : Location)
  | unnamed (db : Database)
  deriving DecidableEq, Repr

structure Connection where
  path : String
  place : Place
  isOpen : Bool := true
  deriving DecidableEq, Repr

namespace Connection

/-- The store behind a connection. -/
def store (files : FileTree) (c : Connection) : Store :=
  match c.place with
  | .unnamed db => { db, isOpen := c.isOpen }
  | .file l =>
    match files.at? l with
    | some (.database db) => { db, isOpen := c.isOpen }
    | _ => { db := {}, isOpen := c.isOpen }

/-- Keeps a changed store. -/
def commit (files : FileTree) (c : Connection) (s : Store) : FileTree × Connection :=
  match c.place with
  | .unnamed _ => (files, { c with place := .unnamed s.db, isOpen := s.isOpen })
  | .file l => (files.put l (.database s.db), { c with isOpen := s.isOpen })

def cannotOpen (path reason : String) : Failure :=
  .because .storage ("Cannot open result store at " ++ path ++ ": " ++ reason) (.plain reason)

/-- The database at the end of a path, or a new one. -/
def databaseAt (files : FileTree) (l : Location) : Except String Database :=
  match files.at? l with
  | none => .ok {}
  | some (.database db) => .ok db
  | some (.file content) => if content.isEmpty then .ok {} else .error "file is not a database"
  | some .directory => .error "unable to open database file"
  | some _ => .error "file is not a database"

/-- Opens the store of a path. Its directory is made first, the path as written must then lead
somewhere, and the tables must fit. -/
def connect (files : FileTree) (base : Location) (path : String) :
    FileTree × Except Failure Connection :=
  let parent := Path.directory (Path.resolve (Path.ofParts base) path)
  match files.makeDirectories base parent with
  | .error fault => (files, .error (cannotOpen path fault.message))
  | .ok files =>
    let name := trimBlanks path
    if name.isEmpty || name = ":memory:" then
      (files, .ok { path, place := .unnamed (Database.withTables {}) })
    else if (files.find? base (Path.directory name)).isNone then
      (files, .error (cannotOpen path "Cannot open database because the directory does not exist"))
    else match files.locate base name with
      | .error _ => (files, .error (cannotOpen path "unable to open database file"))
      | .ok l =>
        match databaseAt files l with
        | .error reason => (files, .error (cannotOpen path reason))
        | .ok db =>
          let (db, verdict) := Store.prepare db
          (files.put l (.database db), verdict.map fun () => { path, place := .file l })

end Connection

/-! ## Rows as values -/

def Session.fields (s : Session) : List (String × Value) :=
  [("id", .int s.id), ("version", .text s.version), ("startTime", s.start.toValue)]

def Database.Summary.fields (s : Database.Summary) : List (String × Value) :=
  s.session.fields ++
    [("total", .nat s.total), ("ok", .nat s.ok), ("failed", .nat s.failed),
      ("killed", .nat s.killed)]

def ResultRow.fields (r : ResultRow) : List (String × Value) :=
  [("taskName", .text r.task), ("sessionId", .int r.session), ("startTime", r.start.toValue),
    ("durationSeconds", .number r.duration), ("killed", .bool r.killed),
    ("stdout", .text r.stdout.decode), ("stderr", .text r.stderr.decode),
    ("returnCode", .number r.returnCode)]

/-! ## Requests -/

/-- What can be asked of a connection. -/
inductive Request where
  | begin (version : Value) (now : Binary64)
  | resume (id : Value)
  | get (id : Value)
  | has (session task : Value)
  | record (session task start duration : Value) (outcome : Store.LooseOutcome)
  | sessions
  | results (session : Value)
  | status (session : Value)
  | path
  | close

/-- The answer of a store to a request, and the store afterwards. -/
def Store.answer (s : Store) (path : String) : Request → Store × Except Failure Value
  | .begin version now =>
    match s.beginSessionWith version now with
    | .ok (s, id) => (s, .ok (.int id))
    | .error f => (s, .error f)
  | .resume id => (s, s.resumeSessionWith id)
  | .get id =>
    (s, (s.getSessionWith id).map fun found => found.elim .null fun x => .record x.fields)
  | .has session task => (s, (s.hasResultWith session task).map .bool)
  | .record session task start duration outcome =>
    match s.recordResultWith session task start duration outcome with
    | .ok s => (s, .ok .absent)
    | .error f => (s, .error f)
  | .sessions => (s, s.listSessions.map fun rows => .list (rows.map fun r => .record r.fields))
  | .results session =>
    (s, (s.listResultsWith session).map fun rows => .list (rows.map fun r => .record r.fields))
  | .status session =>
    (s, (s.listResultsWith session).map fun rows => .texts (rows.map fun r => r.status.text))
  | .path => (s, .ok (.text path))
  | .close => (s.close, .ok .absent)

structure Archive where
  files : FileTree
  base : Location
  connections : List Connection := []

namespace Archive

/-- Opens one more connection and gives its number. -/
def connect (a : Archive) (path : String) : Archive × Except Failure Nat :=
  match Connection.connect a.files a.base path with
  | (files, .error f) => ({ a with files }, .error f)
  | (files, .ok c) =>
    ({ a with files, connections := a.connections ++ [c] }, .ok a.connections.length)

/-- Answers a request on a connection, if there is one of that number. -/
def perform (a : Archive) (number : Nat) (r : Request) : Option (Archive × Except Failure Value) :=
  (a.connections[number]?).map fun c =>
    let (s, answer) := (c.store a.files).answer c.path r
    let (files, c) := c.commit a.files s
    ({ a with files, connections := a.connections.set number c }, answer)

end Archive

end Bailiff

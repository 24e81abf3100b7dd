-- SUMMARY: A tree of files: looking paths up through links, and the operations that change the tree.
import Bailiff.Files.Path
import Bailiff.Results.Database
import Bailiff.Failure

/-!
# File tree

The tree is a list of entries under their absolute locations (lists of names). Paths are walked part
by part and through links. Every operation either fails with a `FileFault` and changes nothing that
it does not name, or gives the new tree.
-/

namespace Bailiff

/-! ## Entries -/

/-- A program: what it prints and writes in this order, and how it ends. -/
structure Script where
  showArgs : Bool := false
  /-- The environment variable whose value is printed. -/
  showEnv : Option String := none
  showWorkDir : Bool := false
  /-- The file that receives the arguments. -/
  argsFile : Option String := none
  stdout : Output := .text ""
  stderr : Output := .text ""
  /-- Whether it goes on for longer than anyone waits. -/
  lasting : Bool := false
  /-- The signal, without its first letters, by which it ends itself. -/
  signal : Option String := none
  exit : Int := 0
  deriving DecidableEq, Repr

inductive Device where
  | null
  | full
  deriving DecidableEq, Repr

inductive Node where
  | directory
  | file (content : String)
  | link (target : String)
  | program (script : Script) (executable : Bool)
  | database (db : Database)
  | device (d : Device)
  deriving DecidableEq, Repr

/-- The names on the way from the root. -/
abbrev Location := List String

structure FileTree where
  entries : List (Location × Node) := []
  deriving DecidableEq, Repr

/-! ## Faults -/

inductive FaultCode where
  | noEntry
  | notDirectory
  | exists
  | isDirectory
  | loop
  | noSpace
  | invalid
  | denied
  deriving DecidableEq, Repr

def FaultCode.code : FaultCode → String
  | noEntry => "ENOENT"
  | notDirectory => "ENOTDIR"
  | .exists => "EEXIST"
  | isDirectory => "EISDIR"
  | loop => "ELOOP"
  | noSpace => "ENOSPC"
  | invalid => "EINVAL"
  | denied => "EACCES"

def FaultCode.text : FaultCode → String
  | noEntry => "no such file or directory"
  | notDirectory => "not a directory"
  | .exists => "file already exists"
  | isDirectory => "illegal operation on a directory"
  | loop => "too many symbolic links encountered"
  | noSpace => "no space left on device"
  | invalid => "invalid argument"
  | denied => "permission denied"

/-- A failed call on a file, with the path as the call was given it. -/
structure FileFault where
  code : FaultCode
  call : String
  path : Option String
  deriving DecidableEq, Repr

def FileFault.message (f : FileFault) : String :=
  let site := f.path.elim "" fun p => " '" ++ p ++ "'"
  f.code.code ++ ": " ++ f.code.text ++ ", " ++ f.call ++ site

def FileFault.failure (f : FileFault) : Failure := .plain f.message

namespace FileTree

/-! ## Looking up -/

/-- The entry at a location. The root is a directory. -/
def at? (t : FileTree) (l : Location) : Option Node :=
  if l.isEmpty then some .directory else (t.entries.find? fun e => e.1 = l).map (·.2)

/-- The tree with an entry put in place. -/
def put (t : FileTree) (l : Location) (n : Node) : FileTree :=
  if t.entries.any fun e => e.1 = l then
    ⟨t.entries.map fun e => if e.1 = l then (l, n) else e⟩
  else ⟨t.entries ++ [(l, n)]⟩

/-- How many links one path may lead through. -/
def maxLinks : Nat := 40

/-- Walks parts of a path from a location. Links on the way are followed, a link at the end only if
`follow` is set. The location reached need not hold an entry, but the way to it must. -/
def walk (t : FileTree) (follow : Bool) (links : Nat) (here : Location) (parts : List String) :
    Except FaultCode Location :=
  match parts with
  | [] => .ok here
  | part :: rest =>
    if part = "" ∨ part = "." then
      walk t follow links here rest
    else if part = ".." then
      walk t follow links here.dropLast rest
    else
      let child := here ++ [part]
      match t.at? child with
      | some (.link target) =>
        if rest.isEmpty && !follow then .ok child
        else match links with
          | 0 => .error .loop
          | links + 1 =>
            walk t follow links (if Path.isAbsolute target then [] else here)
              (Path.parts target ++ rest)
      | some .directory => walk t follow links child rest
      | some _ => if rest.isEmpty then .ok child else .error .notDirectory
      | none => if rest.isEmpty then .ok child else .error .noEntry
termination_by (links, parts.length)

/-- Where a path leads from a location. -/
def locate (t : FileTree) (base : Location) (path : String) : Except FaultCode Location :=
  if path.isEmpty then .error .noEntry
  else t.walk true maxLinks (if Path.isAbsolute path then [] else base) (Path.parts path)

/-- The entry that a path leads to. -/
def find? (t : FileTree) (base : Location) (path : String) : Option Node :=
  match t.locate base path with
  | .ok l => t.at? l
  | .error _ => none

/-- The text of the file that a path leads to. -/
def read? (t : FileTree) (base : Location) (path : String) : Option String :=
  match t.find? base path with
  | some (.file content) => some content
  | _ => none

/-- The names directly below a location. -/
def names (t : FileTree) (l : Location) : List String :=
  t.entries.filterMap fun e => if e.1.dropLast = l then e.1.getLast? else none

/-! ## Directories -/

/-- Makes the directories on the way along parts of a path, where they are missing. -/
def makeWay (t : FileTree) (here : Location) : List String → Except FaultCode FileTree
  | [] => .ok t
  | part :: rest =>
    if part = "" ∨ part = "." then t.makeWay here rest
    else if part = ".." then t.makeWay here.dropLast rest
    else
      let child := here ++ [part]
      match t.at? child with
      | none => (t.put child .directory).makeWay child rest
      | some .directory => t.makeWay child rest
      | some (.link _) =>
        match t.walk true maxLinks here [part] with
        | .ok l =>
          if t.at? l = some .directory then t.makeWay l rest
          else .error (if rest.isEmpty then .exists else .notDirectory)
        | .error e => .error e
      | some _ => .error (if rest.isEmpty then .exists else .notDirectory)

/-- Makes a directory and all directories above it. -/
def makeDirectories (t : FileTree) (base : Location) (path : String) :
    Except FileFault FileTree :=
  (t.makeWay (if Path.isAbsolute path then [] else base) (Path.parts path)).mapError
    fun code => ⟨code, "mkdir", some path⟩

/-- Makes a directory whose name is a beginning and a number of six digits. A link that has this name is in the
way and is not followed. -/
def makeTemporary (t : FileTree) (base : Location) (stem : String) (number : Nat) :
    Except FileFault (FileTree × String) :=
  let path := stem ++ String.ofList (Instant.zeroPadded 6 number)
  match t.walk false maxLinks (if Path.isAbsolute path then [] else base) (Path.parts path) with
  | .error code => .error ⟨code, "mkdtemp", some (stem ++ "XXXXXX")⟩
  | .ok l =>
    if (t.at? l).isSome then .error ⟨.exists, "mkdtemp", some (stem ++ "XXXXXX")⟩
    else .ok (t.put l .directory, path)

/-- The tree without a location and everything below it. -/
def remove (t : FileTree) (l : Location) : FileTree :=
  ⟨t.entries.filter fun e => !l.isPrefixOf e.1⟩

/-! ## Files -/

/-- Opens a file for writing, without making directories. A missing file is made. -/
def openFile (t : FileTree) (base : Location) (path : String) :
    Except FileFault (FileTree × Location) :=
  let fault (code : FaultCode) : FileFault := ⟨code, "open", some path⟩
  match t.locate base path with
  | .error code => .error (fault code)
  | .ok l =>
    let asDirectory := path.toList.getLast? = some '/'
    match t.at? l with
    | some .directory => .error (fault .isDirectory)
    | some _ => if asDirectory then .error (fault .notDirectory) else .ok (t, l)
    | none => if asDirectory then .error (fault .isDirectory) else .ok (t.put l (.file ""), l)

/-- Writes to an open file what `change` makes of its content. -/
def write (t : FileTree) (l : Location) (change : String → String) : Except FileFault FileTree :=
  match t.at? l with
  | some (.device .full) => .error ⟨.noSpace, "write", none⟩
  | some (.device .null) => .ok t
  | some (.file content) => .ok (t.put l (.file (change content)))
  | _ => .ok (t.put l (.file (change "")))

/-- Writes a text as the whole content of a file, making the directories above it. -/
def writeText (t : FileTree) (base : Location) (path content : String) :
    FileTree × Except FileFault Unit :=
  match t.makeDirectories base (Path.directory path) with
  | .error e => (t, .error e)
  | .ok t =>
    match t.openFile base path with
    | .error e => (t, .error e)
    | .ok (t, l) =>
      match t.write l fun _ => content with
      | .error e => (t, .error e)
      | .ok t => (t, .ok ())

/-- Opens a file to be appended to, making the directories above it. -/
def openLog (t : FileTree) (base : Location) (path : String) :
    FileTree × Except FileFault Location :=
  match t.makeDirectories base (Path.directory path) with
  | .error e => (t, .error e)
  | .ok t =>
    match t.openFile base path with
    | .error e => (t, .error e)
    | .ok (t, l) => (t, .ok l)

/-- The tree with a text added to the end of a file. -/
def append (t : FileTree) (l : Location) (text : String) : FileTree :=
  match t.write l fun content => content ++ text with
  | .ok t => t
  | .error _ => t

end FileTree

end Bailiff

-- SUMMARY: Listing the directories at a path whose names match, as listings read paths and names.
import Bailiff.Files.Tree

/-!
# Listings

A listing takes every backslash of a path for a slash, so the place that it walks may not be the one
that the path names. An entry is matched by its `Listing.key`: a dot and a backslash before its name
do not count. Of two entries of one key only the first is listed.
-/

namespace Bailiff

/-- A path with slashes for its backslashes. -/
def Path.slashed (p : String) : String :=
  String.ofList (p.toList.map fun c => if c = '\\' then '/' else c)

namespace Listing

/-- The place that a listing of a path walks. -/
def place (base : Location) (path : String) : String :=
  Path.slashed (Path.resolve (Path.ofParts base) path)

/-- What an entry is matched by. -/
def key (name : String) : String :=
  match name.toList with
  | '.' :: '\\' :: rest => String.ofList rest
  | _ => name

/-- The first name of each key. -/
def firsts : List String → List String
  | [] => []
  | name :: rest => name :: (firsts rest).filter fun other => key other ≠ key name

/-- The names that match, each key once. -/
def matched (wanted : String → Bool) (names : List String) : List String :=
  firsts (names.filter fun name => wanted (key name))

end Listing

namespace FileTree

/-- Whether a location holds a directory or a link to one. -/
def leadsToDirectory (t : FileTree) (dir : Location) (name : String) : Bool :=
  match t.walk true maxLinks dir [name] with
  | .ok l => t.at? l = some .directory
  | .error _ => false

/-- The names of the directories, and of the links to directories, at the place that a listing of a
path walks, in the order of their characters. One that does not exist has none. -/
def directoriesIn (t : FileTree) (base : Location) (path : String) :
    Except FileFault (List String) :=
  let walked := Listing.place base path
  match t.locate [] walked with
  | .error .noEntry => .ok []
  | .error code => .error ⟨code, "scandir", some walked⟩
  | .ok l =>
    match t.at? l with
    | none => .ok []
    | some .directory => .ok (((t.names l).mergeSort Text.pointsLE).filter (t.leadsToDirectory l))
    | some _ => .error ⟨.notDirectory, "scandir", some walked⟩

end FileTree

end Bailiff

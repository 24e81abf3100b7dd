-- SUMMARY: Paths as texts: resolving, joining, and the directory part.

/-!
# Paths

A path is a text whose parts are separated by slashes. `Path.resolve` gives the absolute path
without empty, `.` and `..` parts.
-/

namespace Bailiff.Path

/-- The parts of a text between slashes, empty ones included. -/
def splitSlashes : List Char → List (List Char)
  | [] => [[]]
  | c :: rest =>
    if c = '/' then [] :: splitSlashes rest
    else match splitSlashes rest with
      | [] => [[c]]
      | part :: more => (c :: part) :: more

/-- The parts of a path, empty ones included. -/
def parts (p : String) : List String := (splitSlashes p.toList).map String.ofList

def isAbsolute (p : String) : Bool := p.toList.head? = some '/'

/-- Takes one part below a directory given by its parts in reverse. The root is its own parent. -/
def enter (dir : List String) (part : String) : List String :=
  if part = "" ∨ part = "." then dir
  else if part = ".." then dir.tail
  else part :: dir

/-- The parts of a path below a directory, both without empty, `.` and `..` parts. -/
def resolveParts (dir : List String) (p : String) : List String :=
  ((parts p).foldl enter (if isAbsolute p then [] else dir.reverse)).reverse

/-- The absolute path with the given parts. -/
def ofParts (ps : List String) : String := "/" ++ "/".intercalate ps

/-- The absolute form of a path, seen from a directory. -/
def resolve (dir p : String) : String := ofParts (resolveParts (resolveParts [] dir) p)

/-- Takes one part of a path that may be relative; there, a leading `..` stays. -/
def enterLoose (absolute : Bool) (dir : List String) (part : String) : List String :=
  if part = "" ∨ part = "." then dir
  else if part = ".." then
    match dir with
    | [] => if absolute then [] else [".."]
    | ".." :: _ => ".." :: dir
    | _ :: up => up
  else part :: dir

/-- The path without empty and `.` parts, and without `..` where it can be resolved. A final slash
stays. -/
def normalize (p : String) : String :=
  let absolute := isAbsolute p
  let body := "/".intercalate ((parts p).foldl (enterLoose absolute) []).reverse
  let slash := if p.toList.getLast? = some '/' then "/" else ""
  if body.isEmpty then (if absolute then "/" else if slash.isEmpty then "." else "./")
  else (if absolute then "/" else "") ++ body ++ slash

/-- Paths one below the other. -/
def join (ps : List String) : String :=
  let whole := "/".intercalate (ps.filter (!·.isEmpty))
  if whole.isEmpty then "." else normalize whole

/-- The part of a path before its last name, as it is written. -/
def directory (p : String) : String :=
  let cs := p.toList
  let root := cs.head? = some '/'
  match (cs.reverse.dropWhile (· = '/')).dropWhile (· ≠ '/') with
  | [] => if root then "/" else "."
  | _ :: rest =>
    if rest.isEmpty then "/" else if root ∧ rest = ['/'] then "//" else String.ofList rest.reverse

end Bailiff.Path

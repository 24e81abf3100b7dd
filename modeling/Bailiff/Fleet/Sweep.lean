-- SUMMARY: Removing the stores below a root, one by one, with a report of what was removed and what was not.
import Bailiff.Fleet.Stores
import Bailiff.Files.Listing
import Bailiff.Log.Event

/-!
# Sweeps

A sweep lists the stores below a root once and then removes them in order. Nothing that goes wrong
ends it: a root that cannot be listed gives an empty report, and a store that cannot be removed is
reported as failed. A listing takes backslashes for slashes, in the path of the root that it reads and
in the paths of the stores that it gives. So what is walked for a root with a backslash is another place,
and what is removed for a store with a backslash in its name is not that store.
-/

namespace Bailiff

namespace Sweep

inductive Phase where
  | idle
  | scanning
  | removing (rest : List String)
  | done
  deriving DecidableEq, Repr

end Sweep

structure Sweep where
  root : String
  phase : Sweep.Phase := .idle
  removed : List String := []
  failed : List String := []
  deriving DecidableEq, Repr

namespace Sweep

def note (level : Level) (type : String) (payload : List (String × Value)) : Event :=
  { type, level := .known level, payload }

/-- The path under which a listing of a root shows a name: the absolute one, with slashes for
backslashes. -/
def listedPath (root name : String) : String := Path.slashed (Path.resolve root name)

/-- The paths of the stores that a listing of a root finds, in order. -/
def storesBelow (files : FileTree) (root : String) : Except FileFault (List String) :=
  (files.directoriesIn [] root).map fun names =>
    Text.sortByUnits ((Listing.matched Stores.isStoreName names).map (listedPath root))

/-- The tree without what a path names, which may be nothing. A link is removed itself, not what it
leads to. -/
def removePath (files : FileTree) (path : String) : Except FileFault FileTree :=
  match files.walk false FileTree.maxLinks [] (Path.parts path) with
  | .ok l => .ok (files.remove l)
  | .error .noEntry => .ok files
  | .error code => .error ⟨code, "lstat", some path⟩

def isDone (s : Sweep) : Bool := s.phase = .done

/-- Begins the sweep. -/
def start (s : Sweep) : Sweep × List Event :=
  ({ s with phase := .scanning },
    [note .debug "cleanup.start" [("store_root", .text s.root)]])

/-- What is left to remove. When nothing is, the sweep is complete. -/
def goOn (s : Sweep) (rest : List String) : Sweep × List Event :=
  if rest.isEmpty then
    ({ s with phase := .done },
      [note .debug "cleanup.complete"
        [("removed", .nat s.removed.length), ("failed", .nat s.failed.length)]])
  else ({ s with phase := .removing rest }, [])

/-- A store could not be removed. -/
def keeps (s : Sweep) (store : String) (rest : List String) (fault : FileFault) : Sweep × List Event :=
  let (s, events) := { s with failed := s.failed ++ [store] }.goOn rest
  (s,
    note .warn "cleanup.remove.failed" [("store", .text store), ("error", .text fault.message)]
      :: events)

/-- A store has been removed. -/
def drops (s : Sweep) (store : String) (rest : List String) : Sweep × List Event :=
  let (s, events) := { s with removed := s.removed ++ [store] }.goOn rest
  (s, note .debug "cleanup.removed" [("store", .text store)] :: events)

/-- The root could not be listed. -/
def givesUp (s : Sweep) (fault : FileFault) : Sweep × List Event :=
  ({ s with phase := .done },
    [note .warn "cleanup.scan.failed"
      [("store_root", .text s.root), ("error", .text fault.message)]])

/-- The next step on the files: the root is listed, or one store is removed. A fault keeps the files
as they are. -/
def step (fault : Option FileFault) (files : FileTree) (s : Sweep) : FileTree × Sweep × List Event :=
  match s.phase with
  | .scanning =>
    match fault.elim (storesBelow files s.root) .error with
    | .error fault => (files, s.givesUp fault)
    | .ok stores => (files, s.goOn stores)
  | .removing (store :: rest) =>
    match fault.elim (removePath files store) .error with
    | .error fault => (files, s.keeps store rest fault)
    | .ok files => (files, s.drops store rest)
  | _ => (files, s, [])

/-- Takes a number of steps. -/
def steps (fault? : String → Option FileFault) : Nat → FileTree → Sweep → FileTree × Sweep × List Event
  | 0, files, s => (files, s, [])
  | n + 1, files, s =>
    let fault := match s.phase with
      | .removing (store :: _) => fault? store
      | _ => none
    let (files, s, events) := s.step fault files
    let (files, s, more) := steps fault? n files s
    (files, s, events ++ more)

/-- A whole sweep: one step to list the root and one for each store. -/
def run (fault? : String → Option FileFault) (files : FileTree) (root : String) :
    FileTree × Sweep × List Event :=
  let (s, begun) := ({ root } : Sweep).start
  let count := ((storesBelow files root).toOption.getD []).length
  let (files, s, events) := steps fault? (count + 1) files s
  (files, s, begun ++ events)

end Sweep

end Bailiff

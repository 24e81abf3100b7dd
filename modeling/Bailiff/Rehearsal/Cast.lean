-- SUMMARY: Pretended processes: how they start, and how they end when they are left alone or asked to.
import Bailiff.Fleet.Launch
import Bailiff.Process.Launch
import Bailiff.Rehearsal.Waiting

namespace Bailiff.Rehearsal

/-- How the start of a process turns out: it runs, the start itself fails, or there is no program. -/
inductive Entrance where
  | runs
  | throws (message : String)
  | missing (failure : Failure)
  deriving Repr

/-- How a process ends when it is left alone. -/
inductive Fate where
  | exits (after : Nat) (code : Int)
  | fails (after : Nat) (message : String)
  | lasts
  deriving DecidableEq, Repr

structure Actor where
  entrance : Entrance := .runs
  fate : Fate := .exits 0 0
  ignoresStop : Bool := false
  ignoresTerminate : Bool := false
  /-- What it does to the files when it starts. -/
  effect : FileTree → FileTree := id

/-- What is seen of a process. -/
inductive Sight where
  | start (command : CommandLine)
  | exit (code : Int)
  | failed
  | terminate
  | release
  deriving DecidableEq, Repr

/-- Who plays the process that is started for a role. -/
abbrev Cast := FileTree → Role → CommandLine → Actor

/-- The process id after a number of starts, in a rehearsal that counts them. -/
def countedId (starts : Nat) : Nat := 1001 + starts

/-- Every start that does not fail takes one process id, which is not shown without a program. -/
def Cast.launcher (c : Cast) (ids : Nat → Nat) : Fleet.Launcher := fun files starts role command =>
  match (c files role command).entrance with
  | .throws message => .error (.plain message)
  | .missing _ => .ok none
  | .runs => .ok (some (ids starts))

/-- The exit code of a process that is asked to end. -/
def stoppedCode : Int := 143

/-- The failure of a process without a program. -/
def missingProgram (file code : String) : Failure :=
  .trouble .processSpawn ("Failed to start " ++ file ++ ": " ++ code) none (some code) .unknown

/-- A cast of one actor for each role. Workers beyond the list exit at once. -/
def Cast.ofRoles (server shell : CommandLine → Actor) (workers : List (CommandLine → Actor)) : Cast :=
  fun _ role command =>
    match role with
    | .server => server command
    | .shell => shell command
    | .worker n => (workers[n - 1]?).elim {} (· command)

/-- The milliseconds that a program of the file tree takes, and those that a lasting one takes. -/
def programMs (lasting : Bool) : Nat := if lasting then 30000 else 2

/-- A cast of the programs of the file tree. -/
def Cast.ofPrograms (base : Location) : Cast := fun files _ command =>
  match files.program? base command.file with
  | .error fault => { entrance := .missing (command.spawnFailure fault) }
  | .ok script =>
    { fate := match command.exitCode script.ending with
        | .ok code => .exits (programMs script.lasting) code
        | .error _ => .lasts
      effect := fun files => script.effect files base command.args }

end Bailiff.Rehearsal

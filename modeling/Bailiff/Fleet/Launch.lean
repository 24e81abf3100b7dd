-- SUMMARY: The processes of a fleet, and how server and workers are started.
import Bailiff.Fleet.Commands
import Bailiff.Fleet.Stores
import Bailiff.Log.Event
import Bailiff.Files.Tree

/-!
# Launching

A launcher answers each start with a process id, if there is one, or with a failure. Starting a
process has the effects that a `Launching` collects in order: what is logged, and the start itself.
-/

namespace Bailiff

/-! ## Processes -/

/-- What a process does in a fleet. Workers are counted from one. -/
inductive Role where
  | server
  | shell
  | worker (number : Nat)
  deriving DecidableEq, Repr

namespace Role

def label : Role → String
  | server => "server"
  | shell => "shell"
  | worker n => Stores.workerLabel n

def isWorker : Role → Bool
  | worker _ => true
  | _ => false

end Role

/-- How far a process has come. -/
inductive Course where
  | running
  | exited (code : Int)
  | failed (failure : Failure)
  deriving Repr

namespace Course

def isRunning : Course → Bool
  | running => true
  | _ => false

def code? : Course → Option Int
  | exited c => some c
  | _ => none

end Course

/-- A process that has been started. -/
structure Child where
  role : Role
  course : Course := .running
  /-- Whether it has been asked to end. -/
  terminated : Bool := false
  /-- Whether nothing waits for it any more. -/
  released : Bool := false
  deriving Repr

namespace Fleet

/-! ## Effects -/

/-- What a step of a fleet does outside of it. -/
inductive Effect where
  | log (e : Event)
  | launch (role : Role) (command : CommandLine)
  | terminate (role : Role)
  | release (role : Role)
  /-- The workers begin to wait until the server is ready. -/
  | awaitReadiness
  /-- The time begins in which the workers may still end. -/
  | openWindow
  deriving Repr

def note (level : Level) (type : String) (payload : List (String × Value)) : Effect :=
  .log { type, level := .known level, payload }

/-- Whoever starts programs. The answer may depend on the files and on how many processes have been
started before. -/
abbrev Launcher := FileTree → Nat → Role → CommandLine → Except Failure (Option Nat)

end Fleet

open Fleet

/-- Starts that have been made, and what they did. -/
structure Launching where
  children : List Child := []
  starts : Nat := 0
  effects : List Effect := []
  deriving Repr

namespace Launching

def add (l : Launching) (effects : List Effect) : Launching :=
  { l with effects := l.effects ++ effects }

/-- Starts one process. -/
def start (launcher : Launcher) (files : FileTree) (role : Role) (command : CommandLine)
    (l : Launching) : Launching × Except Failure (Option Nat) :=
  let answer := launcher files l.starts role command
  let l := l.add [.launch role command]
  match answer with
  | .error f => (l, .error f)
  | .ok id =>
    ({ l with children := l.children ++ [{ role }], starts := l.starts + 1 }, .ok id)

/-- Starts the server on its store. -/
def server (launcher : Launcher) (files : FileTree) (tools : ToolSettings) (store : String)
    (l : Launching) : Launching × Except Failure Unit :=
  match tools.serverCommand store with
  | .error f => (l, .error f)
  | .ok command =>
    let l := l.add
      [note .debug "process.exec" [("command", .text command.render)],
        note .info "server.start" [("store", .text store)]]
    let (l, answer) := l.start launcher files .server command
    (l, answer.map fun _ => ())

/-- Starts one worker on its store. -/
def worker (launcher : Launcher) (files : FileTree) (tools : ToolSettings) (number : Nat)
    (store : String) (l : Launching) : Launching × Except Failure (Option Nat) :=
  match tools.workerCommand store with
  | .error f => (l, .error f)
  | .ok command =>
    let l := l.add
      [note .debug "process.exec" [("command", .text command.render)],
        note .info "worker.start"
          [("store", .text store), ("server_addr", .text tools.serverAddr)]]
    match l.start launcher files (.worker number) command with
    | (l, .error f) => (l, .error f)
    | (l, .ok id) =>
      (l.add [note .debug "worker.started"
          [("label", .text (Role.worker number).label), ("pid", Value.orNull Value.nat id)]],
        .ok id)

/-- Starts one worker on each store, up to the first that cannot be started. -/
def workers (launcher : Launcher) (files : FileTree) (tools : ToolSettings) (number : Nat) :
    List String → Launching → Launching × Except Failure (List (Role × Option Nat))
  | [], l => (l, .ok [])
  | store :: rest, l =>
    match l.worker launcher files tools number store with
    | (l, .error f) => (l, .error f)
    | (l, .ok id) =>
      let (l, answer) := workers launcher files tools (number + 1) rest l
      (l, answer.map ((Role.worker number, id) :: ·))

end Launching

end Bailiff

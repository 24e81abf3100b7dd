-- SUMMARY: Work under a cleanup that runs exactly once, whether the work ends or a signal interrupts it.
import Bailiff.Log.Event

/-!
# Cleanup scopes

A scope listens for signals while its work goes on. The end of the work, or the first signal, starts
the cleanup; when the cleanup has ended, a signal leads to one exit with the code of the first
signal, and the scope settles with what the work gave. The scope is a state and a step for each thing
that can happen; a step answers with the `Effect`s it has outside.
-/

namespace Bailiff

namespace Scope

/-- How far the cleanup has come. -/
inductive Cleanup where
  | idle
  | running
  | finished
  deriving DecidableEq, Repr

/-- What a step does outside of the scope. -/
inductive Effect where
  | log (e : Event)
  | attach (signal : String)
  | detach (signal : String)
  /-- The work is asked to stop. -/
  | stop (reason : String)
  | beginCleanup
  | exit (code : Int)
  deriving Repr

/-- The signals that end a program unless others are given. -/
def defaultCodes : List (String × Int) := [("SIGINT", 130), ("SIGTERM", 143)]

/-- The code for a signal without one of its own. -/
def otherCode : Int := 1

end Scope

/-- A scope around work that gives a value of type `α`. -/
structure Scope (α : Type) where
  /-- The signals with their exit codes. -/
  codes : List (String × Int) := Scope.defaultCodes
  attached : Bool := false
  /-- The first signal. -/
  reason : Option String := none
  /-- What the work gave, once it has ended. -/
  work : Option (Except Failure α) := none
  cleanup : Scope.Cleanup := .idle
  exited : Bool := false
  settled : Bool := false

namespace Scope

variable {α : Type}

/-- The signals that are listened for. Other names in the table have no listener. -/
def registered (s : Scope α) : List String :=
  (s.codes.map (·.1)).filter fun name => ['S', 'I', 'G'].isPrefixOf name.toList

/-- The exit code of a signal. -/
def codeOf (s : Scope α) (signal : String) : Int :=
  ((s.codes.find? fun c => c.1 = signal).map (·.2)).getD otherCode

/-- Begins to listen. -/
def enter (s : Scope α) : Scope α × List Effect :=
  ({ s with attached := true }, s.registered.map .attach)

/-- Starts the cleanup, unless it has been started before. -/
def startCleanup (s : Scope α) : Scope α × List Effect :=
  match s.cleanup with
  | .idle => ({ s with cleanup := .running }, [.beginCleanup])
  | _ => (s, [])

/-- A signal arrives under one name and says that it is another, or the same. Without a listener
nothing happens, and after the first signal it is only noted. -/
def signal (s : Scope α) (heard named : String) : Scope α × List Effect :=
  if s.attached && s.registered.contains heard then
    if s.reason.isSome then
      (s, [.log { type := "shutdown.signal.ignored", level := .known .debug,
                  payload := [("signal", .text named)] }])
    else
      let (next, effects) := startCleanup { s with reason := some named }
      (next,
        .log { type := "shutdown.signal", level := .known .warn,
               payload := [("signal", .text named), ("exit_code", .int (s.codeOf named))] }
          :: .stop named :: effects)
  else (s, [])

/-- The work ends. -/
def workEnds (s : Scope α) (result : Except Failure α) : Scope α × List Effect :=
  startCleanup { s with work := some result }

/-- The cleanup ends. Its own failure is noted and goes no further. -/
def cleanupEnds (s : Scope α) (failure : Option Failure) : Scope α × List Effect :=
  ({ s with cleanup := .finished },
    match failure with
    | some f =>
      [.log { type := "cleanup.failed", level := .known .error,
              payload := [("error", .text f.message)] }]
    | none => [])

/-- Whether the exit that a signal asked for is due. -/
def exitDue (s : Scope α) : Bool := s.cleanup = .finished && s.reason.isSome && !s.exited

/-- Stops listening and exits. -/
def exit (s : Scope α) : Scope α × List Effect :=
  ({ s with attached := false, exited := true },
    s.registered.map .detach ++ (s.reason.map fun r => .exit (s.codeOf r)).toList)

/-- Whether the scope can settle. -/
def settleDue (s : Scope α) : Bool := s.cleanup = .finished && s.work.isSome && !s.settled

/-- Settles with what the work gave. Listening is left to the exit if there was a signal. -/
def settle (s : Scope α) : Scope α × List Effect :=
  if s.reason.isSome then ({ s with settled := true }, [])
  else ({ s with attached := false, settled := true }, s.registered.map .detach)

end Scope

end Bailiff

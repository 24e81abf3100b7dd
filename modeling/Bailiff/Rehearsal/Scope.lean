-- SUMMARY: A cleanup scope in virtual time, around work and a cleanup that take some time.
import Bailiff.Rehearsal.Waiting
import Bailiff.Scope

namespace Bailiff.Rehearsal

/-- What the work and the cleanup of a rehearsed scope do. -/
structure ScopePlay where
  /-- Whether the work first waits until it is asked to stop. -/
  untilStop : Bool := false
  /-- How long the work then takes. -/
  workMs : Option Nat := none
  result : Except Failure Value := .ok .absent
  cleanupMs : Option Nat := none
  cleanupFailure : Option Failure := none
  /-- Whether the cleanup is over as soon as it has begun. -/
  atOnce : Bool := false

inductive ScopeCue where
  | workEnds
  | cleanupEnds
  | signal (heard named : String)
  deriving Repr

structure ScopeStage where
  play : ScopePlay
  scope : Scope Value
  agenda : Agenda ScopeCue := {}
  /-- What comes without time passing. -/
  soon : List ScopeCue := []
  /-- Why the work was asked to stop, until it has seen that. -/
  reason : Option String := none
  /-- Whether the work is waiting to be asked to stop. -/
  waiting : Bool := false
  work : List String := []
  cleanup : List String := []
  exits : List String := []
  hostCalls : List String := []
  attached : List String := []
  events : List (Nat × Event) := []
  settledAt : Option Nat := none

namespace ScopeStage

/-- A note of something that is seen now. -/
def stamp (s : ScopeStage) (text : String) : String :=
  Binary64.integerText s.agenda.now ++ " " ++ text

/-- Lets something come after a time, or at once. -/
def arrange (s : ScopeStage) (delay : Option Nat) (c : ScopeCue) : ScopeStage :=
  match delay with
  | some ms => { s with agenda := s.agenda.add ms c }
  | none => { s with soon := s.soon ++ [c] }

def perform (s : ScopeStage) : Scope.Effect → ScopeStage
  | .log e => { s with events := s.events ++ [(s.agenda.now, e)] }
  | .attach name =>
    { s with attached := s.attached ++ [name], hostCalls := s.hostCalls ++ ["on " ++ name] }
  | .detach name =>
    { s with attached := s.attached.erase name, hostCalls := s.hostCalls ++ ["off " ++ name] }
  | .stop reason =>
    if s.waiting then
      let s := { s with waiting := false, work := s.work ++ [s.stamp ("stopped " ++ reason)] }
      { s with reason := some reason }.arrange s.play.workMs .workEnds
    else { s with reason := some reason }
  | .beginCleanup =>
    { s with cleanup := s.cleanup ++ [s.stamp "start"] }.arrange s.play.cleanupMs .cleanupEnds
  | .exit code =>
    { s with exits := s.exits ++ [s.stamp ("exit " ++ Binary64.integerText code)] }

/-- The stage after a step of the scope. -/
def after (s : ScopeStage) (step : Scope Value × List Scope.Effect) : ScopeStage :=
  step.2.foldl perform { s with scope := step.1 }

def meet (s : ScopeStage) : ScopeCue → ScopeStage
  | .workEnds =>
    let aborted := if s.reason.isSome then "true" else "false"
    let s := { s with work := s.work ++ [s.stamp ("end aborted=" ++ aborted)] }
    s.after (s.scope.workEnds s.play.result)
  | .cleanupEnds =>
    let s :=
      if s.play.atOnce || s.play.cleanupFailure.isSome then s
      else { s with cleanup := s.cleanup ++ [s.stamp "end"] }
    s.after (s.scope.cleanupEnds s.play.cleanupFailure)
  | .signal heard named => s.after (s.scope.signal heard named)

/-- One step, or none when nothing can come any more. -/
def advance? (s : ScopeStage) : Option ScopeStage :=
  match s.soon with
  | c :: rest => some ({ s with soon := rest }.meet c)
  | [] =>
    if s.scope.exitDue then some (s.after s.scope.exit)
    else if s.scope.settleDue then
      some { s.after s.scope.settle with settledAt := some s.agenda.now }
    else s.agenda.next?.map fun (c, agenda) => { s with agenda }.meet c

def run : Nat → ScopeStage → ScopeStage
  | 0, s => s
  | n + 1, s =>
    match s.advance? with
    | some s => run n s
    | none => s

/-- A rehearsal with signals at given times, up to the end of time. -/
def rehearse (play : ScopePlay) (codes : List (String × Int))
    (signals : List (Nat × String × String)) : ScopeStage :=
  let s : ScopeStage := { play, scope := { codes } }
  let s := signals.foldl (fun s x => s.arrange (some x.1) (.signal x.2.1 x.2.2)) s
  let s := s.after s.scope.enter
  let s := { s with work := [s.stamp "start"] }
  let s := if play.untilStop then { s with waiting := true } else s.arrange play.workMs .workEnds
  s.run (2 * signals.length + 20)

end ScopeStage

end Bailiff.Rehearsal

-- SUMMARY: A fleet of pretended processes in virtual time, alone or under supervision.
import Bailiff.Fleet.Supervision
import Bailiff.Rehearsal.Cast

/-!
# Rehearsals of a fleet

Every process is played by an `Actor`. A rehearsal takes whatever is due by the state
alone first, in a fixed order, and only then lets time pass. What is seen on the way is collected.
-/

namespace Bailiff.Rehearsal

/-- What comes by itself at a time. -/
inductive Cue where
  | exited (role : Role) (code : Int)
  | failed (role : Role) (failure : Failure)
  | ready
  | windowOver
  | stop
  | signal (name : String)
  deriving Repr

/-- How the wait for the server ends: after a time, or at once with an answer. -/
inductive Readiness where
  | delay (ms : Nat)
  | answers (a : Except Failure Bool)

structure Stage where
  cast : Cast
  /-- The process id after a number of starts. -/
  ids : Nat → Nat := countedId
  readiness : Readiness
  windowMs : Nat
  /-- The fault that keeps a path from being removed. -/
  fault? : String → Option FileFault := fun _ => none
  /-- Whether the fleet runs without a scope around it. -/
  alone : Bool
  supervision : Supervision
  agenda : Agenda Cue := {}
  /-- What comes before anything else, without time passing. -/
  soon : List Cue := []
  /-- The answer about the server that is there already. -/
  answer : Option (Except Failure Bool) := none
  sights : List (Nat × Role × Sight) := []
  events : List (Nat × Event) := []
  attached : List String := []
  hostCalls : List String := []
  exits : List (Nat × Int) := []
  /-- The actors of the processes that have been started. -/
  actors : List (Role × Actor) := []
  settledAt : Option Nat := none

namespace Stage

def fleet (s : Stage) : Fleet := s.supervision.fleet

def now (s : Stage) : Nat := s.agenda.now

def launcher (s : Stage) : Fleet.Launcher := s.cast.launcher s.ids

def see (s : Stage) (role : Role) (sight : Sight) : Stage :=
  { s with sights := s.sights ++ [(s.now, role, sight)] }

def arrange (s : Stage) (delay : Nat) (c : Cue) : Stage :=
  { s with agenda := s.agenda.add delay c }

def rush (s : Stage) (c : Cue) : Stage := { s with soon := s.soon ++ [c] }

def isRunning (s : Stage) (role : Role) : Bool := (s.fleet.course? role).any (·.isRunning)

/-- A process has been started: its actor takes it over. -/
def enter (s : Stage) (role : Role) (command : CommandLine) : Stage :=
  let files := s.fleet.files
  let actor := s.cast files role command
  let fleet := { s.fleet with files := actor.effect files }
  let s :=
    { s with
      supervision := { s.supervision with fleet }
      actors := s.actors ++ [(role, actor)] }
  match actor.entrance with
  | .throws _ => s
  | .missing failure => s.rush (.failed role failure)
  | .runs =>
    match actor.fate with
    | .exits after code => s.arrange after (.exited role code)
    | .fails after message => s.arrange after (.failed role (.plain message))
    | .lasts => s

/-- The actor of a process. -/
def actor (s : Stage) (role : Role) : Actor := (s.actors.lookup role).getD {}

/-- Carries out one effect. -/
def perform (s : Stage) : Supervision.Effect → Stage
  | .fleet (.log e) => { s with events := s.events ++ [(s.now, e)] }
  | .fleet (.launch role command) => (s.see role (.start command)).enter role command
  | .fleet (.terminate role) =>
    let s := s.see role .terminate
    if (s.actor role).ignoresTerminate then s else s.rush (.exited role stoppedCode)
  | .fleet (.release role) => s.see role .release
  | .fleet .awaitReadiness =>
    match s.readiness with
    | .delay ms => s.arrange ms .ready
    | .answers a => { s with answer := some a }
  | .fleet .openWindow => s.arrange s.windowMs .windowOver
  | .attach signal =>
    { s with attached := s.attached ++ [signal], hostCalls := s.hostCalls ++ ["on " ++ signal] }
  | .detach signal =>
    { s with attached := s.attached.erase signal, hostCalls := s.hostCalls ++ ["off " ++ signal] }
  | .exit code => { s with exits := s.exits ++ [(s.now, code)] }

/-- What the run has given, if it has settled. -/
def result? (s : Stage) : Option RunResult :=
  if s.alone then s.fleet.result? else s.supervision.result?

/-- The stage after a step of the supervision. A stop reaches every process that heeds it. -/
def after (s : Stage) (step : Supervision × List Supervision.Effect) : Stage :=
  let stops := !s.fleet.stopped && step.1.fleet.stopped
  let heeding := (s.fleet.children.filter fun c =>
    c.course.isRunning && !(s.actor c.role).ignoresStop).map (·.role)
  let s := step.2.foldl perform { s with supervision := step.1 }
  let s := if stops then heeding.foldl (fun s role => s.rush (.exited role stoppedCode)) s else s
  if s.settledAt.isNone && s.result?.isSome then { s with settledAt := some s.now } else s

def act (s : Stage) (a : Supervision.Action) : Stage :=
  s.after (s.supervision.step s.launcher a)

/-- Lets something come. A process that has ended is not heard of again. -/
def meet (s : Stage) : Cue → Stage
  | .exited role code =>
    if s.isRunning role then (s.see role (.exit code)).act (.fleet (.exited role code)) else s
  | .failed role failure =>
    if s.isRunning role then (s.see role .failed).act (.fleet (.failed role failure)) else s
  | .ready => s.act (.fleet (.ready (.ok true)))
  | .windowOver => s.act (.fleet .windowOver)
  | .stop => s.act (.fleet .stop)
  | .signal name => s.act (.signal name)

/-- The step that is due by the state alone. Launching and ending come first, then what the run
itself does, then the workers' end, then files, and last the sweep. -/
def due? (s : Stage) : Option Supervision.Action :=
  let f := s.fleet
  if f.cancelDue then some (.fleet .cancel)
  else if f.concludeDue then some (.fleet .conclude)
  else if f.joinDue then some (.fleet .join)
  else if !s.alone && s.supervision.runEndDue then some .runEnds
  else if s.supervision.sweptDue then some .swept
  else if s.supervision.scope.exitDue then some .exit
  else if s.supervision.scope.settleDue then some .settle
  else if f.gatherDue then some (.fleet .gather)
  else if f.hasFileStep then some (.fleet (.file none))
  else
    match s.supervision.sweep.phase with
    | .scanning => some (.sweep none)
    | .removing (store :: _) => some (.sweep (s.fault? store))
    | _ => none

/-- One step, or none when the run has settled and nothing is due, or when nothing can come. -/
def advance? (s : Stage) : Option Stage :=
  match s.soon with
  | c :: rest => some ({ s with soon := rest }.meet c)
  | [] =>
    match s.answer with
    | some a => some ({ s with answer := none }.act (.fleet (.ready a)))
    | none =>
      match s.due? with
      | some a => some (s.act a)
      | none =>
        if s.result?.isSome then none
        else s.agenda.next?.map fun (c, agenda) => { s with agenda }.meet c

/-- Takes steps until there is none, at most the given number. -/
def run : Nat → Stage → Stage
  | 0, s => s
  | n + 1, s =>
    match s.advance? with
    | some s => run n s
    | none => s

/-- A number of steps that no rehearsal of a plan needs. -/
def enough (s : Stage) : Nat :=
  100 + 20 * (Fleet.storeCount s.fleet.plan.workerCount + s.fleet.files.entries.length
    + s.agenda.entries.length)

/-- A run without a scope, which may be asked to stop at a time. -/
def rehearseAlone (s : Stage) (stopAt : Option Nat) : Stage :=
  let s := stopAt.elim s fun time => s.arrange time .stop
  let s := s.perform (.fleet s.fleet.opening)
  s.run s.enough

/-- The whole command on settings: what it logs first, the run in its scope, and what it logs last. -/
def rehearse (s : Stage) (settings : RunSettings) : Stage :=
  let s := { s with events := [(s.now, SuperviseCommand.configEvent settings)] }
  let s := s.after (s.supervision.enter s.launcher)
  let s := s.run s.enough
  match s.result?, s.settledAt with
  | some (.ok code), some time =>
    { s with events := s.events ++ [(time, SuperviseCommand.exitEvent code)] }
  | _, _ => s

/-- The labels of the processes that are still running. -/
def runningLabels (s : Stage) : List String :=
  (s.fleet.children.filter (·.course.isRunning)).map (·.role.label)

end Stage

end Bailiff.Rehearsal

-- SUMMARY: A fleet under a cleanup scope, which sweeps the stores away when the run ends or a signal comes.
import Bailiff.Fleet.Run
import Bailiff.Fleet.Sweep
import Bailiff.Scope

/-!
# Supervision

A supervision is a fleet, the scope around its run, and the sweep that the scope starts. The first
signal asks the fleet to stop and starts the sweep at once, while the fleet is still ending. A shell
owns no stores, so nothing is swept after it.
-/

namespace Bailiff

structure Supervision where
  fleet : Fleet
  scope : Scope (Option Int) := {}
  sweep : Sweep

namespace Supervision

inductive Action where
  | fleet (a : Fleet.Action)
  | signal (name : String)
  /-- The run has settled. -/
  | runEnds
  /-- The next step of the sweep, or the fault that keeps it from listing or removing anything. -/
  | sweep (fault : Option FileFault)
  /-- The sweep has ended. -/
  | swept
  | exit
  | settle
  deriving Repr

/-- What a step does outside. -/
inductive Effect where
  | fleet (e : Fleet.Effect)
  | attach (signal : String)
  | detach (signal : String)
  | exit (code : Int)
  deriving Repr

def logged (events : List Event) : List Effect := events.map fun e => .fleet (.log e)

/-- A supervision of a plan, before anything has happened. -/
def make (plan : FleetPlan) (files : FileTree) : Supervision :=
  { fleet := { plan, files }, sweep := { root := plan.storeRoot } }

/-- Lets the fleet take a step. -/
def inFleet (launcher : Fleet.Launcher) (s : Supervision) (a : Fleet.Action) :
    Supervision × List Effect :=
  let (fleet, effects) := s.fleet.step launcher a
  ({ s with fleet }, effects.map .fleet)

/-- Carries out one effect of the scope. -/
def perform (launcher : Fleet.Launcher) (s : Supervision) : Scope.Effect → Supervision × List Effect
  | .log e => (s, logged [e])
  | .attach signal => (s, [.attach signal])
  | .detach signal => (s, [.detach signal])
  | .stop _ => s.inFleet launcher .stop
  | .beginCleanup =>
    if s.fleet.plan.mode = .shell then ({ s with sweep := { s.sweep with phase := .done } }, [])
    else
      let (sweep, events) := s.sweep.start
      ({ s with sweep }, logged events)
  | .exit code => (s, [.exit code])

/-- Carries out the effects of the scope in order. -/
def performAll (launcher : Fleet.Launcher) (s : Supervision) :
    List Scope.Effect → Supervision × List Effect
  | [] => (s, [])
  | e :: rest =>
    let (s, effects) := s.perform launcher e
    let (s, more) := performAll launcher s rest
    (s, effects ++ more)

/-- Lets the scope take a step. -/
def inScope (launcher : Fleet.Launcher) (s : Supervision)
    (step : Scope (Option Int) → Scope (Option Int) × List Scope.Effect) :
    Supervision × List Effect :=
  let (scope, effects) := step s.scope
  performAll launcher { s with scope } effects

/-- Begins: the scope listens, and the run says what it is going to do. -/
def enter (launcher : Fleet.Launcher) (s : Supervision) : Supervision × List Effect :=
  let (s, effects) := s.inScope launcher Scope.enter
  (s, effects ++ [.fleet s.fleet.opening])

/-- Whether the end of the run has not reached the scope yet. -/
def runEndDue (s : Supervision) : Bool := s.fleet.result?.isSome && s.scope.work.isNone

/-- Whether the end of the sweep has not reached the scope yet. -/
def sweptDue (s : Supervision) : Bool := s.scope.cleanup = .running && s.sweep.isDone

/-- One step. An action that cannot happen changes nothing. -/
def step (launcher : Fleet.Launcher) (s : Supervision) : Action → Supervision × List Effect
  | .fleet a => s.inFleet launcher a
  | .signal name => s.inScope launcher (·.signal name name)
  | .runEnds =>
    match s.fleet.result? with
    | some r => if s.scope.work.isNone then s.inScope launcher (·.workEnds r) else (s, [])
    | none => (s, [])
  | .sweep fault =>
    let (files, sweep, events) := s.sweep.step fault s.fleet.files
    ({ s with fleet := { s.fleet with files }, sweep }, logged events)
  | .swept => if s.sweptDue then s.inScope launcher (·.cleanupEnds none) else (s, [])
  | .exit => if s.scope.exitDue then s.inScope launcher Scope.exit else (s, [])
  | .settle => if s.scope.settleDue then s.inScope launcher Scope.settle else (s, [])

/-- What the run gave, once the supervision has settled. -/
def result? (s : Supervision) : Option RunResult := if s.scope.settled then s.scope.work else none

end Supervision

/-! ## The command -/

namespace SuperviseCommand

def context : ReportContext := { title := "Supervisor failed." }

def settingsContext : ReportContext := { title := "Invalid supervisor configuration." }

/-- The settings of the command, or a report on them. -/
def settings (places : Places) (env : Value) (jobs : Option Binary64) (workersFile : Option String)
    (parallelism : Binary64) : Except Failure RunSettings :=
  (RunSettings.load places env jobs workersFile parallelism).mapError (·.toReport settingsContext)

/-- What is said about a log level that is not known. -/
def warning (s : RunSettings) : String :=
  s.unrecognizedLogLevel.elim "" fun text =>
    "Warning: unrecognized HARNESS_LOGLEVEL \"" ++ text ++ "\"; logging errors only.\n"

def configEvent (s : RunSettings) : Event :=
  { type := "supervise.config"
    payload :=
      [("workers", .number s.workerCount), ("spawn_server", .bool s.spawnServer),
        ("spawn_workers", .bool s.spawnWorkers), ("server_addr", .text s.serverAddr),
        ("server_args", .text s.serverArgs), ("worker_args", .text s.workerArgs),
        ("log_level", .text s.logLevel.name), ("tools_bin", .text s.toolsBin),
        ("store_root", .text s.storeRoot), ("workers_file", .text s.workersFile)] }

def exitEvent (code : Option Int) : Event :=
  { type := "supervise.exit", payload := [("exit_code", Value.orNull Value.int code)] }

/-- The result of the run as the command gives it: a failure becomes a report. -/
def finish (r : RunResult) : RunResult := r.mapError (·.toReport context)

end SuperviseCommand

end Bailiff

-- SUMMARY: One run of a fleet: marker, stores, server and workers up to a single exit code.
import Bailiff.Fleet.Launch

/-!
# Runs of a fleet

A run writes its marker and its stores, starts what its mode asks for, and settles with one exit
code. With server and workers, the workers are a side of their own: they wait until the server is
ready, and when the server has ended they get a window of time to end too. What can happen to a run
is an `Action`; those that are due at once by the state alone are the inner ones.
-/

namespace Bailiff

/-! ## State -/

/-- How the workers find out that the server is ready. -/
structure ReadinessPolicy where
  description : String
  /-- Whether the wait ends as soon as the launch is called off. -/
  heedsAbort : Bool
  deriving DecidableEq, Repr

/-- Waits for a fixed time, unless it is called off. -/
def ReadinessPolicy.delay (ms : Binary64) : ReadinessPolicy :=
  ⟨"fixed " ++ ms.text ++ "ms delay", true⟩

/-- The milliseconds that the workers wait for the server unless told otherwise. -/
def defaultReadinessMs : Nat := 2000

/-- The milliseconds that the workers have to end after the server. -/
def defaultWindowMs : Nat := 1000

structure FleetPlan where
  mode : Mode
  workerCount : Binary64
  tools : ToolSettings
  shell : String
  storeRoot : String
  workersFile : String
  policy : ReadinessPolicy := .delay (.ofNat defaultReadinessMs)
  /-- The random part of the names of the worker stores. -/
  suffix : String
  deriving DecidableEq, Repr

/-- The plan that settings lead to. -/
def RunSettings.plan (s : RunSettings) (policy : ReadinessPolicy) (suffix : String) : FleetPlan :=
  { mode := .select s.spawnServer s.spawnWorkers
    workerCount := s.workerCount
    tools := s.tools
    shell := s.shell
    storeRoot := s.storeRoot
    workersFile := s.workersFile
    policy
    suffix }

/-- What a run gives: the exit code, which is missing where the worst of no codes is asked for. -/
abbrev RunResult := Except Failure (Option Int)

namespace Fleet

/-- What a run does next, or waits for. -/
inductive Phase where
  | resetMarker
  | allocate (done : List String)
  | publishMarker
  | makeRoot
  | makeServerStore
  | serving
  | inShell
  | working
  /-- The server has ended; the workers may still end. -/
  | joining (result : RunResult)
  | settled (result : RunResult)
  deriving Repr

/-- How far the workers beside a server have come. -/
inductive Side where
  | idle
  | waiting
  | working
  | done
  deriving DecidableEq, Repr

end Fleet

open Fleet

structure Fleet where
  plan : FleetPlan
  files : FileTree
  phase : Phase := .resetMarker
  side : Side := .idle
  /-- The stores of the workers. -/
  stores : List String := []
  children : List Child := []
  starts : Nat := 0
  /-- How many temporary directories have been asked for. -/
  temporaries : Nat := 0
  /-- The first failure of a worker. -/
  firstFailure : Option Failure := none
  stopped : Bool := false
  /-- Whether a stop calls off the launch of the workers. -/
  linked : Bool := false
  /-- Whether the launch of the workers has been called off. -/
  aborted : Bool := false

namespace Fleet

inductive Action where
  /-- The next file operation takes place, or fails for a reason of its own. -/
  | file (fault : Option FileFault)
  /-- The wait for the server ends. -/
  | ready (answer : Except Failure Bool)
  | exited (role : Role) (code : Int)
  | failed (role : Role) (failure : Failure)
  /-- The run is asked to stop. -/
  | stop
  /-- The workers have had their time to end. -/
  | windowOver
  /-- The wait for the server is called off. -/
  | cancel
  /-- The end of the server or of the shell is acted on. -/
  | conclude
  /-- The workers' end is acted on. -/
  | gather
  /-- Server and workers have ended. -/
  | join
  deriving Repr

/-! ## Views -/

def course? (f : Fleet) (role : Role) : Option Course :=
  (f.children.find? (·.role = role)).map (·.course)

def workers (f : Fleet) : List Child := f.children.filter (·.role.isWorker)

/-- The exit codes of the workers, once all of them have one. -/
def workerCodes? (f : Fleet) : Option (List Int) := f.workers.mapM (·.course.code?)

/-- The workers that are still running. -/
def lingering (f : Fleet) : List Role :=
  (f.workers.filter (·.course.isRunning)).map (·.role)

def result? (f : Fleet) : Option RunResult :=
  match f.phase with
  | .settled r => some r
  | _ => none

/-- How many stores a number of workers needs. -/
def storeCount (count : Binary64) : Nat := ((count.truncate?).getD 0).toNat

/-- The next file operation is due. -/
def hasFileStep (f : Fleet) : Bool :=
  match f.phase with
  | .resetMarker => true
  | .allocate _ => true
  | .publishMarker => true
  | .makeRoot => true
  | .makeServerStore => true
  | _ => false

/-! ## Changes -/

def change (role : Role) (update : Child → Child) (f : Fleet) : Fleet :=
  { f with children := f.children.map fun c => if c.role = role then update c else c }

def terminate (role : Role) : Fleet → Fleet :=
  change role fun c => { c with terminated := true }

def release (role : Role) : Fleet → Fleet :=
  change role fun c => { c with released := true }

/-- The run settles. -/
def settle (f : Fleet) (r : RunResult) : Fleet × List Effect := ({ f with phase := .settled r }, [])

/-- The part of the run that is about the server ends. With workers, their launch is called off and
their window opens. -/
def serverEnds (f : Fleet) (r : RunResult) : Fleet × List Effect :=
  if f.plan.mode = .serverAndWorkers then
    ({ f with phase := .joining r, aborted := true, linked := false }, [.openWindow])
  else f.settle r

/-- Makes the starts of a launching part of the run. -/
def took (f : Fleet) (l : Launching) : Fleet :=
  { f with children := f.children ++ l.children, starts := l.starts }

/-- Starts the workers. -/
def launchWorkers (launcher : Launcher) (f : Fleet) : Fleet × List Effect × Except Failure Unit :=
  let (l, answer) :=
    Launching.workers launcher f.files f.plan.tools 1 f.stores { starts := f.starts }
  (f.took l, l.effects, answer.map fun _ => ())

/-- The workers beside a server are over. -/
def sideEnds (f : Fleet) : Fleet := { f with side := .done }

def launchFailed (failure : Failure) : Effect :=
  note .error "workers.launch.failed" [("error", .text failure.message)]

def launchCancelled : Effect := note .debug "workers.launch.cancelled" []

/-- The marker and the stores are written: the mode decides what comes now. -/
def enterMode (launcher : Launcher) (f : Fleet) : Fleet × List Effect :=
  match f.plan.mode with
  | .workersOnly =>
    match f.launchWorkers launcher with
    | (f, effects, .error failure) => ({ f with phase := .settled (.error failure) }, effects)
    | (f, effects, .ok ()) => ({ f with phase := .working }, effects)
  | .serverOnly => ({ f with phase := .makeRoot }, [])
  | .serverAndWorkers =>
    ({ f with phase := .makeRoot, side := .waiting, linked := !f.stopped },
      [note .debug "workers.readiness.wait" [("policy", .text f.plan.policy.description)],
        .awaitReadiness])
  | .shell =>
    let (l, answer) :=
      ({ starts := f.starts } : Launching).start launcher f.files .shell ⟨f.plan.shell, []⟩
    let effects := note .info "shell.start" [("shell", .text f.plan.shell)] :: l.effects
    match answer with
    | .ok _ => ({ f.took l with phase := .inShell }, effects)
    | .error failure => ({ f.took l with phase := .settled (.error failure) }, effects)

/-- What a run says before anything else. -/
def opening (f : Fleet) : Effect :=
  note .info "coordinator.mode"
    [("mode", .text f.plan.mode.text), ("workers", .number f.plan.workerCount)]

/-! ## File operations -/

/-- The stores made so far. When all are there, they are noted. -/
def allocated (f : Fleet) (done : List String) : Fleet × List Effect :=
  if done.length < storeCount f.plan.workerCount then ({ f with phase := .allocate done }, [])
  else
    ({ f with phase := .publishMarker, stores := done },
      [note .debug "store.worker.created"
        [("count", .number f.plan.workerCount), ("base", .text f.plan.suffix),
          ("stores", .texts done)]])

/-- Writes a count to the marker file. -/
def writeMarker (f : Fleet) (count : Binary64) : Fleet × Except FileFault Unit :=
  let (files, r) := f.files.writeText [] f.plan.workersFile (count.text ++ "\n")
  ({ f with files }, r)

/-- The path of the worker store that comes after a number of others. -/
def storePath (plan : FleetPlan) (made : Nat) : String :=
  Stores.workerPath plan.storeRoot plan.suffix (Stores.workerIndex (made + 1))

/-- The server store is there: the server is started on it. -/
def startServer (launcher : Launcher) (f : Fleet) (store : String) : Fleet × List Effect :=
  let created := note .debug "store.server.created" [("store", .text store)]
  match Launching.server launcher f.files f.plan.tools store { starts := f.starts } with
  | (l, .error failure) =>
    let (f, effects) := (f.took l).serverEnds (.error failure)
    (f, created :: l.effects ++ effects)
  | (l, .ok ()) => ({ f.took l with phase := .serving }, created :: l.effects)

/-- The next file operation. -/
def fileStep (launcher : Launcher) (f : Fleet) : Fleet × List Effect :=
  match f.phase with
  | .resetMarker =>
    match f.writeMarker 0 with
    | (f, .error fault) => f.settle (.error fault.failure)
    | (f, .ok ()) =>
      if f.plan.mode = .workersOnly ∨ f.plan.mode = .serverAndWorkers then f.allocated []
      else f.enterMode launcher
  | .allocate done =>
    let path := storePath f.plan done.length
    match f.files.makeDirectories [] path with
    | .error fault => f.settle (.error fault.failure)
    | .ok files => { f with files }.allocated (done ++ [path])
  | .publishMarker =>
    match f.writeMarker f.plan.workerCount with
    | (f, .error fault) => f.settle (.error fault.failure)
    | (f, .ok ()) => f.enterMode launcher
  | .makeRoot =>
    match f.files.makeDirectories [] f.plan.storeRoot with
    | .error fault => f.serverEnds (.error fault.failure)
    | .ok files => ({ f with files, phase := .makeServerStore }, [])
  | .makeServerStore =>
    let number := f.temporaries + 1
    match f.files.makeTemporary [] (Stores.serverPath f.plan.storeRoot) number with
    | .error fault => { f with temporaries := number }.serverEnds (.error fault.failure)
    | .ok (files, store) => { f with files, temporaries := number }.startServer launcher store
  | _ => (f, [])

/-- The next file operation fails and changes nothing. -/
def fileFails (f : Fleet) (fault : FileFault) : Fleet × List Effect :=
  match f.phase with
  | .makeRoot => f.serverEnds (.error fault.failure)
  | .makeServerStore => f.serverEnds (.error fault.failure)
  | _ => if f.hasFileStep then f.settle (.error fault.failure) else (f, [])

/-! ## Ends of processes -/

/-- A process has ended in some way, if it was running. -/
def ends (f : Fleet) (role : Role) (course : Course) : Fleet :=
  f.change role fun c => if c.course.isRunning then { c with course } else c

/-- The end of the server or of the shell is acted on. A shell that is not there counts as one that
ended well. -/
def concludes (f : Fleet) : Fleet × List Effect :=
  match f.phase with
  | .serving =>
    match f.course? .server with
    | some (.exited code) =>
      let (f, effects) := f.serverEnds (.ok (some code))
      (f, note .info "server.exit" [("exit_code", .int code)] :: effects)
    | some (.failed failure) => f.serverEnds (.error failure)
    | _ => (f, [])
  | .inShell =>
    match f.course? .shell with
    | some (.exited code) => f.settle (.ok (some code))
    | some (.failed failure) =>
      if failure.isMissingExecutable then
        ({ f with phase := .settled (.ok (some 0)) },
          [note .error "shell.missing" [("shell", .text f.plan.shell)]])
      else f.settle (.error failure)
    | _ => (f, [])
  | _ => (f, [])

/-- Asks every running worker to end. -/
def terminateWorkers (f : Fleet) : Fleet × List Effect :=
  (f.lingering.foldl (fun f role => f.terminate role) f, f.lingering.map .terminate)

/-- Asks every running worker to end, and waits for none of them. -/
def dismissWorkers (f : Fleet) : Fleet × List Effect :=
  (f.lingering.foldl (fun f role => (f.terminate role).release role) f,
    f.lingering.flatMap fun role => [.terminate role, .release role])

/-- The exit codes of all workers as they are logged. -/
def codesPayload (codes : List Int) : String × Value :=
  ("exit_codes", .list (codes.map Value.int))

/-- The workers' end is acted on: one of them has failed, or all of them have exited. -/
def gathers (f : Fleet) : Fleet × List Effect :=
  if f.phase matches .working then
    match f.firstFailure with
    | some failure =>
      let (f, effects) := f.terminateWorkers
      ({ f with phase := .settled (.error failure) }, effects)
    | none =>
      match f.workerCodes? with
      | some codes =>
        ({ f with phase := .settled (.ok codes.max?) },
          [note .info "workers.exit"
            [codesPayload codes, ("max_exit_code", Value.orNull Value.int codes.max?)]])
      | none => (f, [])
  else if f.side = .working then
    match f.firstFailure with
    | some failure =>
      let (f, effects) := f.terminateWorkers
      (f.sideEnds, effects ++ [launchFailed failure])
    | none =>
      match f.workerCodes? with
      | some codes => (f.sideEnds, [note .info "workers.exit" [codesPayload codes]])
      | none => (f, [])
  else (f, [])

/-- The wait for the server ends with an answer. -/
def becomesReady (launcher : Launcher) (f : Fleet) (answer : Except Failure Bool) :
    Fleet × List Effect :=
  match answer with
  | .error failure => (f.sideEnds, [launchFailed failure])
  | .ok false => (f.sideEnds, [launchCancelled])
  | .ok true =>
    match f.launchWorkers launcher with
    | (f, effects, .error failure) => (f.sideEnds, effects ++ [launchFailed failure])
    | (f, effects, .ok ()) => ({ f with side := .working }, effects)

/-! ## Steps -/

/-- Whether the wait for the server is to be called off. -/
def cancelDue (f : Fleet) : Bool :=
  f.side = .waiting && f.aborted && f.plan.policy.heedsAbort

/-- Whether there is an end of the server or of the shell to act on. -/
def concludeDue (f : Fleet) : Bool :=
  let hasEnded (role : Role) : Bool := (f.course? role).any (!·.isRunning)
  match f.phase with
  | .serving => hasEnded .server
  | .inShell => hasEnded .shell
  | _ => false

/-- Whether there is an end of the workers to act on. -/
def gatherDue (f : Fleet) : Bool :=
  ((f.phase matches .working) || f.side = .working)
    && (f.firstFailure.isSome || f.workerCodes?.isSome)

/-- Whether server and workers have ended. -/
def joinDue (f : Fleet) : Bool := (f.phase matches .joining _) && f.side = .done

/-- One step. An action that cannot happen changes nothing. -/
def step (launcher : Launcher) (f : Fleet) : Action → Fleet × List Effect
  | .file none => f.fileStep launcher
  | .file (some fault) => f.fileFails fault
  | .ready answer =>
    if f.side = .waiting ∧ ¬f.cancelDue then f.becomesReady launcher answer else (f, [])
  | .exited role code => (f.ends role (.exited code), [])
  | .failed role failure =>
    let first :=
      if role.isWorker ∧ (f.course? role).any (·.isRunning) ∧ f.firstFailure.isNone then
        some failure
      else f.firstFailure
    ({ f.ends role (.failed failure) with firstFailure := first }, [])
  | .stop => ({ f with stopped := true, aborted := f.aborted || f.linked }, [])
  | .windowOver =>
    match f.phase with
    | .joining r =>
      if f.side = .done then (f, [])
      else
        let warning := note .warn "workers.terminate"
          [("workers", .texts (f.lingering.map Role.label))]
        let (f, effects) := f.dismissWorkers
        ({ f with phase := .settled r }, warning :: effects)
    | _ => (f, [])
  | .cancel => if f.cancelDue then (f.sideEnds, [launchCancelled]) else (f, [])
  | .conclude => f.concludes
  | .gather => f.gathers
  | .join =>
    match f.phase with
    | .joining r => if f.side = .done then f.settle r else (f, [])
    | _ => (f, [])

end Fleet

end Bailiff

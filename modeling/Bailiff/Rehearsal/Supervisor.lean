-- SUMMARY: Single acts of supervision in virtual time: making stores, starting processes, sweeping.
import Bailiff.Fleet.Supervision
import Bailiff.Rehearsal.Cast

namespace Bailiff.Rehearsal

/-- One act, played until it has an answer. -/
inductive Act where
  | makeServerStore
  | makeWorkerStores (count : Binary64)
  /-- Runs a server on a new store to its end. -/
  | runServer
  | launch (stores : List String)
  /-- Runs workers on new stores until all have exited or one has failed. -/
  | runWorkers (count : Binary64)
  | sweep
  | makeDirectory (name : String)
  deriving Repr

/-- What an act answers. -/
inductive Reply where
  | nothing
  | store (path : String)
  | stores (paths : List String)
  | code (c : Int)
  | codes (cs : List Int)
  | started (processes : List (Role × Option Nat))
  | report (removed failed : List String)
  deriving Repr

/-- The stage of acts. Processes are numbered, since one role may be played more than once. -/
structure Acting where
  cast : Cast
  plan : FleetPlan
  fault? : String → Option FileFault
  files : FileTree
  temporaries : Nat := 0
  starts : Nat := 0
  processes : List (Role × Course) := []
  agenda : Agenda (Nat × Course) := {}
  soon : List (Nat × Course) := []
  /-- The failures of processes as they came. -/
  failures : List (Nat × Failure) := []
  sights : List (Nat × Role × Sight) := []
  events : List (Nat × Event) := []

namespace Acting

def perform (s : Acting) : Fleet.Effect → Acting
  | .log e => { s with events := s.events ++ [(s.agenda.now, e)] }
  | .launch role command =>
    let actor := s.cast s.files role command
    let number := s.processes.length
    let s := { s with sights := s.sights ++ [(s.agenda.now, role, .start command)] }
    let started := { s with processes := s.processes ++ [(role, .running)] }
    match actor.entrance with
    | .throws _ => s
    | .missing failure => { started with soon := s.soon ++ [(number, .failed failure)] }
    | .runs =>
      match actor.fate with
      | .exits after code =>
        { started with agenda := s.agenda.add after (number, .exited code) }
      | .fails after message =>
        { started with agenda := s.agenda.add after (number, .failed (.plain message)) }
      | .lasts => started
  | _ => s

def took (s : Acting) (l : Launching) : Acting :=
  l.effects.foldl perform { s with starts := l.starts }

/-- A process ends. -/
def meet (s : Acting) (number : Nat) (course : Course) : Acting :=
  match s.processes[number]? with
  | none => s
  | some (role, _) =>
    let sight := match course with
      | .exited code => Sight.exit code
      | _ => .failed
    { s with
      processes := s.processes.set number (role, course)
      sights := s.sights ++ [(s.agenda.now, role, sight)]
      failures := match course with
        | .failed f => s.failures ++ [(number, f)]
        | _ => s.failures }

/-- Lets everything come that comes without time passing. -/
def calm (s : Acting) : Acting :=
  s.soon.foldl (fun s c => s.meet c.1 c.2) { s with soon := [] }

/-- What waiting for some processes gives: their codes, or the failure that came first. -/
def awaited (s : Acting) (numbers : List Nat) : Option (Except Failure (List Int)) :=
  match s.failures.find? fun f => numbers.contains f.1 with
  | some f => some (.error f.2)
  | none => (numbers.mapM fun n => s.processes[n]?.bind (·.2.code?)).map .ok

/-- Lets time pass until the processes have been waited for. The number bounds the ends of
processes. -/
def await (numbers : List Nat) : Nat → Acting → Acting × Option (Except Failure (List Int))
  | 0, s => (s, none)
  | n + 1, s =>
    let s := s.calm
    match s.awaited numbers with
    | some r => (s, some r)
    | none =>
      match s.agenda.next? with
      | none => (s, none)
      | some ((number, course), agenda) => await numbers n ({ s with agenda }.meet number course)

/-- Makes the store of a server. -/
def makeServerStore (s : Acting) : Acting × Except Failure String :=
  match s.files.makeDirectories [] s.plan.storeRoot with
  | .error fault => (s, .error fault.failure)
  | .ok files =>
    let number := s.temporaries + 1
    match files.makeTemporary [] (Stores.serverPath s.plan.storeRoot) number with
    | .error fault => ({ s with files, temporaries := number }, .error fault.failure)
    | .ok (files, store) =>
      ({ s with files, temporaries := number }.perform
        (Fleet.note .debug "store.server.created" [("store", .text store)]), .ok store)

/-- Makes the stores of a number of workers. -/
def makeWorkerStores (s : Acting) (count : Binary64) : Acting × Except Failure (List String) :=
  go (Fleet.storeCount count) s []
where
  /-- Makes the stores that are still missing. -/
  go : Nat → Acting → List String → Acting × Except Failure (List String)
    | 0, s, done =>
      (s.perform (Fleet.note .debug "store.worker.created"
        [("count", .number count), ("base", .text s.plan.suffix), ("stores", .texts done)]),
        .ok done)
    | n + 1, s, done =>
      let path := Fleet.storePath s.plan done.length
      match s.files.makeDirectories [] path with
      | .error fault => (s, .error fault.failure)
      | .ok files => go n { s with files } (done ++ [path])

def launch (s : Acting) (stores : List String) :
    Acting × Except Failure (List (Role × Option Nat)) :=
  let (l, answer) :=
    Launching.workers (s.cast.launcher countedId) s.files s.plan.tools 1 stores { starts := s.starts }
  (s.took l, answer)

/-- Waits for the processes that have been started since there were a number of them. -/
def waitSince (s : Acting) (count : Nat) : Acting × Option (Except Failure (List Int)) :=
  s.await ((List.range s.processes.length).drop count) (s.agenda.entries.length + 2)

/-- Plays one act. Without an answer, it would go on for ever. -/
def play (s : Acting) : Act → Acting × Option (Except Failure Reply)
  | .makeServerStore =>
    let (s, r) := s.makeServerStore
    (s, some (r.map .store))
  | .makeWorkerStores count =>
    let (s, r) := s.makeWorkerStores count
    (s, some (r.map .stores))
  | .runServer =>
    match s.makeServerStore with
    | (s, .error f) => (s, some (.error f))
    | (s, .ok store) =>
      let before := s.processes.length
      let (l, answer) :=
        Launching.server (s.cast.launcher countedId) s.files s.plan.tools store { starts := s.starts }
      let s := s.took l
      match answer with
      | .error f => (s.calm, some (.error f))
      | .ok () =>
        match s.waitSince before with
        | (s, none) => (s, none)
        | (s, some (.error f)) => (s, some (.error f))
        | (s, some (.ok codes)) =>
          let code := codes.headD 0
          (s.perform (Fleet.note .info "server.exit" [("exit_code", .int code)]),
            some (.ok (.code code)))
  | .launch stores =>
    let (s, r) := s.launch stores
    (s.calm, some (r.map .started))
  | .runWorkers count =>
    match s.makeWorkerStores count with
    | (s, .error f) => (s, some (.error f))
    | (s, .ok stores) =>
      let before := s.processes.length
      match s.launch stores with
      | (s, .error f) => (s.calm, some (.error f))
      | (s, .ok _) =>
        let (s, r) := s.waitSince before
        (s, r.map (·.map .codes))
  | .sweep =>
    let (files, sweep, events) := Sweep.run s.fault? s.files s.plan.storeRoot
    (events.foldl (fun s e => s.perform (.log e)) { s with files },
      some (.ok (.report sweep.removed sweep.failed)))
  | .makeDirectory name =>
    match s.files.makeDirectories [] (s.plan.storeRoot ++ "/" ++ name) with
    | .error fault => (s, some (.error fault.failure))
    | .ok files => ({ s with files }, some (.ok .nothing))

end Acting

end Bailiff.Rehearsal

-- SUMMARY: The batch command: log, store and session are prepared, then the batch runs in its scope.
import Bailiff.Batch.Guarded
import Bailiff.Results.Archive
import Bailiff.Settings.Run

/-!
# Batch command

`BatchCommand.run` prepares a session and drives a guarded batch with a `JudgeHost`, which starts the
judge. A failure becomes a report, except when the log itself or its level cannot be had.
-/

namespace Bailiff

structure BatchInput where
  judge : String
  root : String
  db : String
  session : Option Binary64 := none
  /-- Seconds. -/
  timeout : Binary64 := 180
  cores : Binary64 := Judge.defaultCores
  logFile : Option String := none
  deriving Repr

/-- What a judge run was like: the answer, the time it took, and what came in between. -/
structure JudgeReply where
  answer : Except Failure Outcome
  elapsedMs : Binary64 := 0
  /-- What whoever starts the judge has logged. -/
  events : List Event := []
  /-- A signal that arrives during the run. -/
  signal : Option String := none
  /-- Whether the batch is asked to stop during the run. -/
  stop : Bool := false

/-- Whoever starts the judge. -/
structure JudgeHost where
  readVersion : FileTree → FileTree × Except Failure String
  run : FileTree → String → Invocation → FileTree × JudgeReply

/-- Milliseconds from the start of 1970, and from the start of the program. -/
structure Clock where
  epoch : Int := 1714979289123
  elapsed : Binary64 := 0
  deriving DecidableEq, Repr

namespace Clock

def now (c : Clock) : Instant := ⟨c.epoch + (c.elapsed.truncate?).getD 0⟩

def advance (c : Clock) (ms : Binary64) : Clock := { c with elapsed := c.elapsed + ms }

end Clock

namespace BatchCommand

/-- The state of a running batch command. -/
structure State where
  files : FileTree
  clock : Clock
  trail : List Trail := []
  invocations : List Invocation := []
  versionReads : List String := []

/-- The hint for a session that is not there. -/
def notFoundHint (db : String) : String :=
  "Run `judge-harness sessions list --db " ++ db ++ "` to see recorded sessions."

def context (db : String) : ReportContext :=
  { title := "Batch failed.", notFoundHint := some (notFoundHint db) }

/-- The session to run in, and what is said about it. -/
def resolveSession (host : JudgeHost) (input : BatchInput) (store : Store) (s : State) :
    State × Except Failure (Store × Binary64) :=
  match input.session with
  | some id =>
    match store.resumeSession id with
    | .error f => (s, .error f)
    | .ok id =>
      ({ s with trail := s.trail ++ [.progress ("Resuming session " ++ id.text)] }, .ok (store, id))
  | none =>
    let (files, version) := host.readVersion s.files
    let s := { s with files, versionReads := s.versionReads ++ [input.judge] }
    match version with
    | .error f => (s, .error f)
    | .ok version =>
      match store.beginSession version (.ofInt s.clock.now.ms) with
      | .error f => (s, .error f)
      | .ok (store, id) =>
        let shown := if version.isEmpty then "(unknown)" else version
        let message :=
          "Started session " ++ Binary64.integerText id ++ " for judge version " ++ shown
        ({ s with trail := s.trail ++ [.progress message] }, .ok (store, .ofInt id))

/-- Drives a guarded batch to its end: each judge run in turn, with what comes during it. The number
bounds the judge runs. -/
def drive (host : JudgeHost) : Nat → State → GuardedBatch → State × GuardedBatch
  | 0, s, g => (s, g)
  | n + 1, s, g =>
    match g.batch.bind fun b => b.invocation?.map fun i => (b, i) with
    | none => (s, g)
    | some (b, i) =>
      let task := match b.phase with
        | .judging task _ => task
        | _ => ""
      let (files, reply) := host.run s.files task i
      let said := reply.events.map fun e => Trail.entry (.event s.clock.now {} e)
      let g := { g with trail := g.trail ++ said }
      let g := match reply.signal with
        | some name => (g.step s.clock.now (.signal name)).rest s.clock.now
        | none => g
      let g := if reply.stop then { g with stopped := true } else g
      let clock := s.clock.advance reply.elapsedMs
      let duration := Batch.secondsBetween s.clock.elapsed clock.elapsed
      let g := (g.step clock.now (.judged duration reply.answer)).rest clock.now
      drive host n { s with files, clock, invocations := s.invocations ++ [i] } g

/-- What is said at the end of a batch. -/
def closing (b : BatchSummary) : String :=
  "Session " ++ b.session.text ++ ": " ++ Binary64.integerText b.executed.length ++ " run, "
    ++ Binary64.integerText b.skipped.length ++ " skipped, "
    ++ Binary64.integerText b.killed.length ++ " killed"

/-- Opens the store, finds the session and runs the batch in its scope. -/
def runBatch (host : JudgeHost) (base : Location) (input : BatchInput) (judgeDir : String)
    (s : State) : State × Except Failure BatchSummary :=
  match Connection.connect s.files base input.db with
  | (files, .error f) => ({ s with files }, .error f)
  | (files, .ok c) =>
    match resolveSession host input (c.store files) { s with files } with
    | (s, .error f) => (s, .error f)
    | (s, .ok (store, session)) =>
      let plan : BatchPlan :=
        { judge := input.judge
          root := input.root
          session
          cores := input.cores
          timeoutMs := input.timeout * 1000
          judgeDir
          workDir := Path.ofParts base }
      let now := s.clock.now
      let tasks := Batch.listTasks s.files base input.root
      let g := ((GuardedBatch.enter now plan store).step now (.listed tasks)).rest now
      let (s, g) := drive host ((tasks.toOption.getD []).length + 1) s g
      let (files, _) := c.commit s.files g.store
      let s := { s with files, trail := s.trail ++ g.trail }
      match g.scope.work with
      | none => (s, .error (.plain "The batch has not ended."))
      | some (.error f) => (s, .error f)
      | some (.ok summary) =>
        ({ s with trail := s.trail ++ [.progress (closing summary)] }, .ok summary)

/-- Runs a batch and reports its failure. The log is closed at the end in any case. -/
def run (host : JudgeHost) (base : Location) (input : BatchInput) (judgeDir : String)
    (s : State) : State × Except Failure BatchSummary :=
  let (s, result) := runBatch host base input judgeDir s
  ({ s with trail := s.trail ++ [.entry .close] },
    result.mapError (·.toReport (context input.db)))

/-- The sink of a command that was given none: the named file, or the error stream. -/
def ownSink (files : FileTree) (base : Location) (logFile : Option String) :
    FileTree × Except Failure (Sink × Option Location) :=
  match logFile with
  | none => (files, .ok ({ target := .stderr }, none))
  | some path =>
    if path.isEmpty then (files, .ok ({ target := .stderr }, none))
    else match files.openLog base path with
      | (files, .error fault) => (files, .error fault.failure)
      | (files, .ok l) =>
        let device := match files.at? l with
          | some (.device d) => some d
          | _ => none
        (files, .ok ({ target := .file path device }, some l))

/-- A command with the files and the log that it leaves behind. -/
structure Logged where
  state : State
  sink : Option Sink := none
  result : Except Failure BatchSummary

/-- The logger of a command: the one that is brought along, or one of its own at the level that the
environment asks for. A log file is named with its place. -/
def logger (files : FileTree) (base : Location) (environment : Value) (logFile : Option String)
    (given : Option (Logger × Sink)) :
    FileTree × Except Failure (Logger × Sink × Option Location) :=
  match resolveLogLevel environment with
  | .error f => (files, .error f)
  | .ok level =>
    match given with
    | some (lg, sink) => (files, .ok (lg, sink, none))
    | none =>
      let (files, r) := ownSink files base logFile
      (files, r.map fun made => (⟨.known level, {}⟩, made))

/-- Makes the logger and runs the command. Without a logger nothing is run, and the failure is no
report. -/
def runLogged (host : JudgeHost) (base : Location) (environment : Value) (input : BatchInput)
    (judgeDir : String) (given : Option (Logger × Sink)) (files : FileTree) : Logged :=
  match logger files base environment input.logFile given with
  | (files, .error f) => { state := { files, clock := {} }, result := .error f }
  | (files, .ok (lg, sink, place)) =>
    let (s, result) := run host base input judgeDir { files, clock := {} }
    let sink := Trail.write lg sink s.trail
    let files := place.elim s.files fun l => s.files.append l sink.text
    { state := { s with files }, sink := some sink, result }

end BatchCommand

end Bailiff

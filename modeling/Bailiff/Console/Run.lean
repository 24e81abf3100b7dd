-- SUMMARY: What a command line does in a world of files and programs: what it prints, and its exit code.
import Bailiff.Batch.Command
import Bailiff.Console.Commands
import Bailiff.Console.Help
import Bailiff.Judge.Run
import Bailiff.Rehearsal.Fleet
import Bailiff.Report
import Bailiff.Sessions.Command

/-!
# Running command lines

`run` reads the words of a command line and carries out the order in a `World`, whose programs are
those of its file tree. The clock of a world stands still.
-/

namespace Bailiff.Console

structure World where
  files : FileTree
  base : Location
  /-- The environment variables, a record of texts. -/
  environment : Value := .record []
  parallelism : Binary64 := 1
  /-- The random part of the names of stores. -/
  suffix : String := ""
  places : Places := {}
  /-- The calls that led to a failure, as the system below tells them. -/
  trace : Failure → Trace := fun f => f.trace

/-- What a command line leads to. -/
structure Response where
  exitCode : Int := 0
  stdout : String := ""
  stderr : String := ""
  files : FileTree

/-! ## Settings -/

/-- The last value of an option. -/
def setting? (settings : List (String × Value)) (name : String) : Option Value :=
  settings.reverse.lookup name

def textOf (settings : List (String × Value)) (name default : String) : String :=
  ((setting? settings name).bind (·.text?)).getD default

def numberOf? (settings : List (String × Value)) (name : String) : Option Binary64 :=
  (setting? settings name).bind (·.number?)

def isSet (settings : List (String × Value)) (name : String) : Bool :=
  ((setting? settings name).bind (·.bool?)).getD false

def database (settings : List (String × Value)) : String := textOf settings "db" defaultDatabase

/-! ## Output -/

/-- Lines with their ends. -/
def printLines (lines : List String) : String := String.join (lines.map (· ++ "\n"))

/-- A failure as the error stream shows it, with its trace on demand. -/
def shownFailure (w : World) (debug : Bool) (f : Failure) : String :=
  (f.withTrace (w.trace f)).render (if debug then .debug else .short) false ++ "\n"

/-- The response with the report on a failure at its end. -/
def Response.failing (r : Response) (w : World) (debug : Bool) (f : Failure) : Response :=
  { r with exitCode := 1, stderr := r.stderr ++ shownFailure w debug f }

/-- The response with the end of a command. -/
def Response.ending (r : Response) (w : World) (debug : Bool) : Except Failure Unit → Response
  | .ok () => r
  | .error f => r.failing w debug f

/-! ## Tasks -/

/-- The judge of a world, which is one of its programs. -/
def judgeHost (w : World) (judge : String) : JudgeHost :=
  { readVersion := fun files => Judge.readVersion files w.base w.environment judge
    run := fun files _ i =>
      let (files, answer, events) := Judge.runLogged files w.base w.environment i false false
      (files, { answer, events }) }

def batchInput (settings : List (String × Value)) (arguments : List Value) : BatchInput :=
  { judge := ((arguments[0]?).bind (·.text?)).getD ""
    root := ((arguments[1]?).bind (·.text?)).getD ""
    db := database settings
    session := numberOf? settings "session"
    timeout := (numberOf? settings "timeout").getD (Judge.defaultTimeoutMs / 1000)
    cores := (numberOf? settings "cores").getD Judge.defaultCores
    logFile := (setting? settings "log-file").bind (·.text?) }

def runBatch (w : World) (debug : Bool) (input : BatchInput) : Response :=
  let run := BatchCommand.runLogged (judgeHost w input.judge) w.base w.environment input
    w.places.package none w.files
  let response : Response :=
    { stdout := printLines (Trail.progressLines run.state.trail)
      stderr := run.sink.elim "" (·.stderrText)
      files := run.state.files }
  response.ending w debug (run.result.map fun _ => ())

def runSupervise (w : World) (debug : Bool) (settings : List (String × Value)) : Response :=
  let workersFile := textOf settings "workers-file" defaultWorkersFile
  match SuperviseCommand.settings w.places w.environment (numberOf? settings "jobs")
      (some workersFile) w.parallelism with
  | .error f => ({ files := w.files } : Response).failing w debug f
  | .ok run =>
    let policy := ReadinessPolicy.delay (.ofNat defaultReadinessMs)
    let stage : Rehearsal.Stage :=
      { cast := .ofPrograms w.base
        ids := fun _ => 0
        readiness := .delay defaultReadinessMs
        windowMs := defaultWindowMs
        alone := false
        supervision := .make (run.plan policy w.suffix) w.files }
    let stage := stage.rehearse run
    let now : Instant := ({} : Clock).now
    let sink : Sink :=
      stage.events.foldl (fun s e => s.take ⟨.known run.logLevel, {}⟩ (.event now {} e.2))
        { target := .stderr }
    let response : Response :=
      { stderr := SuperviseCommand.warning run ++ sink.stderrText, files := stage.fleet.files }
    match stage.result?.map SuperviseCommand.finish with
    | some (.ok code) => { response with exitCode := code.getD 0 }
    | some (.error f) => response.failing w debug f
    | none => response

def runSessions (w : World) (debug : Bool) (db : String)
    (read : Store → SessionsCommand.Printed) : Response :=
  let (files, printed) := SessionsCommand.withStore w.files w.base db read
  ({ stdout := printLines printed.lines, files } : Response).ending w debug printed.result

def runTask (w : World) (debug : Bool) (task : Task) (settings : List (String × Value))
    (arguments : List Value) : Response :=
  let db := database settings
  let json := isSet settings "json"
  match task with
  | .supervise => runSupervise w debug settings
  | .batch => runBatch w debug (batchInput settings arguments)
  | .listSessions => runSessions w debug db (SessionsCommand.listSessions db json)
  | .showSession =>
    let id := (arguments.head?.bind (·.number?)).getD .nan
    runSessions w debug db (SessionsCommand.showSession id json)

/-- Carries out what the words after the program name ask for. -/
def run (w : World) (words : List String) : Response :=
  let debug := words.contains "--debug"
  match read program words with
  | .version => { stdout := version ++ "\n", files := w.files }
  | .help path command asError =>
    if asError then { exitCode := 1, stderr := help path command, files := w.files }
    else { stdout := help path command, files := w.files }
  | .refuse f => ({ files := w.files } : Response).failing w debug f
  | .run task settings arguments => runTask w debug task settings arguments

end Bailiff.Console

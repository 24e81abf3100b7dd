-- SUMMARY: The settings of a supervised run, and the readers of command line numbers.
import Bailiff.Settings.Environment
import Bailiff.Files.Path

namespace Bailiff

/-! ## Places -/

/-- Where the process runs and keeps temporary files. -/
structure Places where
  work : String := "/work"
  temporary : String := "/tmp"
  package : String := "/package-root"
  deriving DecidableEq, Repr

/-! ## Settings of a run -/

/-- The settings of a supervised run. -/
structure RunSettings where
  workerCount : Binary64
  spawnServer : Bool
  spawnWorkers : Bool
  serverAddr : String
  serverArgs : String
  workerArgs : String
  logLevel : Level
  /-- The text of a log level that is not known; then only errors are logged. -/
  unrecognizedLogLevel : Option String
  toolsBin : String
  shell : String
  storeRoot : String
  workersFile : String
  deriving DecidableEq, Repr

/-- The file that receives the worker count unless another is named. -/
def defaultWorkersFile : String := "nworkers"

/-- One worker less than can run at once, but at least one. -/
def defaultWorkerCount (parallelism : Binary64) : Binary64 := (parallelism - 1).maximum 1

/-- The level of a run and, if its text is not a level, that text. -/
def runLevel (text : String) : Level × Option String :=
  match Level.parse? text with
  | some l => (l, none)
  | none => (.error, some text)

/-- Whether a number of jobs makes sense: an integer from one on. -/
def isJobCount (x : Binary64) : Bool := x.isInteger && !x.atMost 0

/-- The settings that variables and options give. -/
def RunSettings.load (places : Places) (env : Value) (jobs : Option Binary64)
    (workersFile : Option String) (parallelism : Binary64) : Except Failure RunSettings :=
  match Environment.read env with
  | .error issues => .error (Issue.failure issues)
  | .ok e =>
    match jobs with
    | some n =>
      if isJobCount n then .ok (build e n)
      else .error (.of .config ("Please specify a positive number of jobs, not " ++ n.text ++ "."))
    | none => .ok (build e (defaultWorkerCount parallelism))
where
  /-- The settings once everything has been checked. -/
  build (e : Environment) (count : Binary64) : RunSettings :=
    { workerCount := count
      spawnServer := e.spawnServer
      spawnWorkers := e.spawnWorkers
      serverAddr := e.serverAddr
      serverArgs := e.serverArgs
      workerArgs := e.workerArgs
      logLevel := (runLevel e.logLevel).1
      unrecognizedLogLevel := (runLevel e.logLevel).2
      toolsBin := e.toolsBin
      shell := e.shell
      storeRoot := Path.resolve places.work (e.storeRoot.getD places.temporary)
      workersFile := Path.resolve places.work (workersFile.getD defaultWorkersFile) }

/-- The log level for commands that only log. -/
def resolveLogLevel (env : Value) : Except Failure Level :=
  match Environment.read env with
  | .error issues => .error (Issue.failure issues)
  | .ok e => .ok (runLevel e.logLevel).1

/-! ## Numbers on the command line -/

/-- Reads an integer: an optional minus sign and decimal digits between blanks. -/
def parseInteger (text label : String) : Except Failure Binary64 :=
  match integerLiteral? (stripBlanks text.toList) with
  | some (negative, n) => .ok (.ofRatio negative n 1)
  | none =>
    .error (.of .config (label ++ " must be an integer, got \"" ++ text ++ "\"."))

/-- Reads an integer from one on. -/
def parsePositiveInteger (text label : String) : Except Failure Binary64 :=
  match parseInteger text label with
  | .error e => .error e
  | .ok n =>
    if n.atMost 0 then
      .error (.of .config (label ++ " must be a positive integer, got \"" ++ text ++ "\"."))
    else .ok n

/-- Reads a finite number above zero. -/
def parsePositiveNumber (text label : String) : Except Failure Binary64 :=
  let n := Binary64.ofText text
  if n.isFinite && !n.atMost 0 then .ok n
  else .error (.of .config (label ++ " must be a positive number, got \"" ++ text ++ "\"."))

end Bailiff

-- SUMMARY: One judge run: the process, its timer and the stop signal, and which of them decides.
import Bailiff.Log.Sink
import Bailiff.Process.Launch

/-!
# Judge runs

While a judge runs, it may end, its timer may fire and the batch may be stopped, in any order. The
timer and the stop kill the judge; what the run gives is decided when the process has ended.
-/

namespace Bailiff

/-! ## Command lines -/

/-- One run of the judge. -/
structure Invocation where
  command : CommandLine
  workDir : String
  timeoutMs : Binary64
  deriving DecidableEq, Repr

namespace Judge

/-- Three minutes. -/
def defaultTimeoutMs : Binary64 := 180000

def defaultCores : Binary64 := 7

/-- The judge on a task directory. Both paths are made absolute, so that they mean the same wherever
the judge runs. -/
def command (workDir judge task : String) (cores : Binary64) : CommandLine :=
  { file := Path.resolve workDir judge
    args := ["--task-dir", Path.resolve workDir task, "--num-cores", cores.text, "--no-cache",
      "--ui", "json"] }

/-! ## Timers and failures -/

/-- The longest delay of a timer, in milliseconds. -/
def maxDelay : Nat := 2147483647

/-- The delay that a timer really has: one outside of its range is one millisecond. -/
def timerDelay (ms : Binary64) : Binary64 :=
  if ms.isNaN || ms.less 1 || (Binary64.ofNat maxDelay).less ms then 1 else ms

/-- The variables that every judge run sees besides those of the harness. -/
def environment : List (String × String) := [("RUST_BACKTRACE", "1")]

/-- The value of a variable in an environment. -/
def variableIn (environment : Value) (name : String) : String :=
  ((environment.field name).text?).getD ""

/-- The value of a variable as a judge on a task sees it. -/
def variableOf (environment : Value) (name : String) : String :=
  (Judge.environment.lookup name).getD (variableIn environment name)

def stoppedBeforeStart : Failure := .of .batchStopped "Batch stopped before the judge was started"

def stoppedWhileRunning : Failure :=
  .because .batchStopped "Batch stopped while the judge was running" (.plain "Command failed")

def startFailure (c : CommandLine) (fault : FaultCode) : Failure :=
  .because .judgeSpawn ("Failed to start the judge " ++ c.file ++ ": " ++ c.spawnMessage fault)
    (.plain (c.spawnMessage fault))

def versionFailure (file : String) : Failure :=
  .because .judgeSpawn ("Failed to read the judge version from " ++ file)
    (.plain "Command failed")

end Judge

/-- A judge process with what has happened to it so far. -/
structure JudgeRun where
  command : CommandLine
  timedOut : Bool := false
  stopped : Bool := false
  /-- What the run gives, once the process has ended. -/
  result : Option (Except Failure Outcome) := none
  deriving Repr

namespace JudgeRun

/-- What can happen during a judge run. -/
inductive Event where
  | ended (ending : Ending) (stdout stderr : Output)
  | timer
  | stop
  deriving DecidableEq, Repr

/-- What a process that ended gives. What is reported as a regular exit with code 0 always counts as
completed. -/
def outcome (r : JudgeRun) (stdout stderr : Output) (ending : Ending) : Except Failure Outcome :=
  match ending.reported with
  | .exited 0 => .ok (.completed stdout stderr 0)
  | ending =>
    if r.timedOut then .ok .killed
    else if r.stopped then .error Judge.stoppedWhileRunning
    else match ending with
      | .exited code => .ok (.completed stdout stderr (.ofInt code))
      | .signalled name =>
        .ok (.completed stdout stderr (.ofInt (-(((Signal.number? name).getD 0 : Nat) : Int))))
      | .notStarted fault => .error (Judge.startFailure r.command fault)

/-- Takes an event. After the end of the process nothing matters any more. -/
def step (r : JudgeRun) (e : Event) : JudgeRun :=
  if r.result.isSome then r
  else match e with
    | .timer => { r with timedOut := true }
    | .stop => { r with stopped := true }
    | .ended ending stdout stderr => { r with result := some (r.outcome stdout stderr ending) }

end JudgeRun

/-! ## Judges in a file tree -/

namespace Judge

/-- The milliseconds that a program needs to start and end when it does nothing that lasts. -/
def startupMs : Binary64 := 2

/-- The milliseconds after which a lasting program ends by itself. -/
def lastingMs : Binary64 := 30000

/-- Runs a judge of the file tree. The stop comes while a lasting one runs; its timer fires when it
would run for longer. -/
def runScript (files : FileTree) (base : Location) (environment : Value) (i : Invocation)
    (stopComes : Bool) : FileTree × Except Failure Outcome :=
  let run : JudgeRun := { command := i.command }
  let events : FileTree × List JudgeRun.Event :=
    match files.program? base i.command.file with
    | .error fault => (files, [.ended (.notStarted fault) (.text "") (.text "")])
    | .ok script =>
      let workDir := Path.resolve (Path.ofParts base) i.workDir
      let stdout := Output.octets (script.printed i.command.args (variableOf environment) workDir)
      let stderr := Output.octets (Script.octets script.stderr)
      let files := script.effect files base i.command.args
      let killed : JudgeRun.Event := .ended (.signalled "SIGKILL") stdout stderr
      let delay := timerDelay i.timeoutMs
      if script.lasting && stopComes then (files, [.stop, killed])
      else if delay.less (if script.lasting then lastingMs else startupMs) then
        (files, [.timer, killed])
      else (files, [.ended script.ending stdout stderr])
  let done := events.2.foldl JudgeRun.step run
  (events.1, done.result.getD (.error stoppedWhileRunning))

/-- The event of a judge that is about to start. -/
def startEvent (i : Invocation) : Event :=
  { type := "judge.exec", level := .known .debug,
    payload := [("command", .text i.command.render), ("cwd", .text i.workDir)] }

/-- Runs a judge unless the batch has been stopped already, and says so in the log. -/
def runLogged (files : FileTree) (base : Location) (environment : Value) (i : Invocation)
    (stopped stopComes : Bool) : FileTree × Except Failure Outcome × List Event :=
  if stopped then (files, .error stoppedBeforeStart, [])
  else
    let (files, result) := runScript files base environment i stopComes
    (files, result, [startEvent i])

/-- Reads the version that a judge of the file tree prints. -/
def readVersion (files : FileTree) (base : Location) (environment : Value) (judge : String) :
    FileTree × Except Failure String :=
  let file := Path.resolve (Path.ofParts base) judge
  match files.program? base file with
  | .error _ => (files, .error (versionFailure file))
  | .ok script =>
    let args := ["--version"]
    let files := script.effect files base args
    match script.ending.reported with
    | .exited _ =>
      let out := Utf8.decode (script.printed args (variableIn environment) (Path.ofParts base))
      (files, .ok (trimBlanks out))
    | _ => (files, .error (versionFailure file))

end Judge

end Bailiff

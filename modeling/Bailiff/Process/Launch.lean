-- SUMMARY: How processes end, and starting programs of the file tree.
import Bailiff.CommandLine.Basic
import Bailiff.Files.Tree

/-!
# Processes

What is reported of the end of a process decides its exit code. A program of the file tree does what its script
says, or could not be started.
-/

namespace Bailiff

/-! ## Signals and ends -/

namespace Signal

/-- The signals by name. -/
def numbers : List (String × Nat) :=
  [("SIGHUP", 1), ("SIGINT", 2), ("SIGQUIT", 3), ("SIGILL", 4), ("SIGTRAP", 5), ("SIGABRT", 6),
    ("SIGIOT", 6), ("SIGBUS", 7), ("SIGFPE", 8), ("SIGKILL", 9), ("SIGUSR1", 10), ("SIGSEGV", 11),
    ("SIGUSR2", 12), ("SIGPIPE", 13), ("SIGALRM", 14), ("SIGTERM", 15), ("SIGSTKFLT", 16),
    ("SIGCHLD", 17), ("SIGCONT", 18), ("SIGSTOP", 19), ("SIGTSTP", 20), ("SIGTTIN", 21),
    ("SIGTTOU", 22), ("SIGURG", 23), ("SIGXCPU", 24), ("SIGXFSZ", 25), ("SIGVTALRM", 26),
    ("SIGPROF", 27), ("SIGWINCH", 28), ("SIGIO", 29), ("SIGPOLL", 29), ("SIGPWR", 30),
    ("SIGSYS", 31)]

def number? (name : String) : Option Nat := (numbers.find? fun s => s.1 = name).map (·.2)

/-- The exit code that stands for a signal: 128 and its number, or 1 for an unknown one. -/
def exitCode (name : String) : Int := (number? name).elim 1 fun n => 128 + (n : Int)

end Signal

/-- How a process ends: with an exit code, by a signal, or without ever having started. -/
inductive Ending where
  | exited (code : Int)
  | signalled (name : String)
  | notStarted (fault : FaultCode)
  deriving DecidableEq, Repr

/-- What is reported of the end of a process. A signal that has no name there is taken for a regular
exit with code 0. -/
def Ending.reported : Ending → Ending
  | signalled name => if (Signal.number? name).isSome then signalled name else exited 0
  | ending => ending

/-! ## Exit codes and messages -/

namespace CommandLine

/-- The characters that a spawn message leaves unquoted. -/
def isBareInMessage (c : Char) : Bool :=
  c.isAlphanum || c = '_' || c = '.' || c = '/' || c = '-'

/-- A word in a spawn message. A single quote closes the quotes, stands escaped, and opens them
again. -/
def messageWord (w : String) : String :=
  if !w.isEmpty && w.toList.all isBareInMessage then w
  else
    let inner := w.toList.flatMap fun c => if c = '\x27' then ['\x27', '\\', '\x27', '\x27'] else [c]
    String.ofList ('\x27' :: inner ++ ['\x27'])

/-- What is said of a program that could not be started. -/
def spawnMessage (c : CommandLine) (fault : FaultCode) : String :=
  let words := " ".intercalate ((c.file :: c.args).map messageWord)
  let site := if fault = .notDirectory then "" else " " ++ c.file
  "Command failed with " ++ fault.code ++ ": " ++ words ++ "\nspawn" ++ site ++ " " ++ fault.code

/-- The failure of a program that could not be started. -/
def spawnFailure (c : CommandLine) (fault : FaultCode) : Failure :=
  .trouble .processSpawn ("Failed to start " ++ c.render ++ ": " ++ c.spawnMessage fault)
    (some (.plain (c.spawnMessage fault))) (some fault.code) .unknown

/-- The exit code of a process; one that is reported as ended by a signal has the conventional code. -/
def exitCode (c : CommandLine) (ending : Ending) : Except Failure Int :=
  match ending.reported with
  | .exited code => .ok code
  | .signalled name => .ok (Signal.exitCode name)
  | .notStarted fault => .error (c.spawnFailure fault)

end CommandLine

/-! ## Programs in a file tree -/

/-- The program of a file name, which must contain a slash to be found. -/
def FileTree.program? (t : FileTree) (base : Location) (file : String) : Except FaultCode Script :=
  if !file.toList.contains '/' then .error .noEntry
  else match t.locate base file with
    | .error code => .error code
    | .ok l =>
      match t.at? l with
      | none => .error .noEntry
      | some (.program script true) => .ok script
      | some _ => .error .denied

namespace Script

/-- A text and a line end. -/
def line (s : String) : List UInt8 := Utf8.encode (s ++ "\n")

def octets : Output → List UInt8
  | .text s => Utf8.encode s
  | .octets bytes => bytes

/-- What a program prints. -/
def printed (s : Script) (args : List String) (env : String → String) (workDir : String) :
    List UInt8 :=
  (if s.showArgs then args.flatMap line else [])
    ++ (s.showEnv.elim [] fun name => line (env name))
    ++ (if s.showWorkDir then line workDir else [])
    ++ octets s.stdout

/-- The file tree after a program has run. -/
def effect (s : Script) (files : FileTree) (base : Location) (args : List String) : FileTree :=
  match s.argsFile with
  | none => files
  | some path => (files.writeText base path (String.join (args.map (· ++ "\n")))).1

/-- How a program ends when nothing ends it before. An exit code is one octet. -/
def ending (s : Script) : Ending :=
  s.signal.elim (.exited (s.exit % 256)) fun name => .signalled ("SIG" ++ name)

end Script

/-! ## Programs in the background -/

/-- What is done to a program right after its start. -/
inductive Intervention where
  | nothing
  | terminate
  | release
  | stop
  deriving DecidableEq, Repr

/-- A started program: whether it has a process, and how waiting for it turns out. -/
structure Launched where
  hasProcess : Bool
  exit : Except Failure Int
  files : FileTree

/-- Starts a program. To be terminated or stopped ends it by the signal for that; to be released
changes nothing for the program. -/
def CommandLine.launch (c : CommandLine) (files : FileTree) (base : Location)
    (i : Intervention) : Launched :=
  match files.program? base c.file with
  | .error fault => { hasProcess := false, exit := c.exitCode (.notStarted fault), files }
  | .ok script =>
    let ending := match i with
      | .terminate => .signalled "SIGTERM"
      | .stop => .signalled "SIGTERM"
      | _ => script.ending
    { hasProcess := true, exit := c.exitCode ending, files := script.effect files base c.args }

end Bailiff

-- SUMMARY: The command lines of server and workers, and the mode that the settings ask for.
import Bailiff.CommandLine.Basic
import Bailiff.Settings.Run

namespace Bailiff

/-- The flag that makes the tools as talkative as a level. -/
def verbosityFlag (level : String) : Option String :=
  match Level.ofName? (if level = "warning" then "warn" else level) with
  | some .warn => some "-v"
  | some .info => some "-vv"
  | some .debug => some "-vvv"
  | _ => none

/-- What the command lines depend on. -/
structure ToolSettings where
  toolsBin : String
  logLevel : String
  serverArgs : String
  workerArgs : String
  serverAddr : String
  deriving DecidableEq, Repr

def RunSettings.tools (s : RunSettings) : ToolSettings :=
  { toolsBin := s.toolsBin
    logLevel := s.logLevel.name
    serverArgs := s.serverArgs
    workerArgs := s.workerArgs
    serverAddr := s.serverAddr }

namespace ToolSettings

def serverCommand (s : ToolSettings) (store : String) : Except Failure CommandLine :=
  CommandLine.build s.toolsBin
    [.flag (verbosityFlag s.logLevel), .args ["server", "--store-dir", store], .raw s.serverArgs]

def workerCommand (s : ToolSettings) (store : String) : Except Failure CommandLine :=
  CommandLine.build s.toolsBin
    [.flag (verbosityFlag s.logLevel), .args ["worker", "--store-dir", store], .raw s.workerArgs,
      .args [s.serverAddr]]

end ToolSettings

/-- What a supervised run starts. -/
inductive Mode where
  | workersOnly
  | serverOnly
  | serverAndWorkers
  | shell
  deriving DecidableEq, Repr

namespace Mode

def text : Mode → String
  | workersOnly => "workers-only"
  | serverOnly => "server-only"
  | serverAndWorkers => "server+workers"
  | shell => "shell"

def select (server workers : Bool) : Mode :=
  match server, workers with
  | true, true => serverAndWorkers
  | true, false => serverOnly
  | false, true => workersOnly
  | false, false => shell

end Mode

end Bailiff

-- SUMMARY: The command line of the harness: supervise, batch and sessions.
import Bailiff.Console.Parse

namespace Bailiff.Console

/-- What the harness can be told to do. -/
inductive Task where
  | supervise
  | batch
  | listSessions
  | showSession
  deriving DecidableEq, Repr

def programName : String := "judge-harness"

def version : String := "0.1.0"

/-- The database that is used unless another is named. -/
def defaultDatabase : String := "db.sqlite3"

def quoted (s : String) : String := "\"" ++ s ++ "\""

def databaseOption : OptionSpec :=
  { name := "db"
    form := .value none "path" .text
    summary := "Result database"
    default := some (quoted defaultDatabase) }

def jsonOption : OptionSpec :=
  { name := "json", form := .switch, summary := "Emit JSON output", default := some "false" }

def superviseCommand : CommandSpec Task :=
  .leaf
    { name := "supervise"
      summary := "Launch and supervise the compute server and/or worker fleet"
      options :=
        [{ name := "jobs"
           form := .value (some 'j') "n" (.integer "--jobs")
           summary := "Number of workers (default: available parallelism - 1, at least 1)" },
          { name := "workers-file"
            form := .value none "path" .text
            summary := "File that receives the started worker count"
            default := some (quoted defaultWorkersFile) }] }
    [] .supervise

def batchCommand : CommandSpec Task :=
  .leaf
    { name := "batch"
      summary := "Run every task directory through the judge, skipping tasks already recorded"
      options :=
        [databaseOption,
          { name := "session"
            form := .value none "id" (.integer "--session")
            summary := "Resume an existing session instead of starting a new one" },
          { name := "timeout"
            form := .value none "seconds" (.positiveNumber "--timeout")
            summary := "Wall-clock limit per task"
            default := some "180" },
          { name := "cores"
            form := .value none "n" (.positiveInteger "--cores")
            summary := "Cores the judge may use per task"
            default := some "7" },
          { name := "log-file"
            form := .value none "path" .text
            summary := "Append JSONL log events to a file instead of stderr" }] }
    [{ name := "judge", summary := "Path to the judge binary" },
      { name := "dir", summary := "Directory containing one subdirectory per task" }]
    .batch

def sessionsCommand : CommandSpec Task :=
  .group
    { name := "sessions", summary := "Inspect sessions and results recorded by `batch`" }
    [.leaf
        { name := "list"
          summary := "List recorded sessions with their result counts"
          options := [databaseOption, jsonOption] }
        [] .listSessions,
      .leaf
        { name := "show"
          summary := "Show the per-task results of one session"
          options := [databaseOption, jsonOption] }
        [{ name := "id", reader := .integer "Session id", summary := "Session id" }]
        .showSession]

def program : CommandSpec Task :=
  .group
    { name := programName
      summary := "Compute server/worker supervisor and resumable judge batch driver"
      options :=
        [{ name := "version", form := .version, summary := "output the version number" },
          { name := "debug"
            form := .switch
            summary := "Show error codes, causes and stack traces"
            default := some "false" }] }
    [superviseCommand, batchCommand, sessionsCommand]

end Bailiff.Console

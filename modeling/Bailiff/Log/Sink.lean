-- SUMMARY: Where log lines go, and loggers, which decide what is written and complete it.
import Bailiff.Log.Event
import Bailiff.Files.Tree

/-!
# Sinks and loggers

A sink takes lines until it is closed and never fails: a line that cannot be written is reported as a
warning instead. Loggers share one sink; each has a level and `Defaults`.
-/

namespace Bailiff

/-! ## Sinks -/

/-- Where the lines of a sink go. A stream may fail at every line. -/
inductive Target where
  | memory
  | stderr
  | stream (label : String) (failure : Option Failure)
  | file (label : String) (device : Option Device)
  deriving Repr

/-- What a sink was asked for: a line, or to be closed. -/
inductive Mark where
  | line (s : String)
  | closed
  deriving DecidableEq, Repr

def Mark.text : Mark → String
  | line s => s
  | closed => "<closed>"

structure Sink where
  target : Target
  closed : Bool := false
  /-- What has been taken so far. -/
  marks : List Mark := []
  warnings : List String := []
  deriving Repr

namespace Sink

def warn (s : Sink) (action reason : String) : Sink :=
  { s with warnings := s.warnings ++ ["Warning: failed to " ++ action ++ ": " ++ reason ++ "\n"] }

/-- Takes a line, its end included. -/
def write (s : Sink) (line : String) : Sink :=
  match s.target with
  | .memory => { s with marks := s.marks ++ [.line line] }
  | .stderr => { s with marks := s.marks ++ [.line line] }
  | .stream _ none => { s with marks := s.marks ++ [.line line] }
  | .stream label (some failure) => s.warn ("write log event to " ++ label) failure.message
  | .file label device =>
    if s.closed then s
    else match device with
      | some .full =>
        s.warn ("write log event to " ++ label) (FileFault.mk .noSpace "write" none).message
      | _ => { s with marks := s.marks ++ [.line line] }

/-- Closes a sink. Only a file is closed for good, and only once. -/
def close (s : Sink) : Sink :=
  match s.target with
  | .memory => { s with marks := s.marks ++ [.closed] }
  | .stderr => s
  | .stream .. => s
  | .file label device =>
    if s.closed then s
    else match device with
      | some .full =>
        { s.warn ("close log " ++ label) (FileFault.mk .invalid "fsync" none).message with
          closed := true }
      | _ => { s with closed := true }

/-- The text of the lines taken. -/
def text (s : Sink) : String :=
  String.join (s.marks.map fun m => match m with
    | .line l => l
    | .closed => "")

/-- What appears on the error stream: the lines, if they go there, or else the warnings. -/
def stderrText (s : Sink) : String :=
  match s.target with
  | .stderr => s.text
  | _ => String.join s.warnings

end Sink

/-! ## Loggers -/

structure Logger where
  level : LevelName := .known .info
  defaults : Defaults := {}
  deriving DecidableEq, Repr

/-- What a new logger says about a default: nothing, or what it is. -/
structure DefaultChanges where
  session : Option (Option Binary64) := none
  task : Option (Option String) := none
  deriving DecidableEq, Repr

namespace Logger

def enabled (lg : Logger) (l : LevelName) : Bool := lg.level.enables l

/-- A logger with other defaults where the changes say so. -/
def child (lg : Logger) (c : DefaultChanges) : Logger :=
  { lg with
    defaults :=
      { session := c.session.getD lg.defaults.session
        task := c.task.getD lg.defaults.task } }

/-- Writes an event, if its level is enabled. -/
def log (lg : Logger) (now : Instant) (e : Event) (s : Sink) : Except Failure Sink :=
  if lg.enabled e.level then
    (e.line lg.defaults now).map fun line => s.write (line ++ "\n")
  else .ok s

end Logger

/-! ## Journals -/

/-- Something to be noted by a running program: an event at an instant, or the end of the log. -/
inductive Entry where
  | event (now : Instant) (logger : DefaultChanges) (e : Event)
  | close
  deriving Repr

/-- The sink after one more entry. An event without a valid time is not written. -/
def Sink.take (lg : Logger) (s : Sink) : Entry → Sink
  | .event now changes e =>
    match (lg.child changes).log now e s with
    | .ok s => s
    | .error _ => s
  | .close => s.close

end Bailiff

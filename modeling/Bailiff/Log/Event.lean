-- SUMMARY: Log levels and log events, and the line of JSON that an event becomes.
import Bailiff.Failure

/-!
# Events

An event is written as one line of JSON: its time, level, type, and when present its session, task
and payload. What an event does not say itself is taken from the `Defaults` of its logger.
-/

namespace Bailiff

/-! ## Levels -/

inductive Level where
  | error
  | warn
  | info
  | debug
  deriving DecidableEq, Repr

namespace Level

def all : List Level := [error, warn, info, debug]

def name : Level → String
  | error => "error"
  | warn => "warn"
  | info => "info"
  | debug => "debug"

/-- How much a level lets through. -/
def rank : Level → Nat
  | error => 0
  | warn => 1
  | info => 2
  | debug => 3

/-- The level of a name. -/
def ofName? (s : String) : Option Level := all.find? (·.name = s)

/-- The level of a text, whatever its case and the blanks around it; `warning` is another name of
`warn`. -/
def parse? (text : String) : Option Level :=
  let word := String.ofList ((stripBlanks text.toList).map Char.toLower)
  if word = "warning" then some warn else ofName? word

end Level

/-- A level by its name, which may not be a known one. -/
inductive LevelName where
  | known (l : Level)
  | unknown (s : String)
  deriving DecidableEq, Repr

namespace LevelName

def ofText (s : String) : LevelName := (Level.ofName? s).elim (unknown s) known

def text : LevelName → String
  | known l => l.name
  | unknown s => s

/-- Whether events of level `l` pass at this level. An unknown level lets nothing through and passes
nowhere. -/
def enables (threshold l : LevelName) : Bool :=
  match threshold, l with
  | known t, known l => l.rank ≤ t.rank
  | _, _ => false

end LevelName

/-! ## Events -/

/-- When an event happened: at the time of writing, at a given instant, or as a text says. -/
inductive EventTime where
  | now
  | instant (ms : Binary64)
  | text (s : String)
  deriving DecidableEq, Repr

structure Event where
  type : String
  level : LevelName := .known .info
  session : Option Binary64 := none
  task : Option String := none
  payload : List (String × Value) := []
  time : EventTime := .now
  deriving Repr

/-- What a logger adds to its events. -/
structure Defaults where
  session : Option Binary64 := none
  task : Option String := none
  deriving DecidableEq, Repr

/-- The text of the time of an event. -/
def EventTime.render (now : Instant) : EventTime → Except Failure String
  | .now => .ok now.iso
  | text s => .ok s
  | instant ms =>
    match Instant.ofNumber? ms with
    | some t => .ok t.iso
    | none => .error (.fault .range "Invalid time value" .unknown)

namespace Event

/-- The session of an event, if there is one. -/
def sessionFields (e : Event) (d : Defaults) : List (String × Json) :=
  match e.session.orElse fun _ => d.session with
  | some n => [("session_id", Value.numberToJson n)]
  | none => []

/-- The task of an event; an empty name is none. -/
def taskFields (e : Event) (d : Defaults) : List (String × Json) :=
  match e.task.orElse fun _ => d.task with
  | some t => if t.isEmpty then [] else [("task", .string t)]
  | none => []

/-- The payload of an event, if it has any field. -/
def payloadFields (e : Event) : List (String × Json) :=
  if e.payload.isEmpty then [] else [("payload", .object (Value.fieldsToJson e.payload))]

/-- An event as a tree, its time written already. -/
def toJson (e : Event) (d : Defaults) (time : String) : Json :=
  .object ([("ts", .string time), ("level", .string e.level.text), ("type", .string e.type)]
    ++ e.sessionFields d ++ e.taskFields d ++ e.payloadFields)

/-- The line of an event, without its end. -/
def line (e : Event) (d : Defaults) (now : Instant) : Except Failure String :=
  (e.time.render now).map fun time => (e.toJson d time).compact

end Event

end Bailiff

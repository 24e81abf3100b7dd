-- SUMMARY: The variables that configure the harness, and everything that can be wrong with them.
import Bailiff.Log.Event

/-!
# Environment

`Environment.read` turns the variables of the process into `Environment`, or into the list of all
issues in the order of the variables.
-/

namespace Bailiff

/-! ## Issues -/

/-- What is wrong with a variable: it is not a text (but a value of the named type), or it is blank. The
variables as a whole may not even be a record. -/
inductive Issue where
  | notText (name received : String)
  | blank (name : String)
  | notRecord (received : String)
  deriving DecidableEq, Repr

namespace Issue

def path : Issue → List String
  | notText v _ => [v]
  | blank v => [v]
  | notRecord _ => []

def message : Issue → String
  | notText _ received => "Expected string, received " ++ received
  | blank _ => "String must contain at least 1 character(s)"
  | notRecord received => "Expected object, received " ++ received

/-- One line for an issue. -/
def line (i : Issue) : String := ".".intercalate i.path ++ ": " ++ i.message

/-- All particulars of an issue. -/
def toJson (i : Issue) : Json :=
  let tail : List (String × Json) := [("message", .string i.message), ("path", .array (i.path.map .string))]
  match i with
  | notText _ received =>
    .object [("code", .string "invalid_type"), ("expected", .string "string"),
      ("received", .string received), ("path", .array (i.path.map .string)),
      ("message", .string i.message)]
  | notRecord received =>
    .object [("code", .string "invalid_type"), ("expected", .string "object"),
      ("received", .string received), ("path", .array []), ("message", .string i.message)]
  | blank _ =>
    .object ([("code", .string "too_small"), ("minimum", .number "1"), ("type", .string "string"),
      ("inclusive", .bool true), ("exact", .bool false)] ++ tail)

/-- The failure that stands for a list of issues. -/
def failure (issues : List Issue) : Failure :=
  .because .config
    ("Invalid environment configuration: " ++ "; ".intercalate (issues.map line))
    (.plain (Json.array (issues.map toJson)).indented)

end Issue

/-! ## Reading -/

/-- The type of a value as issues name it. -/
def Value.typeName : Value → String
  | absent => "undefined"
  | null => "null"
  | bool _ => "boolean"
  | number x => if x.isNaN then "nan" else "number"
  | text _ => "string"
  | octets _ => "object"
  | date _ => "date"
  | list _ => "array"
  | record _ => "object"

/-- The variables of the harness. -/
structure Environment where
  serverArgs : String
  workerArgs : String
  serverAddr : String
  spawnServer : Bool
  spawnWorkers : Bool
  logLevel : String
  toolsBin : String
  shell : String
  storeRoot : Option String
  deriving DecidableEq, Repr

namespace Environment

/-- A variable that may hold any text. -/
def anyText (env : Value) (name default : String) : Except Issue String :=
  match env.field name with
  | .absent => .ok default
  | .text s => .ok s
  | v => .error (.notText name v.typeName)

/-- A variable that must not be blank; the blanks around it are dropped. -/
def nonBlank? (env : Value) (name : String) : Except Issue (Option String) :=
  match env.field name with
  | .absent => .ok none
  | .text s =>
    let trimmed := trimBlanks s
    if trimmed.isEmpty then .error (.blank name) else .ok (some trimmed)
  | v => .error (.notText name v.typeName)

/-- A variable that must not be blank and has a default. -/
def nonBlank (env : Value) (name default : String) : Except Issue String :=
  (nonBlank? env name).map (·.getD default)

/-- A variable that is on when it says `true` in any case, and by default. -/
def flag (env : Value) (name : String) : Except Issue Bool :=
  (anyText env name "true").map fun s =>
    String.ofList ((stripBlanks s.toList).map Char.toLower) = "true"

/-- The issue of a variable, if it has one. -/
def issueOf {α : Type} : Except Issue α → List Issue
  | .ok _ => []
  | .error i => [i]

/-- Reads the variables in their fixed order. All issues are reported together. -/
def read (env : Value) : Except (List Issue) Environment :=
  match env with
  | .record _ =>
    let serverArgs := anyText env "SERVER_ARGS" ""
    let workerArgs := anyText env "WORKER_ARGS" ""
    let serverAddr := nonBlank env "SERVER_ADDR" "127.0.0.1:27183"
    let spawnServer := flag env "SPAWN_SERVER"
    let spawnWorkers := flag env "SPAWN_WORKERS"
    let logLevel := anyText env "HARNESS_LOGLEVEL" "info"
    let toolsBin := nonBlank env "JUDGE_TOOLS_BIN" "judge-tools"
    let shell := nonBlank env "SHELL" "/bin/bash"
    let storeRoot := nonBlank? env "HARNESS_STORE_ROOT"
    match serverArgs, workerArgs, serverAddr, spawnServer, spawnWorkers, logLevel, toolsBin, shell,
      storeRoot with
    | .ok a, .ok b, .ok c, .ok d, .ok e, .ok f, .ok g, .ok h, .ok i => .ok ⟨a, b, c, d, e, f, g, h, i⟩
    | _, _, _, _, _, _, _, _, _ =>
      .error (issueOf serverArgs ++ issueOf workerArgs ++ issueOf serverAddr ++ issueOf spawnServer
        ++ issueOf spawnWorkers ++ issueOf logLevel ++ issueOf toolsBin ++ issueOf shell
        ++ issueOf storeRoot)
  | .absent => .error [.notRecord "undefined"]
  | v => .error [.notRecord v.typeName]

end Environment

end Bailiff

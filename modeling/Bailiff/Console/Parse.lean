-- SUMMARY: From the words of a command line to the task that is asked for, or to what is wrong with them.
import Bailiff.Console.Grammar
import Bailiff.Console.Suggestion

/-!
# Reading command lines

Every command on the way sorts the words that reach it: its own options are taken out wherever they
stand, and from the first unknown option on all other words are left for the command below. Then a
group passes operands and unknown words on to the child that the first operand names.
-/

namespace Bailiff.Console

/-! ## Sorting words -/

/-- Why the reading of a command line ends early. -/
inductive Stop where
  | version
  | refused (f : Failure)
  deriving Repr

/-- The words that a command has sorted. -/
structure Sorted where
  operands : List String := []
  /-- The first unknown option and all further words that are not options of the command. -/
  unknown : List String := []
  settings : List (String × Value) := []
  deriving Repr

/-- Whether a word looks like an option. -/
def looksLikeOption (word : String) : Bool :=
  match word.toList with
  | '-' :: _ :: _ => true
  | _ => false

/-- An option of a value whose letter begins a word, and the value in the rest of the word. -/
def lettered? (options : List OptionSpec) (word : String) : Option (OptionSpec × String) :=
  match word.toList with
  | '-' :: c :: d :: rest =>
    if c = '-' then none
    else (options.find? (·.letter? = some c)).map fun o => (o, String.ofList (d :: rest))
  | _ => none

/-- An option of a value whose name stands before an equals sign, and the value after it. -/
def assigned? (options : List OptionSpec) (word : String) : Option (OptionSpec × String) :=
  let cs := word.toList
  let name := cs.takeWhile (· ≠ '=')
  if ['-', '-'].isPrefixOf cs ∧ 2 < name.length ∧ name.length < cs.length then
    (options.find? fun o => o.long = String.ofList name && o.form matches .value ..).map
      fun o => (o, String.ofList (cs.drop (name.length + 1)))
  else none

def Sorted.set (s : Sorted) (o : OptionSpec) (v : Value) : Sorted :=
  { s with settings := s.settings ++ [(o.name, v)] }

/-- Takes the value of an option. -/
def Sorted.take (s : Sorted) (o : OptionSpec) (text : String) : Except Stop Sorted :=
  match o.form with
  | .version => .error .version
  | .switch => .ok (s.set o (.bool true))
  | .value _ _ reader =>
    match reader.read text with
    | .ok v => .ok (s.set o v)
    | .error f => .error (.refused f)

/-- Words that are no options of the command. -/
def Sorted.leave (s : Sorted) (words : List String) (afterUnknown : Bool) : Sorted :=
  if afterUnknown then { s with unknown := s.unknown ++ words }
  else { s with operands := s.operands ++ words }

def usageError (message : String) : Failure := .fault .usage ("error: " ++ message) .unknown

def missingValue (o : OptionSpec) : Failure := usageError ("option '" ++ o.term ++ "' argument missing")

/-- Sorts words by the options of a command. An option before them may still need its value. -/
def sortWords (options : List OptionSpec) :
    Option OptionSpec → List String → Sorted → Except Stop Sorted
  | none, [], s => .ok s
  | some o, [], _ => .error (.refused (missingValue o))
  | some o, text :: rest, s =>
    match s.take o text with
    | .ok s => sortWords options none rest s
    | .error stop => .error stop
  | none, word :: rest, s =>
    let afterUnknown := !s.unknown.isEmpty
    if word = "--" then
      .ok (s.leave (if afterUnknown then word :: rest else rest) afterUnknown)
    else match options.find? (·.isNamed word) with
      | some o =>
        if o.form matches .value .. then sortWords options (some o) rest s
        else match s.take o "" with
          | .ok s => sortWords options none rest s
          | .error stop => .error stop
      | none =>
        match (lettered? options word).orElse fun _ => assigned? options word with
        | some (o, text) =>
          match s.take o text with
          | .ok s => sortWords options none rest s
          | .error stop => .error stop
        | none => sortWords options none rest (s.leave [word] (afterUnknown || looksLikeOption word))

/-! ## Finding the task -/

/-- What a command line asks for. -/
inductive Order (α : Type) where
  | version
  /-- Help on the command at the end of a path of names; it is an error when something was missing. -/
  | help (path : List String) (command : CommandSpec α) (asError : Bool)
  | run (task : α) (settings : List (String × Value)) (arguments : List Value)
  | refuse (f : Failure)

variable {α : Type}

/-- The long names of the options of commands, help included. -/
def flagsOf (commands : List (CommandSpec α)) : List String :=
  commands.flatMap fun c => c.options.map (·.long) ++ ["--help"]

def unknownOption (line : List (CommandSpec α)) (word : String) : Failure :=
  let hint := if ['-', '-'].isPrefixOf word.toList then suggestion word (flagsOf line) else ""
  usageError ("unknown option '" ++ word ++ "'" ++ hint)

def unknownCommand (c : CommandSpec α) (word : String) : Failure :=
  usageError ("unknown command '" ++ word ++ "'"
    ++ suggestion word (c.children.map (·.name) ++ [helpName]))

def missingArgument (a : ArgumentSpec) : Failure :=
  usageError ("missing required argument '" ++ a.name ++ "'")

/-- Reads the operands of a leaf. Those beyond its arguments do not matter. -/
def readArguments : List ArgumentSpec → List String → Except Failure (List Value)
  | [], _ => .ok []
  | _ :: _, [] => .ok []
  | a :: more, word :: rest =>
    match a.reader.read word with
    | .error f => .error f
    | .ok v => (readArguments more rest).map (v :: ·)

/-- The order of a leaf whose words have been sorted. -/
def leafOrder (line : List (CommandSpec α)) (path : List String) (c : CommandSpec α)
    (arguments : List ArgumentSpec) (task : α) (operands : List String) (s : Sorted) : Order α :=
  if s.unknown.any helpWords.contains then .help path c false
  else match s.unknown with
    | word :: _ => .refuse (unknownOption line word)
    | [] =>
      match arguments[operands.length]? with
      | some a => .refuse (missingArgument a)
      | none =>
        match readArguments arguments operands with
        | .ok values => .run task s.settings values
        | .error f => .refuse f

/-- What a group does with words that name none of its children. -/
def groupOrder (line : List (CommandSpec α)) (path : List String) (c : CommandSpec α)
    (operands : List String) (unknown : List String) : Order α :=
  match operands, unknown with
  | [], [] => .help path c true
  | name :: rest, _ =>
    if name = helpName then
      let wanted := rest.headD ""
      if wanted.isEmpty then .help path c false
      else match c.children.find? (·.name = wanted) with
        | some child => .help (path ++ [child.name]) child false
        | none => .help path c true
    else if unknown.any helpWords.contains then .help path c false
    else .refuse (unknownCommand c name)
  | [], word :: _ =>
    if unknown.any helpWords.contains then .help path c false
    else .refuse (unknownOption line word)

/-- The order that words give to a command. `above` are the commands on the way to it, the nearest
first, and `path` their names and its own. -/
def order (above : List (CommandSpec α)) (path : List String) (c : CommandSpec α)
    (operands words : List String) : Order α :=
  match sortWords c.options none words {} with
  | .error .version => .version
  | .error (.refused f) => .refuse f
  | .ok s =>
    let operands := operands ++ s.operands
    match c with
    | .leaf header arguments task =>
      leafOrder (c :: above) path (.leaf header arguments task) arguments task operands s
    | .group header children =>
      match h : children.find? (fun child => operands.head? = some child.name) with
      | some child =>
        have := List.sizeOf_lt_of_mem (List.mem_of_find?_eq_some h)
        order (.group header children :: above) (path ++ [child.name]) child operands.tail s.unknown
      | none => groupOrder (c :: above) path (.group header children) operands s.unknown
termination_by c

/-- The order that the words after the name of a program give. -/
def read (program : CommandSpec α) (words : List String) : Order α :=
  order [] [program.name] program [] words

end Bailiff.Console

-- SUMMARY: The commands of a program, with their options and arguments.
import Bailiff.Settings.Run

/-!
# Command grammar

A program is a tree of commands. A leaf is a task with options and arguments, a group has further
commands below it. Only the version and options with a value have a letter of their own.
-/

namespace Bailiff.Console

/-! ## Values -/

/-- How the text of a value is read. Numbers are named by a label when they are refused. -/
inductive Reader where
  | text
  | integer (label : String)
  | positiveInteger (label : String)
  | positiveNumber (label : String)
  deriving DecidableEq, Repr

def Reader.read (text : String) : Reader → Except Failure Value
  | .text => .ok (.text text)
  | .integer label => (parseInteger text label).map .number
  | .positiveInteger label => (parsePositiveInteger text label).map .number
  | .positiveNumber label => (parsePositiveNumber text label).map .number

/-! ## Options and arguments -/

inductive OptionForm where
  /-- Asks for the version of the program. -/
  | version
  /-- Is there or not. -/
  | switch
  /-- Has a value, and maybe a letter. -/
  | value (letter : Option Char) (placeholder : String) (reader : Reader)
  deriving DecidableEq, Repr

structure OptionSpec where
  name : String
  form : OptionForm
  summary : String
  /-- The default as the help shows it. -/
  default : Option String := none
  deriving DecidableEq, Repr

namespace OptionSpec

/-- The letter of an option. -/
def letter? (o : OptionSpec) : Option Char :=
  match o.form with
  | .version => some 'V'
  | .switch => none
  | .value letter _ _ => letter

def long (o : OptionSpec) : String := "--" ++ o.name

/-- The option as it is written, with its letter and a place for its value. -/
def term (o : OptionSpec) : String :=
  let short := o.letter?.elim "" fun c => String.ofList ['-', c, ',', ' ']
  let place := match o.form with
    | .value _ placeholder _ => " <" ++ placeholder ++ ">"
    | _ => ""
  short ++ o.long ++ place

/-- Whether a word is the option by its name or its letter. -/
def isNamed (o : OptionSpec) (word : String) : Bool :=
  word = o.long || o.letter?.any fun c => word = String.ofList ['-', c]

end OptionSpec

structure ArgumentSpec where
  name : String
  reader : Reader := .text
  summary : String
  deriving DecidableEq, Repr

/-! ## Commands -/

/-- What every command has. -/
structure Header where
  name : String
  summary : String
  options : List OptionSpec := []
  deriving DecidableEq, Repr

inductive CommandSpec (α : Type) where
  | leaf (header : Header) (arguments : List ArgumentSpec) (task : α)
  | group (header : Header) (children : List (CommandSpec α))

namespace CommandSpec

variable {α : Type}

def header : CommandSpec α → Header
  | leaf h _ _ => h
  | group h _ => h

def name (c : CommandSpec α) : String := c.header.name

def options (c : CommandSpec α) : List OptionSpec := c.header.options

def arguments : CommandSpec α → List ArgumentSpec
  | leaf _ arguments _ => arguments
  | group _ _ => []

def children : CommandSpec α → List (CommandSpec α)
  | leaf _ _ _ => []
  | group _ children => children

end CommandSpec

/-- The words that ask for help. -/
def helpWords : List String := ["-h", "--help"]

/-- The command that asks for help. -/
def helpName : String := "help"

end Bailiff.Console

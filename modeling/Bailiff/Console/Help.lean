-- SUMMARY: Help texts: usage, arguments, options and commands in two columns.
import Bailiff.Console.Grammar

/-!
# Help

A help text has a usage line, the summary of the command and up to three sections. In a section every
item has its term in the first column and its description, wrapped if it is long, in the second.
-/

namespace Bailiff.Console

/-! ## Wrapping -/

/-- The width of a help text. -/
def pageWidth : Nat := 80

/-- How far items stand to the right. -/
def itemIndent : Nat := 2

/-- The gap between the columns. -/
def itemGap : Nat := 2

def spaces (n : Nat) : String := String.ofList (List.replicate n ' ')

/-- Words in as few lines as there can be; `line` is the line so far. -/
def wrapWords (width : Nat) : String → List String → List String
  | line, [] => [line]
  | line, word :: rest =>
    if line.length + 1 + word.length < width then wrapWords width (line ++ " " ++ word) rest
    else line :: wrapWords width word rest

/-- The lines of a text. -/
def wrap (width : Nat) (text : String) : List String :=
  match text.splitOn " " with
  | [] => []
  | first :: rest => wrapWords width first rest

/-! ## Items -/

/-- One line of a section before it is laid out. -/
structure Item where
  term : String
  description : String
  deriving DecidableEq, Repr

/-- An item whose terms are padded to a width. -/
def Item.lines (termWidth : Nat) (i : Item) : List String :=
  let column := itemIndent + termWidth + itemGap
  match wrap (pageWidth - column) i.description with
  | [] => [spaces itemIndent ++ i.term]
  | first :: rest =>
    (spaces itemIndent ++ i.term ++ spaces (termWidth + itemGap - i.term.length) ++ first)
      :: rest.map (spaces column ++ ·)

def layout (title : String) (termWidth : Nat) (items : List Item) : List String :=
  if items.isEmpty then [] else title :: items.flatMap (·.lines termWidth) ++ [""]

def OptionSpec.item (o : OptionSpec) : Item :=
  ⟨o.term, o.summary ++ o.default.elim "" fun d => " (default: " ++ d ++ ")"⟩

def helpOption : Item := ⟨"-h, --help", "display help for command"⟩

def helpCommand : Item := ⟨"help [command]", "display help for command"⟩

variable {α : Type}

/-- The places of the arguments of a command. -/
def argumentPlaces (c : CommandSpec α) : String :=
  String.join (c.arguments.map fun a => " <" ++ a.name ++ ">")

/-- A command as an item of the help on the command above it. -/
def commandItem (c : CommandSpec α) : Item :=
  ⟨c.name ++ (if c.options.isEmpty then "" else " [options]") ++ argumentPlaces c, c.header.summary⟩

def commandItems (c : CommandSpec α) : List Item :=
  if c.children.isEmpty then [] else c.children.map commandItem ++ [helpCommand]

/-- The help on a command, with the names that lead to it. -/
def help (path : List String) (c : CommandSpec α) : String :=
  let arguments := c.arguments.map fun a => Item.mk a.name a.summary
  let options := c.options.map (·.item) ++ [helpOption]
  let commands := commandItems c
  let termWidth := ((arguments ++ options ++ commands).map (·.term.length)).foldl max 0
  let usage := "Usage: " ++ " ".intercalate path ++ " [options]"
    ++ (if c.children.isEmpty then "" else " [command]") ++ argumentPlaces c
  "\n".intercalate
    ([usage, "", c.header.summary, ""] ++ layout "Arguments:" termWidth arguments
      ++ layout "Options:" termWidth options ++ layout "Commands:" termWidth commands)

end Bailiff.Console

-- SUMMARY: Failures as lines of text, short or with all details, with or without colour.
import Bailiff.Failure

/-!
# Reports

A failure is shown as a list of `ReportLine`s: a title and what helps the user, and on demand the
code, the name, the cause and the trace. `Failure.render` puts a label before each line and colours
label and text.
-/

namespace Bailiff

/-! ## Lines -/

inductive LineKind where
  | title
  | message
  | hint
  | next
  | code
  | name
  | cause
  | stack
  deriving DecidableEq, Repr

def LineKind.text : LineKind → String
  | title => "title"
  | message => "message"
  | hint => "hint"
  | next => "next"
  | code => "code"
  | name => "name"
  | cause => "cause"
  | stack => "stack"

structure ReportLine where
  kind : LineKind
  text : String
  deriving DecidableEq, Repr

inductive Detail where
  | short
  | debug
  deriving DecidableEq, Repr

/-- A line of a text that is there and not empty. -/
def lineIfAny (kind : LineKind) : Option String → List ReportLine
  | some s => if s.isEmpty then [] else [⟨kind, s⟩]
  | none => []

namespace Failure

/-- The lines that are always shown. -/
def shortLines : Failure → List ReportLine
  | report _ title message hint next _ _ =>
    ⟨.title, title⟩ :: ⟨.message, message⟩ :: lineIfAny .hint hint ++ lineIfAny .next next
  | f => [⟨.title, f.message⟩]

/-- The line of the code, which only a report has. -/
def codeLines : Failure → List ReportLine
  | report code .. => [⟨.code, code.text⟩]
  | _ => []

/-- The lines that are shown on demand, except the trace. -/
def detailLines (f : Failure) : List ReportLine :=
  f.codeLines ++ (f.name?.map (⟨.name, ·⟩)).toList ++ (f.cause?.map (⟨.cause, ·.message⟩)).toList

/-- The line of the trace, if it is known. -/
def traceLines (f : Failure) : List ReportLine :=
  match f.trace with
  | .text calls => lineIfAny .stack (some calls)
  | _ => []

def lines (detail : Detail) (f : Failure) : List ReportLine :=
  match detail with
  | .short => f.shortLines
  | .debug => f.shortLines ++ f.detailLines ++ f.traceLines

end Failure

/-! ## Styles -/

inductive Style where
  | red
  | yellow
  | cyan
  | bold
  | dim
  deriving DecidableEq, Repr

/-- The codes that switch a style on and off. -/
def Style.codes : Style → Nat × Nat
  | red => (31, 39)
  | yellow => (33, 39)
  | cyan => (36, 39)
  | bold => (1, 22)
  | dim => (2, 22)

/-- The sequence that selects a graphic rendition. -/
def selectRendition (code : Nat) : String := "\x1b[" ++ Binary64.integerText code ++ "m"

/-- The text between the sequences of a style. -/
def Style.wrap (s : Style) (text : String) : String :=
  selectRendition s.codes.1 ++ text ++ selectRendition s.codes.2

/-- The text in the given styles, the first one innermost; without colour the text itself. -/
def styled (colour : Bool) (styles : List Style) (text : String) : String :=
  if colour then styles.foldl (fun acc s => s.wrap acc) text else text

/-- Whether to colour: only on a terminal, and there as asked, or else unless the environment
forbids it. -/
def useColour (terminal : Bool) (wish : Option Bool) (forbidden : Bool) : Bool :=
  terminal && wish.getD (!forbidden)

/-! ## Rendering -/

def LineKind.label? : LineKind → Option String
  | title => some "Error:"
  | message => none
  | hint => some "Hint:"
  | next => some "Next:"
  | code => some "Code:"
  | name => some "Name:"
  | cause => some "Cause:"
  | stack => some "Stack:"

def LineKind.labelStyles : LineKind → List Style
  | title => [.red, .bold]
  | message => []
  | hint => [.yellow]
  | next => [.cyan]
  | _ => [.dim]

def LineKind.textStyles : LineKind → List Style
  | title => [.bold]
  | message => []
  | hint => []
  | next => []
  | _ => [.dim]

/-- Every line of a text two columns to the right. -/
def indentLines (text : String) : String :=
  "\n".intercalate ((text.toList.splitOn '\n').map fun line => "  " ++ String.ofList line)

namespace ReportLine

/-- A line with its label. A trace begins under its label. -/
def render (colour : Bool) (l : ReportLine) : String :=
  let body := if l.kind = .stack then indentLines l.text else l.text
  let text := styled colour l.kind.textStyles body
  match l.kind.label? with
  | none => text
  | some label =>
    styled colour l.kind.labelStyles label ++ (if l.kind = .stack then "\n" else " ") ++ text

end ReportLine

/-- The failure as it is shown to the user. -/
def Failure.render (detail : Detail) (colour : Bool) (f : Failure) : String :=
  "\n".intercalate ((f.lines detail).map (·.render colour))

end Bailiff

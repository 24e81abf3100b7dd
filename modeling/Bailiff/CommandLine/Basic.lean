-- SUMMARY: Command lines: a program and its arguments, composed piece by piece.
import Bailiff.CommandLine.Words
import Bailiff.Failure

namespace Bailiff

/-- A program and its arguments. -/
structure CommandLine where
  file : String
  args : List String
  deriving DecidableEq, Repr

namespace CommandLine

/-- The command line as one text of quoted words. -/
def render (c : CommandLine) : String := Words.render (c.file :: c.args)

/-- A part of a command line: a flag that may be missing or empty, arguments as they are, or a text
that holds arguments. -/
inductive Piece where
  | flag (value : Option String)
  | args (values : List String)
  | raw (text : String)
  deriving DecidableEq, Repr

/-- The arguments that a text holds. -/
def splitArgs (text : String) : Except Failure (List String) :=
  (Words.split text).mapError fun e => .of .config (e.message text)

/-- The arguments of a part. An empty flag has none. -/
def Piece.expand : Piece → Except Failure (List String)
  | flag none => .ok []
  | flag (some f) => .ok (if f.isEmpty then [] else [f])
  | args values => .ok values
  | raw text => splitArgs text

/-- The arguments of all parts in order. -/
def expandAll : List Piece → Except Failure (List String)
  | [] => .ok []
  | p :: rest =>
    match p.expand with
    | .error e => .error e
    | .ok args => (expandAll rest).map (args ++ ·)

def build (file : String) (pieces : List Piece) : Except Failure CommandLine :=
  (expandAll pieces).map fun args => ⟨file, args⟩

end CommandLine

end Bailiff

-- SUMMARY: Splitting a text into words with quotes and escapes, and quoting a word so that it reads back.
import Bailiff.Text.Basic

/-!
# Words

Blanks separate words. Single quotes keep everything literal, double quotes let a backslash escape a
double quote or a backslash, and outside quotes a backslash escapes any character. Nothing is ever
expanded. `Words.quote` writes a word so that it reads back as itself, here and in a shell.
-/

namespace Bailiff.Words

/-! ## Splitting -/

inductive QuoteMark where
  | single
  | double
  deriving DecidableEq, Repr

def QuoteMark.char : QuoteMark → Char
  | single => '\x27'
  | double => '\x22'

/-- Where a reader stands: between words, or in a word (given in reverse) in some quoting. -/
inductive State where
  | between
  | bare (word : List Char)
  | escaped (word : List Char)
  | single (word : List Char)
  | double (word : List Char)
  | doubleEscaped (word : List Char)
  deriving DecidableEq, Repr

/-- Why a text is not a list of words. -/
inductive Unfinished where
  | backslash
  | quote (mark : QuoteMark)
  deriving DecidableEq, Repr

def Unfinished.message (input : String) : Unfinished → String
  | backslash => "Trailing backslash in argument string: " ++ input
  | quote mark =>
    "Unterminated " ++ String.singleton mark.char ++ " quote in argument string: " ++ input

/-- A character inside a word and outside quotes. -/
def inBare (word : List Char) (c : Char) : State :=
  if c = '\x27' then .single word
  else if c = '\x22' then .double word
  else if c = '\\' then .escaped word
  else .bare (c :: word)

/-- A character inside double quotes. -/
def inDouble (word : List Char) (c : Char) : State :=
  if c = '\x22' then .bare word
  else if c = '\\' then .doubleEscaped word
  else .double (c :: word)

/-- Takes one character; a blank after a word completes it. -/
def step (state : State) (c : Char) : Option (List Char) × State :=
  match state with
  | .between => (none, if isBlank c then .between else inBare [] c)
  | .bare word => if isBlank c then (some word.reverse, .between) else (none, inBare word c)
  | .escaped word => (none, .bare (c :: word))
  | .single word => (none, if c = '\x27' then .bare word else .single (c :: word))
  | .double word => (none, inDouble word c)
  | .doubleEscaped word =>
    (none, if c = '\x22' ∨ c = '\\' then .double (c :: word) else inDouble ('\\' :: word) c)

/-- The end of the text: the word it completes, or what is missing. -/
def finish : State → Except Unfinished (List (List Char))
  | .between => .ok []
  | .bare word => .ok [word.reverse]
  | .escaped _ => .error .backslash
  | .single _ => .error (.quote .single)
  | .double _ => .error (.quote .double)
  | .doubleEscaped _ => .error (.quote .double)

/-- Reads characters to their end. -/
def run (state : State) : List Char → Except Unfinished (List (List Char))
  | [] => finish state
  | c :: rest =>
    match step state c with
    | (some word, next) => (run next rest).map (word :: ·)
    | (none, next) => run next rest

/-- The words of a text. -/
def split (input : String) : Except Unfinished (List String) :=
  (run .between input.toList).map (·.map String.ofList)

/-! ## Quoting -/

/-- The characters that stand for themselves everywhere. -/
def isPlain (c : Char) : Bool :=
  c.isAlphanum || c = '_' || c = '@' || c = '%' || c = '+' || c = '=' || c = ':' || c = ','
    || c = '.' || c = '/' || c = '-'

/-- A character inside single quotes. A single quote closes them, stands in double quotes of its own,
and opens them again. -/
def quoteChar (c : Char) : List Char :=
  if c = '\x27' then ['\x27', '\x22', '\x27', '\x22', '\x27'] else [c]

/-- The written form of a word. -/
def quoteChars (word : List Char) : List Char :=
  if word.isEmpty then ['\x27', '\x27']
  else if word.all isPlain then word
  else '\x27' :: word.flatMap quoteChar ++ ['\x27']

def quote (word : String) : String := String.ofList (quoteChars word.toList)

/-- The written forms of words, one space between them. -/
def render (words : List String) : String := " ".intercalate (words.map quote)

end Bailiff.Words

-- SUMMARY: Reading a JSON text, one character at a time, into a tree.
import Bailiff.Json.Basic

/-!
# Reading JSON

The reader is a machine that takes one character per step. Its state is the part of the text that
is open (`Reader.Frame`, innermost first) and what it expects next (`Reader.Mode`).
-/

namespace Bailiff.Json

/-! ## Numbers -/

/-- The rest of a text after its leading digits, if it has any. -/
def digits? : List Char → Option (List Char)
  | c :: rest => if c.isDigit then some (rest.dropWhile Char.isDigit) else none
  | [] => none

/-- The rest of a text after an unsigned integer: a zero, or digits that do not begin with one. -/
def integer? : List Char → Option (List Char)
  | '0' :: rest => some rest
  | cs => digits? cs

/-- Whether a text is an exponent, or empty. -/
def isExponent : List Char → Bool
  | [] => true
  | c :: rest =>
    if c = 'e' ∨ c = 'E' then
      match rest with
      | s :: more => digits? (if s = '+' ∨ s = '-' then more else rest) = some []
      | [] => false
    else false

/-- Whether a text is a JSON number. -/
def isNumber (cs : List Char) : Bool :=
  let unsigned := match cs with
    | '-' :: rest => rest
    | _ => cs
  match integer? unsigned with
  | none => false
  | some ('.' :: rest) =>
    match digits? rest with
    | none => false
    | some more => isExponent more
  | some rest => isExponent rest

/-- The characters that can stand in a number. -/
def isNumberChar (c : Char) : Bool :=
  c.isDigit || c = '-' || c = '+' || c = '.' || c = 'e' || c = 'E'

/-! ## The machine -/

namespace Reader

/-- An array or an object that is still open, with what it holds so far in reverse. -/
inductive Frame where
  | array (items : List Json)
  | object (fields : List (String × Json)) (key : String)

/-- What the next character may be. -/
inductive Mode where
  | value
  | firstItem
  | firstKey (fields : List (String × Json))
  | nextKey (fields : List (String × Json))
  | colon (fields : List (String × Json)) (key : String)
  | after (j : Json)
  | string (key? : Option (List (String × Json))) (read : List Char)
  | escape (key? : Option (List (String × Json))) (read : List Char)
  | unicode (key? : Option (List (String × Json))) (read : List Char) (count bits : Nat)
      (high : Option Nat)
  | lowMark (key? : Option (List (String × Json))) (read : List Char) (high : Nat)
  | lowUnicode (key? : Option (List (String × Json))) (read : List Char) (high : Nat)
  | number (read : List Char)
  | word (rest : List Char) (j : Json)

structure State where
  frames : List Frame
  mode : Mode

def isSpace (c : Char) : Bool := c = ' ' || c = '\n' || c = '\r' || c = '\t'

/-- The value of a hexadecimal digit. -/
def hex? (c : Char) : Option Nat :=
  let n := c.toNat
  if 48 ≤ n ∧ n ≤ 57 then some (n - 48)
  else if 97 ≤ n ∧ n ≤ 102 then some (n - 87)
  else if 65 ≤ n ∧ n ≤ 70 then some (n - 55)
  else none

/-- The first character of a value. -/
def beginValue (frames : List Frame) (c : Char) : Option State :=
  if c = '\x22' then some ⟨frames, .string none []⟩
  else if c = '[' then some ⟨frames, .firstItem⟩
  else if c = '\x7b' then some ⟨frames, .firstKey []⟩
  else if c = 't' then some ⟨frames, .word ['r', 'u', 'e'] (.bool true)⟩
  else if c = 'f' then some ⟨frames, .word ['a', 'l', 's', 'e'] (.bool false)⟩
  else if c = 'n' then some ⟨frames, .word ['u', 'l', 'l'] .null⟩
  else if c.isDigit ∨ c = '-' then some ⟨frames, .number [c]⟩
  else none

/-- The character after a complete value: it continues or closes what is open. -/
def afterValue (frames : List Frame) (j : Json) (c : Char) : Option State :=
  if isSpace c then some ⟨frames, .after j⟩
  else match frames with
    | [] => none
    | .array items :: outer =>
      if c = ',' then some ⟨.array (j :: items) :: outer, .value⟩
      else if c = ']' then some ⟨outer, .after (.array (j :: items).reverse)⟩
      else none
    | .object fields key :: outer =>
      if c = ',' then some ⟨outer, .nextKey ((key, j) :: fields)⟩
      else if c = '\x7d' then some ⟨outer, .after (.object ((key, j) :: fields).reverse)⟩
      else none

/-- The end of a string, which is a value or a key. -/
def endString (key? : Option (List (String × Json))) (read : List Char) : Mode :=
  let s := String.ofList read.reverse
  match key? with
  | none => .after (.string s)
  | some fields => .colon fields s

/-- The character of a pair of surrogates. -/
def surrogatePair (high low : Nat) : Char :=
  Char.ofNat (0x10000 + (high - 0xD800) * 0x400 + (low - 0xDC00))

/-- The unit after `\u`. A high surrogate waits for its partner; one without a partner reads as the
replacement character. -/
def endUnit (key? : Option (List (String × Json))) (read : List Char) (n : Nat)
    (high : Option Nat) : Mode :=
  match high with
  | some h =>
    if 0xDC00 ≤ n ∧ n < 0xE000 then .string key? (surrogatePair h n :: read)
    else .string key? (Char.ofNat n :: Char.ofNat 0xFFFD :: read)
  | none =>
    if 0xD800 ≤ n ∧ n < 0xDC00 then .lowMark key? read n
    else if 0xDC00 ≤ n ∧ n < 0xE000 then .string key? (Char.ofNat 0xFFFD :: read)
    else .string key? (Char.ofNat n :: read)

/-- The character that a one-letter escape stands for. -/
def escaped? (c : Char) : Option Char :=
  if c = '\x22' ∨ c = '\\' ∨ c = '/' then some c
  else if c = 'b' then some '\x08'
  else if c = 'f' then some '\x0c'
  else if c = 'n' then some '\n'
  else if c = 'r' then some '\r'
  else if c = 't' then some '\t'
  else none

/-- A character inside a string. -/
def inString (key? : Option (List (String × Json))) (read : List Char) (c : Char) : Option Mode :=
  if c = '\x22' then some (endString key? read)
  else if c = '\\' then some (.escape key? read)
  else if c.toNat < 0x20 then none
  else some (.string key? (c :: read))

/-- Takes one character. -/
def step (s : State) (c : Char) : Option State :=
  match s.mode with
  | .value => if isSpace c then some s else beginValue s.frames c
  | .firstItem =>
    if isSpace c then some s
    else if c = ']' then some ⟨s.frames, .after (.array [])⟩
    else beginValue (.array [] :: s.frames) c
  | .firstKey fields =>
    if isSpace c then some s
    else if c = '\x7d' then some ⟨s.frames, .after (.object [])⟩
    else if c = '\x22' then some ⟨s.frames, .string (some fields) []⟩
    else none
  | .nextKey fields =>
    if isSpace c then some s
    else if c = '\x22' then some ⟨s.frames, .string (some fields) []⟩
    else none
  | .colon fields key =>
    if isSpace c then some s
    else if c = ':' then some ⟨.object fields key :: s.frames, .value⟩
    else none
  | .after j => afterValue s.frames j c
  | .string key? read => (inString key? read c).map (⟨s.frames, ·⟩)
  | .escape key? read =>
    if c = 'u' then some ⟨s.frames, .unicode key? read 0 0 none⟩
    else (escaped? c).map fun e => ⟨s.frames, .string key? (e :: read)⟩
  | .unicode key? read count bits high =>
    (hex? c).map fun d =>
      let n := bits * 16 + d
      ⟨s.frames, if count = 3 then endUnit key? read n high
        else .unicode key? read (count + 1) n high⟩
  | .lowMark key? read high =>
    if c = '\\' then some ⟨s.frames, .lowUnicode key? read high⟩
    else (inString key? (Char.ofNat 0xFFFD :: read) c).map (⟨s.frames, ·⟩)
  | .lowUnicode key? read high =>
    if c = 'u' then some ⟨s.frames, .unicode key? read 0 0 (some high)⟩
    else (escaped? c).map fun e => ⟨s.frames, .string key? (e :: Char.ofNat 0xFFFD :: read)⟩
  | .number read =>
    if isNumberChar c then some ⟨s.frames, .number (c :: read)⟩
    else if isNumber read.reverse then
      afterValue s.frames (.number (String.ofList read.reverse)) c
    else none
  | .word rest j =>
    match rest with
    | [] => afterValue s.frames j c
    | [d] => if c = d then some ⟨s.frames, .after j⟩ else none
    | d :: more => if c = d then some ⟨s.frames, .word more j⟩ else none

/-- Takes all characters. -/
def run (s : State) : List Char → Option State
  | [] => some s
  | c :: rest => (step s c).bind (run · rest)

/-- The value read, when nothing is left open. -/
def result (s : State) : Option Json :=
  match s.frames, s.mode with
  | [], .after j => some j
  | [], .number read =>
    if isNumber read.reverse then some (.number (String.ofList read.reverse)) else none
  | _, _ => none

end Reader

/-- The tree of a text, if it is JSON. -/
def read? (text : String) : Option Json :=
  (Reader.run ⟨[], .value⟩ text.toList).bind Reader.result

end Bailiff.Json

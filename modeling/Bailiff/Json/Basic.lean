-- SUMMARY: JSON texts as trees, and their two written forms: on one line, and indented.

/-!
# JSON

A tree keeps the order of its fields and the digits of its numbers. `Json.compact` writes it on one
line without spaces, `Json.indented` over several lines with two spaces for each level.
-/

namespace Bailiff

inductive Json where
  | null
  | bool (b : Bool)
  | number (digits : String)
  | string (s : String)
  | array (items : List Json)
  | object (fields : List (String × Json))
  deriving Repr, Inhabited

namespace Json

/-! ## Strings -/

/-- A hexadecimal digit in lower case. -/
def hexDigit (n : Nat) : Char := if n < 10 then Char.ofNat (48 + n) else Char.ofNat (87 + n)

/-- A character inside a string: quotes, backslashes and control characters are escaped, everything
else stands for itself. -/
def escape (c : Char) : List Char :=
  if c = '\x22' then ['\\', '\x22']
  else if c = '\\' then ['\\', '\\']
  else if c = '\x08' then ['\\', 'b']
  else if c = '\x0c' then ['\\', 'f']
  else if c = '\n' then ['\\', 'n']
  else if c = '\r' then ['\\', 'r']
  else if c = '\t' then ['\\', 't']
  else if c.toNat < 0x20 then
    ['\\', 'u', '0', '0', hexDigit (c.toNat / 16), hexDigit (c.toNat % 16)]
  else [c]

/-- A string between quotes. -/
def quoted (s : String) : List Char := '\x22' :: s.toList.flatMap escape ++ ['\x22']

/-! ## One line -/

mutual

/-- The characters of a tree on one line. -/
def chars : Json → List Char
  | null => ['n', 'u', 'l', 'l']
  | bool true => ['t', 'r', 'u', 'e']
  | bool false => ['f', 'a', 'l', 's', 'e']
  | number digits => digits.toList
  | string s => quoted s
  | array [] => ['[', ']']
  | array (item :: rest) => '[' :: chars item ++ itemChars rest
  | object [] => ['\x7b', '\x7d']
  | object ((key, item) :: rest) =>
    '\x7b' :: quoted key ++ ':' :: chars item ++ fieldChars rest

/-- The rest of an array after one of its items. -/
def itemChars : List Json → List Char
  | [] => [']']
  | item :: rest => ',' :: chars item ++ itemChars rest

/-- The rest of an object after one of its fields. -/
def fieldChars : List (String × Json) → List Char
  | [] => ['\x7d']
  | (key, item) :: rest => ',' :: quoted key ++ ':' :: chars item ++ fieldChars rest

end

/-- A tree on one line. -/
def compact (j : Json) : String := String.ofList j.chars

/-! ## Several lines -/

/-- A line end and the indentation of a level. -/
def lineAt (level : Nat) : List Char := '\n' :: List.replicate (2 * level) ' '

mutual

/-- The characters of a tree whose own line stands at the given level. -/
def indentedChars (level : Nat) : Json → List Char
  | array (item :: rest) =>
    '[' :: lineAt (level + 1) ++ indentedChars (level + 1) item ++ indentedItems level rest
  | object ((key, item) :: rest) =>
    '\x7b' :: lineAt (level + 1) ++ quoted key ++ ':' :: ' ' :: indentedChars (level + 1) item
      ++ indentedFields level rest
  | null => ['n', 'u', 'l', 'l']
  | bool true => ['t', 'r', 'u', 'e']
  | bool false => ['f', 'a', 'l', 's', 'e']
  | number digits => digits.toList
  | string s => quoted s
  | array [] => ['[', ']']
  | object [] => ['\x7b', '\x7d']

/-- The rest of an array after one of its items. -/
def indentedItems (level : Nat) : List Json → List Char
  | [] => lineAt level ++ [']']
  | item :: rest =>
    ',' :: lineAt (level + 1) ++ indentedChars (level + 1) item ++ indentedItems level rest

/-- The rest of an object after one of its fields. -/
def indentedFields (level : Nat) : List (String × Json) → List Char
  | [] => lineAt level ++ ['\x7d']
  | (key, item) :: rest =>
    ',' :: lineAt (level + 1) ++ quoted key ++ ':' :: ' ' :: indentedChars (level + 1) item
      ++ indentedFields level rest

end

/-- A tree over several lines. -/
def indented (j : Json) : String := String.ofList (j.indentedChars 0)

end Json

end Bailiff

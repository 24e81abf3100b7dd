-- SUMMARY: Blank characters and line ends, and texts counted and ordered in 16-bit units.

/-!
# Texts

A blank is a character that separates words and is dropped at both ends of a value: the white space
and line ends of Unicode together with the byte order mark. Columns are measured and names are ordered
in the units of the UTF-16 encoding: a character above `U+FFFF` counts as two.
-/

namespace Bailiff

/-! ## Blanks -/

/-- White space, line ends and the byte order mark. -/
def isBlank (c : Char) : Bool :=
  let n := c.toNat
  (0x9 ≤ n && n ≤ 0xD) || n = 0x20 || n = 0xA0 || n = 0x1680 || (0x2000 ≤ n && n ≤ 0x200A)
    || n = 0x2028 || n = 0x2029 || n = 0x202F || n = 0x205F || n = 0x3000 || n = 0xFEFF

/-- The characters without the blanks at the end. -/
def dropBlankEnd (cs : List Char) : List Char := (cs.reverse.dropWhile isBlank).reverse

/-- The characters without the blanks at both ends. -/
def stripBlanks (cs : List Char) : List Char := dropBlankEnd (cs.dropWhile isBlank)

/-- The text without the blanks at both ends. -/
def trimBlanks (s : String) : String := String.ofList (stripBlanks s.toList)

/-- The characters that end a line. -/
def isLineEnd (c : Char) : Bool := c = '\n' || c = '\r' || c = '\u2028' || c = '\u2029'

/-! ## 16-bit units -/

namespace Text

/-- The 16-bit units of a character: one, or a pair of surrogates. -/
def unitsOfChar (c : Char) : List Nat :=
  let n := c.toNat
  if n < 0x10000 then [n]
  else [0xD800 + (n - 0x10000) / 0x400, 0xDC00 + (n - 0x10000) % 0x400]

/-- The 16-bit units of a text. -/
def units (s : String) : List Nat := s.toList.flatMap unitsOfChar

/-- The length of a text in 16-bit units. -/
def width (s : String) : Nat := (units s).length

/-- The text followed by as many spaces as it is short of `w` units. -/
def rightpad (s : String) (w : Nat) : String :=
  s ++ String.ofList (List.replicate (w - width s) ' ')

/-- The text preceded by as many copies of `c` as it is short of `w` units. -/
def padStart (s : String) (w : Nat) (c : Char) : String :=
  String.ofList (List.replicate (w - width s) c) ++ s

/-- The order of lists of numbers by the first difference; a proper beginning comes first. -/
def beforeOrSame : List Nat → List Nat → Bool
  | [], _ => true
  | _ :: _, [] => false
  | a :: as, b :: bs => a < b || (a = b && beforeOrSame as bs)

/-- Whether the units of `s` come before those of `t`, or are the same. -/
def unitsLE (s t : String) : Bool := beforeOrSame (units s) (units t)

/-- Texts in the order of their 16-bit units. -/
def sortByUnits (texts : List String) : List String := texts.mergeSort unitsLE

/-- Whether the characters of `s` come before those of `t`, or are the same. This is also the order
of their UTF-8 bytes. -/
def pointsLE (s t : String) : Bool := beforeOrSame (s.toList.map Char.toNat) (t.toList.map Char.toNat)

end Text

end Bailiff

-- SUMMARY: Reading numbers from text: general numeric notation, and plain decimal integers.
import Bailiff.Number.Shortest
import Bailiff.Text.Basic

/-!
# Reading numbers

`Binary64.ofText` reads decimal notation with an optional fraction and exponent, `Infinity`, and
unsigned hexadecimal, octal and binary integers; blanks around the number do not matter and an empty
text is zero. `integerLiteral?` recognises an optional minus sign and decimal digits.
-/

namespace Bailiff

/-! ## Digits -/

/-- The value of a digit in bases up to sixteen. -/
def digitValue? (c : Char) : Option Nat :=
  let n := c.toNat
  if 48 ≤ n ∧ n ≤ 57 then some (n - 48)
  else if 97 ≤ n ∧ n ≤ 102 then some (n - 87)
  else if 65 ≤ n ∧ n ≤ 70 then some (n - 55)
  else none

/-- The number that decimal digits denote, continuing from `acc`. -/
def decimalValue (acc : Nat) (cs : List Char) : Nat :=
  cs.foldl (fun n c => n * 10 + (c.toNat - 48)) acc

/-- The number that a non-empty text of digits in a base denotes. -/
def inBase? (base : Nat) (cs : List Char) : Option Nat :=
  if cs.isEmpty then none
  else cs.foldlM (fun n c => (digitValue? c).bind fun d => if d < base then some (n * base + d) else none) 0

/-! ## Decimal notation -/

/-- A sign, and what follows it. -/
def splitSign : List Char → Bool × List Char
  | '-' :: rest => (true, rest)
  | '+' :: rest => (false, rest)
  | cs => (false, cs)

/-- The power of ten that an exponent part stands for; an empty one is zero. -/
def exponentPart? : List Char → Option Int
  | [] => some 0
  | c :: rest =>
    if c = 'e' ∨ c = 'E' then
      let (negative, digits) := splitSign rest
      if digits.isEmpty || !digits.all Char.isDigit then none
      else
        let n := decimalValue 0 digits
        some (if negative then -(n : Int) else n)
    else none

/-- An unsigned number in decimal notation: digits with at most one point among them, of which at
least one is a digit, and an optional exponent. -/
def unsignedDecimal? (cs : List Char) : Option Decimal :=
  let whole := cs.takeWhile Char.isDigit
  let rest := cs.dropWhile Char.isDigit
  let (part, rest) := match rest with
    | '.' :: more => (more.takeWhile Char.isDigit, more.dropWhile Char.isDigit)
    | _ => ([], rest)
  if whole.isEmpty && part.isEmpty then none
  else (exponentPart? rest).map fun e => ⟨decimalValue 0 (whole ++ part), e - part.length⟩

/-- A number in decimal notation with an optional sign. -/
def signedDecimal? (cs : List Char) : Option (Bool × Decimal) :=
  let (negative, rest) := splitSign cs
  (unsignedDecimal? rest).map (negative, ·)

namespace Binary64

/-- The number that a text denotes, or not-a-number. -/
def ofText (text : String) : Binary64 :=
  match stripBlanks text.toList with
  | [] => ofRatio false 0 1
  | '0' :: c :: digits =>
    if c = 'x' ∨ c = 'X' then ((inBase? 16 digits).map ofNat).getD nan
    else if c = 'o' ∨ c = 'O' then ((inBase? 8 digits).map ofNat).getD nan
    else if c = 'b' ∨ c = 'B' then ((inBase? 2 digits).map ofNat).getD nan
    else decimal ('0' :: c :: digits)
  | cs => decimal cs
where
  /-- Decimal notation or an infinity. -/
  decimal (cs : List Char) : Binary64 :=
    let (negative, rest) := splitSign cs
    if rest = "Infinity".toList then infinite negative
    else match unsignedDecimal? rest with
      | some d => d.toBinary64 negative
      | none => nan

end Binary64

/-! ## Integer literals -/

/-- The sign and the value of a text that is an optional minus sign followed by decimal digits. -/
def integerLiteral? (cs : List Char) : Option (Bool × Nat) :=
  let (negative, digits) := match cs with
    | '-' :: rest => (true, rest)
    | _ => (false, cs)
  if digits.isEmpty || !digits.all Char.isDigit then none
  else some (negative, decimalValue 0 digits)

end Bailiff

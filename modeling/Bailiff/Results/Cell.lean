-- SUMMARY: What the columns of a result database hold, and the conversions that a column applies.
import Bailiff.Value
import Bailiff.Text.Utf8

/-!
# Cells

A column converts what is put into it: a start time that is written like a number is kept as a
number (`Stamp`), a number in a text column is kept as its text. Captured output is kept as it came,
as text or as octets (`Output`).
-/

namespace Bailiff

/-! ## Captured output -/

inductive Output where
  | text (s : String)
  | octets (bytes : List UInt8)
  deriving DecidableEq, Repr

/-- The output as text. -/
def Output.decode : Output → String
  | text s => s
  | octets bytes => Utf8.decode bytes

/-! ## Numbers in columns -/

/-- Both zeros are kept as the positive one. -/
def storedNumber (x : Binary64) : Binary64 := if x.isZero then 0 else x

/-- The blanks that may surround a number in a column. -/
def isAsciiBlank (c : Char) : Bool := c = ' ' || ('\t' ≤ c && c ≤ '\r')

/-- The number that a text in a numeric column is kept as, if it is written as one. -/
def columnNumber? (s : String) : Option Binary64 :=
  let trimmed := ((s.toList.dropWhile isAsciiBlank).reverse.dropWhile isAsciiBlank).reverse
  (signedDecimal? trimmed).map fun (negative, d) => storedNumber (d.toBinary64 negative)

/-- The decimal of `count` significant digits nearest to `num / den`. -/
def significant (count num den : Nat) : Decimal :=
  let place := Binary64.decimalPlace num den - count
  let (n, d) :=
    if 0 ≤ place then (num, den * Nat.pow 10 place.natAbs)
    else (num * Nat.pow 10 place.natAbs, den)
  let digits := (2 * n + d) / (2 * d)
  if digits = Nat.pow 10 count then ⟨Nat.pow 10 (count - 1), place + 1⟩ else ⟨digits, place⟩

/-- A number of fifteen significant digits, always with a point, and with an exponent of at least two
digits outside of `10 ^ -4` to `10 ^ 15`. -/
def columnText (x : Binary64) : String :=
  match x with
  | .nan => ""
  | .infinite s => if s then "-Inf" else "Inf"
  | .finite s m q =>
    let sign := if s && m != 0 then "-" else ""
    if m = 0 then "0.0"
    else
      let (num, den) := Binary64.ratio m q
      let d := (significant 15 num den).stripZeros 20
      let digits := Nat.toDigits 10 d.digits
      let point : Int := digits.length + d.exponent
      let withPoint (whole part : List Char) : List Char :=
        whole ++ '.' :: (if part.isEmpty then ['0'] else part)
      let body :=
        if 0 < point ∧ point ≤ 15 then
          let whole := digits.take point.natAbs ++ List.replicate (point.natAbs - digits.length) '0'
          withPoint whole (digits.drop point.natAbs)
        else if -4 < point ∧ point ≤ 0 then
          withPoint ['0'] (List.replicate point.natAbs '0' ++ digits)
        else
          let e := point - 1
          let mark := Nat.toDigits 10 e.natAbs
          withPoint (digits.take 1) (digits.drop 1)
            ++ (if e < 0 then ['e', '-'] else ['e', '+'])
            ++ List.replicate (2 - mark.length) '0' ++ mark
      sign ++ String.ofList body

/-! ## Start times -/

/-- A start time in a column: text, or a number when the text is written as one. -/
inductive Stamp where
  | text (s : String)
  | number (x : Binary64)
  deriving DecidableEq, Repr

/-- The start time that a text is kept as. -/
def Stamp.ofText (s : String) : Stamp := (columnNumber? s).elim (text s) number

def Stamp.toValue : Stamp → Value
  | text s => .text s
  | number x => .number x

end Bailiff

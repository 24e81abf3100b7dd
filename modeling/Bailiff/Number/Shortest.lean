-- SUMMARY: The text of a number: the fewest digits that read back as it, or a fixed count of decimal places.
import Bailiff.Number.Binary64

/-!
# Decimal text

`Binary64.text` writes a number with the fewest decimal digits that read back as the same number,
and among those the nearest; `Binary64.fixed` writes it with a given count of decimal places.
`Decimal` is a pair of digits and a power of ten.
-/

namespace Bailiff

/-- `digits * 10 ^ exponent`. -/
structure Decimal where
  digits : Nat
  exponent : Int
  deriving DecidableEq, Repr

namespace Decimal

/-- Nearest double precision number. The magnitude is compared with the range first, so that a huge
power of ten is never formed. -/
def toBinary64 (negative : Bool) (d : Decimal) : Binary64 :=
  let magnitude := ((Nat.toDigits 10 d.digits).length : Int) + d.exponent
  if d.digits = 0 then .ofRatio negative 0 1
  else if 400 < magnitude then .infinite negative
  else if magnitude < -400 then .ofRatio negative 0 1
  else if 0 ≤ d.exponent then .ofRatio negative (d.digits * Nat.pow 10 d.exponent.natAbs) 1
  else .ofRatio negative d.digits (Nat.pow 10 d.exponent.natAbs)

/-- The same value without trailing zero digits. -/
def stripZeros (fuel : Nat) (d : Decimal) : Decimal :=
  match fuel with
  | 0 => d
  | fuel + 1 =>
    if d.digits % 10 = 0 ∧ d.digits ≠ 0 then stripZeros fuel ⟨d.digits / 10, d.exponent + 1⟩ else d

end Decimal

namespace Binary64

/-- The power of ten just above `num / den`: the least `k` with `num / den < 10 ^ k`. -/
def decimalPlace (num den : Nat) : Int :=
  let k : Int := ((Nat.toDigits 10 num).length : Int) - (Nat.toDigits 10 den).length
  let reached :=
    if 0 ≤ k then den * Nat.pow 10 k.natAbs ≤ num else den ≤ num * Nat.pow 10 k.natAbs
  if reached then k + 1 else k

/-- The decimal with the given last place that is nearest to `num / den` among the two neighbours
that read back as `x`, if one does; a tie goes to the even digit. -/
def onGrid? (x : Binary64) (num den : Nat) (place : Int) : Option Decimal :=
  let (n, d) :=
    if 0 ≤ place then (num, den * Nat.pow 10 place.natAbs)
    else (num * Nat.pow 10 place.natAbs, den)
  let below : Decimal := ⟨n / d, place⟩
  let above : Decimal := ⟨n / d + 1, place⟩
  let readsBack (c : Decimal) : Bool := c.digits ≠ 0 ∧ c.toBinary64 x.isSigned = x
  match readsBack below, readsBack above with
  | true, true =>
    let twice := 2 * (n % d)
    if twice < d ∨ (twice = d ∧ below.digits % 2 = 0) then some below else some above
  | true, false => some below
  | false, true => some above
  | false, false => none

/-- The first grid, from one digit on, that holds a decimal reading back as `x`. -/
def shortestFrom (x : Binary64) (num den : Nat) (top : Int) (count : Nat) : Nat → Decimal
  | 0 => ⟨num / den, 0⟩
  | fuel + 1 =>
    match onGrid? x num den (top - count) with
    | some d => d
    | none => shortestFrom x num den top (count + 1) fuel

/-- The shortest decimal of `m * 2 ^ q`. Seventeen digits always suffice. -/
def shortest (negative : Bool) (m : Nat) (q : Int) : Decimal :=
  let (num, den) := ratio m q
  (shortestFrom (finite negative m q) num den (decimalPlace num den) 1 17).stripZeros 20

/-- Positional notation for values from `10 ^ -6` up to `10 ^ 21`, and an exponent with its sign
outside. -/
def layout (d : Decimal) : String :=
  let digits := Nat.toDigits 10 d.digits
  let point : Int := digits.length + d.exponent
  if (digits.length : Int) ≤ point ∧ point ≤ 21 then
    String.ofList (digits ++ List.replicate d.exponent.natAbs '0')
  else if 0 < point ∧ point ≤ 21 then
    String.ofList (digits.take point.natAbs ++ '.' :: digits.drop point.natAbs)
  else if -6 < point ∧ point ≤ 0 then
    String.ofList ('0' :: '.' :: List.replicate point.natAbs '0' ++ digits)
  else
    let e := point - 1
    let mark := (if e < 0 then ['e', '-'] else ['e', '+']) ++ Nat.toDigits 10 e.natAbs
    match digits with
    | [] => ""
    | [c] => String.ofList (c :: mark)
    | c :: rest => String.ofList (c :: '.' :: rest ++ mark)

/-- An integer in decimal notation. -/
def integerText (n : Int) : String :=
  let digits := String.ofList (Nat.toDigits 10 n.natAbs)
  if n < 0 then "-" ++ digits else digits

/-- The text of a number. Integers of magnitude up to `2 ^ 53` are all numbers of their own, so their
own digits are the shortest; both zeros are `0`. -/
def text (x : Binary64) : String :=
  match x with
  | nan => "NaN"
  | infinite s => if s then "-Infinity" else "Infinity"
  | finite s m q =>
    match x.toInt? with
    | some n =>
      if n.natAbs ≤ maxExactInteger then integerText n
      else if s then "-" ++ layout (shortest s m q) else layout (shortest s m q)
    | none => if s then "-" ++ layout (shortest s m q) else layout (shortest s m q)

/-! ## Fixed places -/

/-- The magnitude of `m * 2 ^ q` in units of `10 ^ -places`, a half rounded up. -/
def roundPlaces (places m : Nat) (q : Int) : Nat :=
  let (num, den) := ratio m q
  (2 * num * Nat.pow 10 places + den) / (2 * den)

/-- The number with exactly `places` decimal places, a half rounded away from zero. From `10 ^ 21` on
it is the plain text, and a negative number keeps its sign even when all its digits are zero. -/
def fixed (places : Nat) (x : Binary64) : String :=
  match x with
  | finite s m q =>
    let (num, den) := ratio m q
    if den * Nat.pow 10 21 ≤ num then x.text
    else
      let units := roundPlaces places m q
      let whole := Nat.toDigits 10 (units / Nat.pow 10 places)
      let part := Nat.toDigits 10 (units % Nat.pow 10 places)
      let padded := List.replicate (places - part.length) '0' ++ part
      let sign := if s && m != 0 then ['-'] else []
      String.ofList (sign ++ whole ++ '.' :: padded)
  | _ => x.text

end Binary64

end Bailiff

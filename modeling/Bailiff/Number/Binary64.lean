-- SUMMARY: Double precision numbers as exact dyadic values, with correctly rounded arithmetic done in `Nat`.

/-!
# Binary64

A number is not-a-number, an infinity, or `± significand * 2 ^ exponent`. Every operation forms the
exact result as a quotient of naturals and rounds it once, to nearest with ties to even
(`Binary64.ofRatio`), so nothing here depends on the floating point unit.
-/

namespace Bailiff

/-- A double precision number. The finite numbers that the operations build are canonical: the
significand is below `2 ^ 53`, and it is at least `2 ^ 52` unless the exponent is the least one,
`-1074`. -/
inductive Binary64 where
  | nan
  | infinite (negative : Bool)
  | finite (negative : Bool) (significand : Nat) (exponent : Int)
  deriving DecidableEq, Repr, Inhabited

namespace Binary64

/-! ## Rounding -/

/-- The quotient of two naturals, rounded to the nearest natural; a tie goes to the even one. -/
def divideToEven (num den : Nat) : Nat :=
  let whole := num / den
  let twice := 2 * (num % den)
  if den < twice then whole + 1
  else if twice = den ∧ whole % 2 = 1 then whole + 1
  else whole

/-- The least exponent of a finite number. -/
def minExponent : Int := -1074

/-- The largest exponent of a finite number. -/
def maxExponent : Int := 971

/-- `num / den` counted in units of `2 ^ exponent`, as a quotient of naturals. -/
def inUnits (num den : Nat) (exponent : Int) : Nat × Nat :=
  if exponent ≤ 0 then (num * Nat.pow 2 exponent.natAbs, den)
  else (num, den * Nat.pow 2 exponent.natAbs)

/-- The exponent whose unit is the gap between the numbers around `num / den`: the quotient is
below `2 ^ 53` units, and the exponent is the least such one within range. -/
def exponentFor (num den : Nat) : Int :=
  let guess := max ((num.log2 : Int) - (den.log2 : Int) - 53) minExponent
  let (n, d) := inUnits num den guess
  if n / d < Nat.pow 2 53 then guess else guess + 1

/-- The number nearest to `num / den`, with the given sign; a tie goes to the even significand. -/
def ofRatio (negative : Bool) (num den : Nat) : Binary64 :=
  if num = 0 then finite negative 0 minExponent
  else
    let exponent := exponentFor num den
    let (n, d) := inUnits num den exponent
    let m := divideToEven n d
    let (m, exponent) := if m = Nat.pow 2 53 then (Nat.pow 2 52, exponent + 1) else (m, exponent)
    if maxExponent < exponent then infinite negative else finite negative m exponent

/-- The number nearest to `m * 2 ^ q`. -/
def ofScaled (negative : Bool) (m : Nat) (q : Int) : Binary64 :=
  if 0 ≤ q then ofRatio negative (m * Nat.pow 2 q.natAbs) 1
  else ofRatio negative m (Nat.pow 2 q.natAbs)

def ofNat (n : Nat) : Binary64 := ofRatio false n 1

def ofInt (n : Int) : Binary64 := ofRatio (n < 0) n.natAbs 1

instance {n : Nat} : OfNat Binary64 n := ⟨ofNat n⟩

/-! ## Exact views -/

def isNaN : Binary64 → Bool
  | nan => true
  | _ => false

def isFinite : Binary64 → Bool
  | finite .. => true
  | _ => false

def isZero : Binary64 → Bool
  | finite _ 0 _ => true
  | _ => false

def isNegativeZero : Binary64 → Bool
  | finite true 0 _ => true
  | _ => false

/-- The sign bit. Not-a-number has none. -/
def isSigned : Binary64 → Bool
  | nan => false
  | infinite s => s
  | finite s _ _ => s

/-- The magnitude of `significand * 2 ^ exponent` as a quotient of naturals. -/
def ratio (m : Nat) (q : Int) : Nat × Nat :=
  if 0 ≤ q then (m * Nat.pow 2 q.natAbs, 1) else (m, Nat.pow 2 q.natAbs)

/-- The integer part, dropping any fraction. -/
def truncate? : Binary64 → Option Int
  | finite s m q =>
    let (n, d) := ratio m q
    some (if s then -((n / d : Nat) : Int) else ((n / d : Nat) : Int))
  | _ => none

/-- The integer that the number is, if it is one. -/
def toInt? : Binary64 → Option Int
  | finite s m q =>
    let (n, d) := ratio m q
    if n % d = 0 then some (if s then -((n / d : Nat) : Int) else ((n / d : Nat) : Int)) else none
  | _ => none

def isInteger (x : Binary64) : Bool := x.toInt?.isSome

/-- The largest magnitude below which every integer is a number of its own. -/
def maxExactInteger : Nat := Nat.pow 2 53

/-! ## Arithmetic -/

def neg : Binary64 → Binary64
  | nan => nan
  | infinite s => infinite !s
  | finite s m q => finite (!s) m q

instance : Neg Binary64 := ⟨neg⟩

/-- A significand with its sign. -/
def signed (s : Bool) (m : Nat) : Int := if s then -(m : Int) else m

/-- The significands of two numbers counted in the smaller of their units. -/
def aligned (s₁ : Bool) (m₁ : Nat) (q₁ : Int) (s₂ : Bool) (m₂ : Nat) (q₂ : Int) : Int × Int :=
  let q := min q₁ q₂
  (signed s₁ (m₁ * Nat.pow 2 (q₁ - q).natAbs),
    signed s₂ (m₂ * Nat.pow 2 (q₂ - q).natAbs))

/-- A sum. Opposite numbers give a positive zero. -/
def add : Binary64 → Binary64 → Binary64
  | nan, _ => nan
  | _, nan => nan
  | infinite s, infinite t => if s = t then infinite s else nan
  | infinite s, finite .. => infinite s
  | finite .., infinite t => infinite t
  | finite s m q, finite t n r =>
    let (a, b) := aligned s m q t n r
    if a + b = 0 then finite (s && t) 0 minExponent
    else ofScaled (a + b < 0) (a + b).natAbs (min q r)

def sub (x y : Binary64) : Binary64 := add x (neg y)

def mul : Binary64 → Binary64 → Binary64
  | nan, _ => nan
  | _, nan => nan
  | infinite s, infinite t => infinite (s != t)
  | infinite s, finite t n _ => if n = 0 then nan else infinite (s != t)
  | finite s m _, infinite t => if m = 0 then nan else infinite (s != t)
  | finite s m q, finite t n r => ofScaled (s != t) (m * n) (q + r)

def div : Binary64 → Binary64 → Binary64
  | nan, _ => nan
  | _, nan => nan
  | infinite _, infinite _ => nan
  | infinite s, finite t _ _ => infinite (s != t)
  | finite s _ _, infinite t => finite (s != t) 0 minExponent
  | finite s m q, finite t n r =>
    if n = 0 then (if m = 0 then nan else infinite (s != t))
    else if q < r then ofRatio (s != t) m (n * Nat.pow 2 (r - q).natAbs)
    else ofRatio (s != t) (m * Nat.pow 2 (q - r).natAbs) n

instance : Add Binary64 := ⟨add⟩
instance : Sub Binary64 := ⟨sub⟩
instance : Mul Binary64 := ⟨mul⟩
instance : Div Binary64 := ⟨div⟩

/-! ## Order -/

/-- The order of two numbers by value. The zeros are equal; not-a-number compares with nothing. -/
def compare? : Binary64 → Binary64 → Option Ordering
  | nan, _ => none
  | _, nan => none
  | infinite s, infinite t => some (if s = t then .eq else if s then .lt else .gt)
  | infinite s, finite .. => some (if s then .lt else .gt)
  | finite .., infinite t => some (if t then .gt else .lt)
  | finite s m q, finite t n r =>
    let (a, b) := aligned s m q t n r
    some (compare a b)

def less (x y : Binary64) : Bool := x.compare? y = some .lt

def atMost (x y : Binary64) : Bool := x.less y || x.compare? y = some .eq

def same (x y : Binary64) : Bool := x.compare? y = some .eq

/-- The larger of two numbers; not-a-number wins over both. -/
def maximum (x y : Binary64) : Binary64 :=
  if x.isNaN || y.isNaN then nan
  else if x.isZero && y.isZero then (if x.isSigned then y else x)
  else if x.less y then y else x

end Binary64

end Bailiff

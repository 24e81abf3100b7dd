-- SUMMARY: Which integers are numbers of their own, and which naturals are written as they are when they are made numbers.
import Bailiff.Proofs.Number.Text

/-!
# Numbers nearest to integers

Rounding gives a double precision number (`Binary64.isDouble_ofRatio`), so an integer is kept just if it is the value
of one (`Binary64.toInt?_ofRatio_iff`). What the number nearest to a natural is written as denotes that natural just if
the natural is at most `2 ^ 53`, or else below `10 ^ 21` and the shortest decimal of that number
(`Binary64.isDigitsOf_ofNat_iff`).
-/

namespace Bailiff

variable {s : Bool} {m n num den : Nat} {q e z : Int} {d : Decimal}

/-- A decimal is a natural of at most 21 digits, with zeros behind its own digits if need be. -/
def Decimal.Spells (d : Decimal) (n : Nat) : Prop := n < 10 ^ 21 ∧ ∃ k : Nat, d.exponent = k ∧ d.digits * 10 ^ k = n

namespace Binary64

/-! ## Rounding -/

/-- Counted in its unit, a quotient is rounded to at most `2 ^ 53`, and to no less than `2 ^ 52` unless the unit is
the least one. -/
theorem divideToEven_bounds (hnum : 0 < num) (hden : 0 < den) :
    let k := divideToEven (inUnits num den (exponentFor num den)).1 (inUnits num den (exponentFor num den)).2
    k ≤ 2 ^ 53 ∧ (exponentFor num den = minExponent ∨ 2 ^ 52 ≤ k) := by
  have hunit := exponentFor_spec hnum hden
  have hunits := inUnits_pos num hden (exponentFor num den)
  have hbelow := (inUnits_div_lt_iff hden _).mpr hunit.below
  refine ⟨divideToEven_le_of_le hunits ?_, hunit.above.imp_right fun habove => ?_⟩
  · exact ((Nat.div_lt_iff_lt_mul hunits).mp hbelow).le
  · refine le_trans ?_ (le_divideToEven ..)
    rw [Nat.le_div_iff_mul_le hunits]
    have hpos : (0 : ℚ) < 2 ^ exponentFor num den := by positivity
    rw [← inUnits_div num hden (exponentFor num den), mul_le_mul_iff_left₀ hpos,
      le_div_iff₀ (by exact_mod_cast hunits)] at habove
    exact_mod_cast habove

/-- What comes of rounding is a double precision number. -/
theorem isDouble_ofRatio (s : Bool) (num : Nat) (hden : 0 < den) : (ofRatio s num den).IsDouble := by
  rcases Nat.eq_zero_or_pos num with rfl | hnum
  · exact ⟨le_refl _, by decide, by norm_num, .inl rfl⟩
  · have hleast := (exponentFor_spec hnum hden).least
    obtain ⟨hbelow, habove⟩ := divideToEven_bounds hnum hden
    unfold ofRatio
    rw [if_neg hnum.ne']
    dsimp only
    generalize divideToEven _ _ = k at hbelow habove ⊢
    split
    next hcarry =>
      split
      · trivial
      next hmost => exact ⟨by omega, by omega, by norm_num, .inr (le_refl _)⟩
    next hcarry =>
      split
      · trivial
      next hmost => exact ⟨hleast, by omega, lt_of_le_of_ne hbelow hcarry, habove⟩

theorem pos_of_value_pos (h : (0 : ℚ) < m * 2 ^ q) : 0 < m := by
  have hunit : (0 : ℚ) < 2 ^ q := by positivity
  exact_mod_cast pos_of_mul_pos_left h hunit.le

/-- A number is nearest to its own value. -/
theorem ofRatio_of_value (h : IsCanonical m q) (hm : 0 < m) (hvalue : (m * 2 ^ q : ℚ) = n) (s : Bool) :
    ofRatio s n 1 = finite s m q := by
  have hunit : (0 : ℚ) < 2 ^ q := by positivity
  have hquotient : ((n : Nat) / (1 : Nat) : ℚ) = m * 2 ^ q := by rw [Nat.cast_one, div_one, hvalue]
  refine ofRatio_of_near h hm Nat.one_pos ?_ ?_ (fun _ => ?_) s
  · rw [hquotient]
    linarith
  · rw [hquotient]
    linarith
  · rw [hquotient]
    linarith

/-! ## Integers -/

/-- The integer is the value of a double precision number. -/
def IsExact (z : Int) : Prop := ∃ x : Binary64, x.IsDouble ∧ x.toInt? = some z

theorem toInt?_ofRatio_zero (s : Bool) : (ofRatio s 0 1).toInt? = some 0 := by
  cases s <;> decide +kernel

/-- An integer is kept just if it is the value of a double precision number. -/
theorem toInt?_ofRatio_iff (s : Bool) (n : Nat) :
    (ofRatio s n 1).toInt? = some (signed s n) ↔ IsExact (signed s n) := by
  constructor
  · intro h
    exact ⟨_, isDouble_ofRatio s n Nat.one_pos, h⟩
  · rintro ⟨x, hdouble, hx⟩
    cases x with
    | nan | infinite => cases hx
    | finite t m q =>
      rcases Nat.eq_zero_or_pos n with rfl | hn
      · cases s <;> exact toInt?_ofRatio_zero _
      · have hm : 0 < m := by
          refine Nat.pos_of_ne_zero ?_
          rintro rfl
          have hzero : ((signed s n : Int) : ℚ) = 0 := by
            rw [← toInt?_eq_some_iff.mp hx]
            cases t <;> simp [value, signed]
          rw [Int.cast_eq_zero] at hzero
          cases s <;> simp [signed] at hzero <;> omega
        obtain ⟨hsign, hvalue⟩ := toInt?_signed hm hx
        have hnat : (signed s n).natAbs = n := by cases s <;> simp [signed]
        obtain rfl : s = t := by
          rw [← hsign]
          cases s <;> simp [signed]
          omega
        rw [hnat] at hvalue
        rwa [ofRatio_of_value hdouble hm hvalue]

theorem exists_canonical (hpos : 0 < n) (hn : n ≤ maxExactInteger) :
    ∃ m q, IsCanonical m q ∧ (m * 2 ^ q : ℚ) = n := by
  rcases hn.lt_or_eq with hless | rfl
  · obtain ⟨m, q, hratio, hvalue⟩ := ofRatio_of_natural Nat.one_pos (Nat.mul_one n).symm hpos hless
    have hdouble := isDouble_ofRatio false n Nat.one_pos
    rw [hratio] at hdouble
    refine ⟨m, q, hdouble, ?_⟩
    rw [← hvalue]
    simp [value, signed]
  · exact ⟨2 ^ 52, 1, ⟨by decide, by decide, by norm_num, .inr (le_refl _)⟩, by norm_num [maxExactInteger]⟩

/-- Rounding keeps the sign of an integer. -/
theorem atMost_zero_ofRatio (s : Bool) (n : Nat) : (ofRatio s n 1).atMost 0 = true ↔ signed s n ≤ 0 := by
  rcases Nat.eq_zero_or_pos n with rfl | hn
  · cases s <;> exact iff_of_true (by decide +kernel) (le_refl 0)
  have hzero : (0 : Binary64) = finite false 0 minExponent := rfl
  rcases ofRatio_cases s hn.ne' 1 with ⟨-, hinfinite⟩ | ⟨m, q, hfinite, hvalue⟩
  · rw [hinfinite]
    cases s with
    | false => exact iff_of_false nofun (by simpa [signed] using hn.ne')
    | true => exact iff_of_true rfl (by simp [signed])
  · have hpos : 0 < divideToEven (inUnits n 1 (exponentFor n 1)).1 (inUnits n 1 (exponentFor n 1)).2 := by
      rcases (divideToEven_bounds hn Nat.one_pos).2 with hleast | habove
      · refine Nat.lt_of_lt_of_le ?_ (le_divideToEven ..)
        rw [hleast, inUnits_eq, if_pos (by decide), Nat.div_one]
        positivity
      · exact Nat.lt_of_lt_of_le (by norm_num) habove
    generalize divideToEven _ _ = k at hvalue hpos
    have hunit : (0 : ℚ) < 2 ^ exponentFor n 1 := by positivity
    rw [hfinite, hzero, atMost_iff, hvalue]
    cases s with
    | false =>
      have hpos' : (0 : ℚ) < k * 2 ^ exponentFor n 1 := mul_pos (by exact_mod_cast hpos) hunit
      exact iff_of_false (by simpa [value, signed] using hpos') (by simpa [signed] using hn.ne')
    | true =>
      have hneg : (0 : ℚ) ≤ k * 2 ^ exponentFor n 1 := mul_nonneg (Nat.cast_nonneg k) hunit.le
      exact iff_of_true (by simpa [value, signed] using hneg) (by simp [signed])

/-- Integers of magnitude up to `2 ^ 53` are values of double precision numbers. -/
theorem isExact_of_le (h : z.natAbs ≤ maxExactInteger) : IsExact z := by
  rcases Nat.eq_zero_or_pos z.natAbs with hzero | hpos
  · obtain rfl := Int.natAbs_eq_zero.mp hzero
    exact ⟨_, isDouble_ofRatio false 0 Nat.one_pos, toInt?_ofRatio_zero false⟩
  · obtain ⟨m, q, hcanonical, hvalue⟩ := exists_canonical hpos h
    refine ⟨finite (decide (z < 0)) m q, hcanonical, toInt?_eq_some_iff.mpr ?_⟩
    have hsign : (z : ℚ) = if z < 0 then -(z.natAbs : ℚ) else z.natAbs := by
      rw [Nat.cast_natAbs]
      split
      next hneg => rw [abs_of_neg hneg, Int.cast_neg, neg_neg]
      next hnonneg => rw [abs_of_nonneg (not_lt.mp hnonneg)]
    rw [hsign, ← hvalue]
    by_cases hneg : z < 0 <;> simp [value, signed, hneg]

/-! ## Texts of naturals -/

/-- A text is digits that denote a natural. -/
structure IsDigitsOf (text : String) (n : Nat) : Prop where
  nonempty : text ≠ ""
  digits : AreDigits text.toList
  value : Nat.ofDigitChars 10 text.toList 0 = n

theorem isDigitsOf_integerText {k n : Nat} : IsDigitsOf (integerText k) n ↔ k = n := by
  have hvalue : Nat.ofDigitChars 10 (integerText k).toList 0 = k := by
    rw [toList_integerText, Nat.ofDigitChars_ten_toDigits]
  constructor
  · intro h
    rw [← hvalue, h.value]
  · rintro rfl
    refine ⟨?_, toList_integerText k ▸ areDigits_toDigits k, hvalue⟩
    rw [Ne, ← String.toList_eq_nil_iff, toList_integerText]
    exact Nat.toDigits_ne_nil

theorem not_isDigitsOf {text : String} {c : Char} (hc : c ∈ text.toList) (hdigit : c.isDigit = false) :
    ¬IsDigitsOf text n := by
  intro h
  rw [h.digits c hc] at hdigit
  cases hdigit

/-- A decimal is laid out as the digits of a natural just if it spells that natural. -/
theorem isDigitsOf_layout (hd : d.digits ≠ 0) : IsDigitsOf (layout d) n ↔ d.Spells n := by
  obtain ⟨digits, exponent⟩ := d
  dsimp only at hd
  have hpos := Nat.length_toDigits_pos (b := 10) (n := digits)
  have hshort (k : Nat) : digits * 10 ^ k < 10 ^ 21 ↔ (Nat.toDigits 10 digits).length + k ≤ 21 := by
    rw [← length_toDigits_mul hd, Nat.length_toDigits_le_iff (by decide) (by decide)]
  -- Whatever else than digits and zeros stands there, the decimal is not a natural of at most 21 digits.
  have hother (h : ¬(((Nat.toDigits 10 digits).length : Int) ≤ (Nat.toDigits 10 digits).length + exponent
      ∧ (Nat.toDigits 10 digits).length + exponent ≤ 21)) : ¬Decimal.Spells ⟨digits, exponent⟩ n := by
    rintro ⟨hn, k, hk, rfl⟩
    dsimp only at hk hn
    rw [hshort] at hn
    omega
  unfold layout
  dsimp only
  split
  next h =>
    obtain ⟨k, rfl⟩ := Int.eq_ofNat_of_zero_le (show 0 ≤ exponent by omega)
    have hvalue : Nat.ofDigitChars 10 (Nat.toDigits 10 digits ++ List.replicate k '0') 0 = digits * 10 ^ k := by
      rw [← decimalValue_eq, decimalValue_append, decimalValue_toDigits, decimalValue_replicate]
    rw [Int.natAbs_natCast]
    constructor
    · rintro ⟨-, -, hn⟩
      rw [String.toList_ofList, hvalue] at hn
      exact ⟨hn ▸ (hshort k).mpr (by omega), k, rfl, hn⟩
    · rintro ⟨-, k', hk, hn⟩
      obtain rfl : k = k' := Int.ofNat.inj hk
      refine ⟨?_, ?_, ?_⟩
      · rw [Ne, ← String.toList_eq_nil_iff, String.toList_ofList]
        exact List.append_ne_nil_of_left_ne_nil Nat.toDigits_ne_nil _
      · rw [String.toList_ofList]
        exact (areDigits_toDigits digits).append (areDigits_replicate k)
      · rw [String.toList_ofList, hvalue, hn]
  split
  next hplain _ => exact iff_of_false (not_isDigitsOf (c := '.') (by simp) rfl) (hother hplain)
  split
  next hplain _ _ => exact iff_of_false (not_isDigitsOf (c := '.') (by simp) rfl) (hother hplain)
  next hplain _ _ =>
    refine iff_of_false ?_ (hother hplain)
    split
    next heq => exact absurd heq Nat.toDigits_ne_nil
    next => exact not_isDigitsOf (c := 'e') (by split <;> simp) rfl
    next => exact not_isDigitsOf (c := 'e') (by split <;> simp) rfl

/-- A natural that stands in the text of its nearest number: it is a number of its own, or spelled by the shortest
decimal. -/
def IsWrittenOut (n : Nat) : Prop :=
  n ≤ maxExactInteger ∨ ∃ m q, ofNat n = finite false m q ∧ (shortest false m q).Spells n

/-- A natural above `2 ^ 53` is not rounded below that. -/
theorem le_of_ofNat_eq (hlarge : maxExactInteger < n) (h : ofNat n = finite s m q) :
    s = false ∧ (2 ^ 53 : ℚ) ≤ m * 2 ^ q := by
  have hn : 0 < n := Nat.zero_lt_of_lt hlarge
  have hnonneg := (exponentFor_of_large Nat.one_pos (by rw [Nat.mul_one]; exact hlarge.le : 2 ^ 53 * 1 ≤ n)).1
  obtain ⟨-, habove⟩ := divideToEven_bounds hn Nat.one_pos
  rcases ofRatio_cases false hn.ne' 1 with ⟨-, hinfinite⟩ | ⟨m', q', hfinite, hvalue⟩
  · rw [ofNat, hinfinite] at h
    cases h
  · rw [ofNat, hfinite] at h
    cases h
    have hexact : (m * 2 ^ q : ℚ) = (finite false m q).value := by simp [value, signed]
    refine ⟨rfl, ?_⟩
    rw [hexact, hvalue]
    obtain ⟨e, he⟩ := Int.eq_ofNat_of_zero_le hnonneg
    rw [he] at habove ⊢
    cases e with
    | zero =>
      -- In units of one nothing is rounded.
      have hunits : inUnits n 1 ((0 : Nat) : Int) = (n, 1) := inUnits_natCast n 1 0
      have hcast : (2 : ℚ) ^ 53 ≤ n := by exact_mod_cast hlarge.le
      rw [hunits, divideToEven_of_dvd Nat.one_pos (Nat.mul_one n).symm]
      simpa [signed] using hcast
    | succ e =>
      have hk := habove.resolve_left (by simp only [minExponent]; omega)
      generalize divideToEven _ _ = k at hk ⊢
      have hcast : (2 : ℚ) ^ 52 ≤ k := by exact_mod_cast hk
      have hpow : (2 : ℚ) ≤ 2 ^ (e + 1) := by
        rw [pow_succ]
        linarith [one_le_pow₀ (one_le_two : (1 : ℚ) ≤ 2) (n := e)]
      have hsigned : ((signed false k : Int) : ℚ) = k := by simp [signed]
      rw [hsigned, zpow_natCast]
      calc (2 : ℚ) ^ 53 = 2 ^ 52 * 2 := by norm_num
        _ ≤ (k : ℚ) * 2 ^ (e + 1) := by gcongr

/-- The least number that a natural above `2 ^ 53` is rounded to, and its shortest decimal. -/
theorem shortest_of_value (h : IsCanonical m q) (hm : 0 < m) (hvalue : (m * 2 ^ q : ℚ) = 2 ^ 53) :
    shortest false m q = ⟨2 ^ 53, 0⟩ := by
  have hratio := ofRatio_of_value h hm (n := 2 ^ 53) (by rw [hvalue]; norm_num) false
  have htop : ofRatio false (2 ^ 53) 1 = finite false (2 ^ 52) 1 := by decide +kernel
  rw [htop] at hratio
  cases hratio
  decide +kernel

/-- A number from `2 ^ 53` on is written as its shortest decimal is laid out. -/
theorem text_of_large (h : IsCanonical m q) (hlarge : (2 ^ 53 : ℚ) ≤ m * 2 ^ q) :
    (finite false m q).text = layout (shortest false m q) := by
  have hm : 0 < m := pos_of_value_pos (lt_of_lt_of_le (by norm_num) hlarge)
  rw [text]
  split
  next k hk =>
    split
    next hexact =>
      -- Of these numbers only `2 ^ 53` itself is written as an integer.
      obtain ⟨hsign, habs⟩ := toInt?_signed hm hk
      have hle : (k.natAbs : ℚ) ≤ 2 ^ 53 := by exact_mod_cast hexact
      have hvalue : (m * 2 ^ q : ℚ) = 2 ^ 53 := le_antisymm (habs ▸ hle) hlarge
      obtain rfl : k = (2 ^ 53 : Nat) := by
        rw [habs] at hvalue
        have hnat : k.natAbs = 2 ^ 53 := by exact_mod_cast hvalue
        rw [decide_eq_false_iff_not] at hsign
        omega
      rw [shortest_of_value h hm hvalue]
      decide +kernel
    next => rfl
  next => rfl

/-- The number nearest to a natural is written as that natural just if it stands there in full. -/
theorem isDigitsOf_ofNat_iff (hn : 0 < n) : IsDigitsOf (ofNat n).text n ↔ IsWrittenOut n := by
  rcases Nat.lt_or_ge maxExactInteger n with hlarge | hsmall
  · rcases ofRatio_cases false hn.ne' 1 with ⟨-, hinfinite⟩ | ⟨m, q, hfinite, -⟩
    · have htext : (ofNat n).text = "Infinity" := by rw [ofNat, hinfinite]; rfl
      refine iff_of_false (htext ▸ not_isDigitsOf (c := 'I') (by decide) rfl) ?_
      rintro (hsmall | ⟨m, q, hfinite, -⟩)
      · exact absurd hsmall hlarge.not_ge
      · rw [ofNat, hinfinite] at hfinite
        cases hfinite
    · obtain ⟨-, hvalue⟩ := le_of_ofNat_eq hlarge hfinite
      have hm : 0 < m := pos_of_value_pos (lt_of_lt_of_le (by norm_num) hvalue)
      have hcanonical : IsCanonical m q := by
        have hdouble := isDouble_ofRatio false n Nat.one_pos
        rwa [hfinite] at hdouble
      have hwritten : IsWrittenOut n ↔ (shortest false m q).Spells n := by
        refine ⟨?_, fun h => .inr ⟨m, q, hfinite, h⟩⟩
        rintro (hsmall | ⟨m', q', hfinite', h⟩)
        · exact absurd hsmall hlarge.not_ge
        · rw [ofNat, hfinite] at hfinite'
          cases hfinite'
          exact h
      rw [hwritten, ofNat, hfinite, text_of_large hcanonical hvalue]
      exact isDigitsOf_layout (digits_shortest hcanonical hm false)
  · obtain ⟨m, q, hcanonical, hvalue⟩ := exists_canonical hn hsmall
    have hm : 0 < m := pos_of_value_pos (hvalue ▸ Nat.cast_pos.mpr hn)
    have hint : (ofNat n).toInt? = some (n : Int) := by
      rw [ofNat, ofRatio_of_value hcanonical hm hvalue, toInt?_eq_some_iff]
      simpa [value, signed] using hvalue
    rw [text_of_toInt? hint hsmall, isDigitsOf_integerText]
    exact iff_of_true rfl (.inl hsmall)

end Binary64

end Bailiff

-- SUMMARY: The rational that a double precision number is, and what rounding, products and comparison do to it.
import Bailiff.Number.Binary64
import Mathlib.Algebra.Order.Field.Power
import Mathlib.Data.Nat.Cast.Order.Field
import Mathlib.Data.Rat.Lemmas
import Mathlib.Tactic.FieldSimp
import Mathlib.Tactic.Linarith
import Mathlib.Tactic.NormNum
import Mathlib.Tactic.Positivity
import Mathlib.Tactic.Ring

/-!
# Values of double precision numbers

A finite number is a rational (`Binary64.value`). The order of finite numbers is that of their values, a
product is the rounded product of the values, and rounding leaves naturals below `2 ^ 53` as they are.
-/

namespace Bailiff.Binary64

variable {s t : Bool} {m n num den : Nat} {q r : Int}

/-! ## Values -/

/-- The rational that a finite number is; the other numbers count as zero. -/
def value : Binary64 → ℚ
  | finite s m q => signed s m * 2 ^ q
  | _ => 0

theorem signed_mul (s : Bool) (m k : Nat) : ((signed s (m * k) : Int) : ℚ) = signed s m * k := by
  cases s <;> simp [signed]

theorem pow_natAbs_mul {p q : Int} (h : p ≤ q) :
    (2 : ℚ) ^ (q - p).natAbs * (2 : ℚ) ^ p = (2 : ℚ) ^ q := by
  rw [← zpow_natCast, Int.natAbs_of_nonneg (by omega), ← zpow_add₀ two_ne_zero]
  congr 1
  omega

theorem aligned_fst (s t : Bool) (m n : Nat) (q r : Int) :
    ((aligned s m q t n r).1 : ℚ) * 2 ^ min q r = (finite s m q).value := by
  simp only [aligned, signed_mul, value, Nat.pow_eq, Nat.cast_pow, Nat.cast_ofNat]
  rw [mul_assoc, pow_natAbs_mul (by omega)]

theorem aligned_snd (s t : Bool) (m n : Nat) (q r : Int) :
    ((aligned s m q t n r).2 : ℚ) * 2 ^ min q r = (finite t n r).value := by
  simp only [aligned, signed_mul, value, Nat.pow_eq, Nat.cast_pow, Nat.cast_ofNat]
  rw [mul_assoc, pow_natAbs_mul (by omega)]

/-- The order of finite numbers is that of their values. -/
theorem less_iff :
    (finite s m q).less (finite t n r) = true ↔ (finite s m q).value < (finite t n r).value := by
  rw [← aligned_fst s t m n q r, ← aligned_snd s t m n q r,
    mul_lt_mul_iff_left₀ (by positivity), Int.cast_lt]
  simp [less, compare?, compare_lt_iff_lt]

theorem atMost_iff :
    (finite s m q).atMost (finite t n r) = true ↔ (finite s m q).value ≤ (finite t n r).value := by
  have heq : (finite s m q).compare? (finite t n r) = some .eq
      ↔ (finite s m q).value = (finite t n r).value := by
    rw [← aligned_fst s t m n q r, ← aligned_snd s t m n q r,
      mul_left_inj' (by positivity), Int.cast_inj]
    simp [compare?]
  rw [atMost, Bool.or_eq_true, less_iff, decide_eq_true_iff, heq, le_iff_lt_or_eq]

/-! ## Rounding -/

theorem inUnits_eq (num den : Nat) (e : Int) :
    inUnits num den e
      = if e ≤ 0 then (num * 2 ^ e.natAbs, den) else (num, den * 2 ^ e.natAbs) := rfl

theorem inUnits_natCast (num den k : Nat) : inUnits num den k = (num, den * 2 ^ k) := by
  rw [inUnits_eq, Int.natAbs_natCast]
  split
  next h =>
    obtain rfl : k = 0 := by omega
    simp
  next => rfl

/-- Units of `2 ^ e`: the quotient shrinks by as much. -/
theorem inUnits_div (num : Nat) (hden : 0 < den) (e : Int) :
    ((inUnits num den e).1 : ℚ) / (inUnits num den e).2 * 2 ^ e = num / den := by
  have hden' : (den : ℚ) ≠ 0 := by positivity
  have hpow : (2 : ℚ) ^ e ≠ 0 := by positivity
  rw [inUnits_eq]
  split
  next h =>
    have habs : (2 : ℚ) ^ e.natAbs * 2 ^ e = 1 := by
      have := pow_natAbs_mul (p := e) (q := 0) h
      simpa using this
    push_cast
    field_simp
    rw [mul_assoc, habs, mul_one]
  next h =>
    have habs : (2 : ℚ) ^ e.natAbs = 2 ^ e := by
      rw [← zpow_natCast, Int.natAbs_of_nonneg (by omega)]
    push_cast
    rw [habs]
    field_simp

theorem divideToEven_of_dvd (hden : 0 < den) (h : num = n * den) : divideToEven num den = n := by
  subst h
  have hmod : n * den % den = 0 := Nat.mul_mod_left n den
  have hdiv : n * den / den = n := Nat.mul_div_cancel n hden
  unfold divideToEven
  dsimp only
  rw [hmod, hdiv]
  split
  · omega
  · split <;> omega

theorem divideToEven_le (num den : Nat) : divideToEven num den ≤ num / den + 1 := by
  unfold divideToEven
  dsimp only
  split
  · exact Nat.le_refl _
  · split <;> omega

theorem le_divideToEven (num den : Nat) : num / den ≤ divideToEven num den := by
  unfold divideToEven
  dsimp only
  split
  · exact Nat.le_succ _
  · split <;> omega

/-- Rounding does not pass a natural. -/
theorem divideToEven_le_of_le {k : Nat} (hden : 0 < den) (h : num ≤ k * den) : divideToEven num den ≤ k := by
  rcases (Nat.div_le_of_le_mul (Nat.mul_comm k den ▸ h)).lt_or_eq with hless | hexact
  · exact (divideToEven_le num den).trans hless
  · have hsum := Nat.div_add_mod num den
    rw [hexact, Nat.mul_comm den k] at hsum
    exact (divideToEven_of_dvd hden (by omega)).le

/-- What rounding comes to: the nearest multiple of the unit, or an infinity beyond the largest
exponent. -/
theorem ofRatio_cases (negative : Bool) (hnum : num ≠ 0) (den : Nat) :
    let e := exponentFor num den
    let k := divideToEven (inUnits num den e).1 (inUnits num den e).2
    ((maxExponent < e ∨ maxExponent = e ∧ k = 2 ^ 53) ∧ ofRatio negative num den = infinite negative)
      ∨ ∃ m q, ofRatio negative num den = finite negative m q
        ∧ (finite negative m q).value = signed negative k * 2 ^ e := by
  intro e k
  have hround : ofRatio negative num den =
      if k = Nat.pow 2 53 then
        if maxExponent < e + 1 then infinite negative else finite negative (Nat.pow 2 52) (e + 1)
      else if maxExponent < e then infinite negative else finite negative k e := by
    unfold ofRatio
    rw [if_neg hnum]
    dsimp only
    split <;> rfl
  rw [hround]
  split
  next hcarry =>
    split
    next h => exact .inl ⟨(Int.lt_add_one_iff.mp h).lt_or_eq.imp_right fun heq => ⟨heq, hcarry⟩, rfl⟩
    next =>
      refine .inr ⟨_, _, rfl, ?_⟩
      rw [hcarry, value, zpow_add₀ two_ne_zero]
      cases negative <;> simp [signed] <;> ring
  next =>
    split
    next h => exact .inl ⟨.inl h, rfl⟩
    next => exact .inr ⟨_, _, rfl, rfl⟩

/-- The exponent of a quotient below `2 ^ (53 + k)` is that of a unit of at most `2 ^ k`. -/
theorem exponentFor_le (hden : 0 < den) (k : Nat) (h : num < 2 ^ (53 + k) * den) : exponentFor num den ≤ k := by
  have hlog : num.log2 ≤ den.log2 + 53 + k := by
    by_cases hnum : num = 0
    · simp [hnum]
    have hup : num < 2 ^ (den.log2 + 1 + (53 + k)) := by
      calc num < 2 ^ (53 + k) * den := h
        _ < 2 ^ (53 + k) * 2 ^ (den.log2 + 1) :=
          Nat.mul_lt_mul_of_pos_left Nat.lt_log2_self (by positivity)
        _ = 2 ^ (den.log2 + 1 + (53 + k)) := by rw [← pow_add, Nat.add_comm]
    have := (Nat.log2_lt hnum).mpr hup
    omega
  unfold exponentFor
  dsimp only
  split
  next => simp only [minExponent]; omega
  next hlarge =>
    by_contra hpos
    -- the guess is `k`, where the quotient is small enough
    have hguess : max ((num.log2 : Int) - (den.log2 : Int) - 53) minExponent = k := by
      simp only [minExponent] at hpos ⊢
      omega
    rw [hguess] at hlarge
    apply hlarge
    rw [inUnits_natCast]
    refine (Nat.div_lt_iff_lt_mul (by positivity)).mpr (h.trans_eq ?_)
    simp only [Nat.pow_eq]
    ring

/-- The exponent of a quotient from `2 ^ 53` on. -/
theorem exponentFor_of_large (hden : 0 < den) (h : 2 ^ 53 * den ≤ num) :
    0 ≤ exponentFor num den ∧ exponentFor num den + den.log2 + 52 ≤ num.log2 := by
  have hlog : den.log2 + 53 ≤ num.log2 := by
    rw [Nat.le_log2 (by omega)]
    calc 2 ^ (den.log2 + 53) = 2 ^ 53 * 2 ^ den.log2 := by rw [pow_add, Nat.mul_comm]
      _ ≤ 2 ^ 53 * den := Nat.mul_le_mul_left _ (Nat.log2_self_le hden.ne')
      _ ≤ num := h
  unfold exponentFor
  dsimp only
  split <;> simp only [minExponent] <;> omega

/-- Rounding leaves a natural below `2 ^ 53` as it is. -/
theorem ofRatio_of_natural (hden : 0 < den) (h : num = n * den) (hpos : 0 < n) (hn : n < 2 ^ 53) :
    ∃ m q, ofRatio false num den = finite false m q ∧ (finite false m q).value = n := by
  have hnum : num ≠ 0 := by
    rw [h]
    positivity
  have he : exponentFor num den ≤ 0 :=
    exponentFor_le hden 0 (by rw [h]; exact Nat.mul_lt_mul_of_pos_right hn hden)
  rcases ofRatio_cases false hnum den with ⟨hlarge, -⟩ | ⟨m, q, hfinite, hvalue⟩
  · simp only [maxExponent] at hlarge
    omega
  · refine ⟨m, q, hfinite, ?_⟩
    rw [hvalue]
    generalize exponentFor num den = e at he
    have hunits : inUnits num den e = (n * 2 ^ e.natAbs * den, den) := by
      rw [inUnits_eq, if_pos he, h]
      ring_nf
    have hpow := pow_natAbs_mul (p := e) (q := 0) he
    simp only [zero_sub, Int.natAbs_neg, zpow_zero] at hpow
    rw [hunits, divideToEven_of_dvd hden rfl]
    simp only [signed, Bool.false_eq_true, if_false]
    push_cast
    rw [mul_assoc, hpow, mul_one]

/-- The largest finite number. -/
def largest : Nat := (2 ^ 53 - 1) * 2 ^ maxExponent.toNat

/-- Rounding makes a natural a natural, up to the largest number. -/
theorem ofRatio_of_le_largest (hden : 0 < den) (h : num = n * den) (hpos : 0 < n) (hn : n ≤ largest) :
    ∃ m q k, ofRatio false num den = finite false m q ∧ 0 < k ∧ (finite false m q).value = (k : Nat) := by
  by_cases hsmall : n < 2 ^ 53
  · obtain ⟨m, q, hfinite, hvalue⟩ := ofRatio_of_natural hden h hpos hsmall
    exact ⟨m, q, n, hfinite, hpos, hvalue⟩
  obtain ⟨top, htop⟩ : ∃ top : Nat, maxExponent = top := ⟨971, rfl⟩
  rw [largest, htop, Int.toNat_natCast] at hn
  have hnum : num ≠ 0 := by
    rw [h]
    positivity
  have hlow := exponentFor_of_large hden (h ▸ Nat.mul_le_mul_right den (Nat.not_lt.mp hsmall))
  have hhigh : exponentFor num den ≤ top := by
    refine exponentFor_le hden top ?_
    rw [h, Nat.pow_add]
    exact Nat.mul_lt_mul_of_pos_right (hn.trans_lt (Nat.mul_lt_mul_of_pos_right (by norm_num) (by positivity))) hden
  have hcases := ofRatio_cases false hnum den
  dsimp only at hcases
  generalize exponentFor num den = e at hlow hhigh hcases
  obtain ⟨k, rfl⟩ := Int.eq_ofNat_of_zero_le hlow.1
  rw [inUnits_natCast] at hcases
  have hunit : den * 2 ^ k ≤ num := by
    calc den * 2 ^ k ≤ 2 ^ (den.log2 + 1) * 2 ^ k := Nat.mul_le_mul_right _ Nat.lt_log2_self.le
      _ = 2 ^ (den.log2 + 1 + k) := (pow_add ..).symm
      _ ≤ 2 ^ num.log2 := Nat.pow_le_pow_right two_pos (by omega)
      _ ≤ num := Nat.log2_self_le hnum
  have hsome : 0 < divideToEven num (den * 2 ^ k) :=
    (Nat.div_pos hunit (by positivity)).trans_le (le_divideToEven _ _)
  rcases hcases with ⟨hlarge, -⟩ | ⟨m, q, hfinite, hvalue⟩
  · -- In the largest unit there is no room for a carry.
    rw [htop] at hlarge
    obtain ⟨heq, hcarry⟩ := hlarge.resolve_left hhigh.not_gt
    obtain rfl : top = k := Int.ofNat.inj heq
    have hle : divideToEven num (den * 2 ^ top) ≤ 2 ^ 53 - 1 := by
      refine divideToEven_le_of_le (by positivity) ?_
      rw [h, Nat.mul_left_comm, Nat.mul_comm n den]
      exact Nat.mul_le_mul_left den hn
    rw [hcarry] at hle
    exact absurd hle (by norm_num)
  · refine ⟨m, q, divideToEven num (den * 2 ^ k) * 2 ^ k, hfinite, by positivity, ?_⟩
    rw [hvalue]
    simp [signed]

theorem ofNat_eq (hpos : 0 < n) (hn : n < 2 ^ 53) :
    ∃ m q, ofNat n = finite false m q ∧ (finite false m q).value = n :=
  ofRatio_of_natural Nat.one_pos (Nat.mul_one n).symm hpos hn

theorem value_ofNat (hpos : 0 < n) (hn : n < 2 ^ 53) : (ofNat n).value = n := by
  obtain ⟨m, q, heq, hvalue⟩ := ofNat_eq hpos hn
  rw [heq, hvalue]

theorem less_ofNat_iff (hpos : 0 < n) (hn : n < 2 ^ 53) :
    (finite s m q).less (ofNat n) = true ↔ (finite s m q).value < n := by
  obtain ⟨m', q', heq, hvalue⟩ := ofNat_eq hpos hn
  rw [heq, less_iff, hvalue]

theorem ofNat_less_iff (hpos : 0 < n) (hn : n < 2 ^ 53) :
    (ofNat n).less (finite s m q) = true ↔ n < (finite s m q).value := by
  obtain ⟨m', q', heq, hvalue⟩ := ofNat_eq hpos hn
  rw [heq, less_iff, hvalue]

/-- A quotient of at most one is rounded to at most two. -/
theorem ofRatio_of_le (hden : 0 < den) (hpos : 0 < num) (h : num ≤ den) :
    ∃ m q, ofRatio false num den = finite false m q ∧ (finite false m q).value ≤ 2 := by
  have hlog : num.log2 ≤ den.log2 := by
    rw [Nat.le_log2 hden.ne']
    exact (Nat.log2_self_le hpos.ne').trans h
  have he : exponentFor num den ≤ -52 := by
    unfold exponentFor
    dsimp only
    split <;> simp only [minExponent] <;> omega
  rcases ofRatio_cases false hpos.ne' den with ⟨hlarge, -⟩ | ⟨m, q, hfinite, hvalue⟩
  · simp only [maxExponent] at hlarge
    omega
  · refine ⟨m, q, hfinite, ?_⟩
    rw [hvalue]
    generalize exponentFor num den = e at he
    have hunit : (2 : ℚ) ^ e ≤ 1 := zpow_le_one_of_nonpos₀ one_le_two (by omega)
    have hquotient := inUnits_div num hden e
    have hle : (num : ℚ) / den ≤ 1 := by
      rw [div_le_one (by positivity)]
      exact_mod_cast h
    have hk := divideToEven_le (inUnits num den e).1 (inUnits num den e).2
    have hfloor : (((inUnits num den e).1 / (inUnits num den e).2 : Nat) : ℚ)
        ≤ ((inUnits num den e).1 : ℚ) / (inUnits num den e).2 := Nat.cast_div_le
    calc ((signed false (divideToEven (inUnits num den e).1 (inUnits num den e).2) : Int) : ℚ) * 2 ^ e
        = (divideToEven (inUnits num den e).1 (inUnits num den e).2 : ℚ) * 2 ^ e := by simp [signed]
      _ ≤ (((inUnits num den e).1 : ℚ) / (inUnits num den e).2 + 1) * 2 ^ e := by
        refine mul_le_mul_of_nonneg_right ?_ (by positivity)
        calc (divideToEven (inUnits num den e).1 (inUnits num den e).2 : ℚ)
            ≤ ((inUnits num den e).1 / (inUnits num den e).2 : Nat) + 1 := by exact_mod_cast hk
          _ ≤ _ := by linarith
      _ = num / den + 2 ^ e := by rw [add_mul, hquotient, one_mul]
      _ ≤ 2 := by linarith

/-! ## Products -/

theorem ofScaled_eq (negative : Bool) (m : Nat) (q : Int) :
    ofScaled negative m q
      = if 0 ≤ q then ofRatio negative (m * 2 ^ q.natAbs) 1 else ofRatio negative m (2 ^ q.natAbs) :=
  rfl

theorem ofScaled_value (negative : Bool) (m : Nat) (q : Int) :
    ∃ num den, 0 < den ∧ ofScaled negative m q = ofRatio negative num den
      ∧ (num : ℚ) / den = m * 2 ^ q := by
  rw [ofScaled_eq]
  split
  next h =>
    refine ⟨_, 1, Nat.one_pos, rfl, ?_⟩
    rw [Nat.cast_mul, Nat.cast_one, div_one, Nat.cast_pow, Nat.cast_ofNat, ← zpow_natCast,
      Int.natAbs_of_nonneg h]
  next h =>
    refine ⟨m, _, by positivity, rfl, ?_⟩
    have hq : q = -(q.natAbs : Int) := by omega
    rw [hq, zpow_neg, zpow_natCast, Int.natAbs_neg, Int.natAbs_natCast, Nat.cast_pow, Nat.cast_ofNat]
    rfl

/-- A product of positive numbers is the rounded product of their values. -/
theorem mul_eq_ofRatio (m n : Nat) (q r : Int) :
    ∃ num den, 0 < den ∧ finite false m q * finite false n r = ofRatio false num den
      ∧ (num : ℚ) / den = (finite false m q).value * (finite false n r).value := by
  obtain ⟨num, den, hden, hscaled, hvalue⟩ := ofScaled_value false (m * n) (q + r)
  refine ⟨num, den, hden, hscaled, ?_⟩
  rw [hvalue, zpow_add₀ two_ne_zero]
  simp only [value, signed, Bool.false_eq_true, if_false, Int.cast_natCast, Nat.cast_mul]
  ring

/-- A positive number times a natural. -/
theorem mul_ofNat_eq (m : Nat) (q : Int) (hpos : 0 < n) (hn : n < 2 ^ 53) :
    ∃ num den, 0 < den ∧ finite false m q * ofNat n = ofRatio false num den
      ∧ (num : ℚ) / den = (finite false m q).value * n := by
  obtain ⟨m', q', heq, hvalue⟩ := ofNat_eq hpos hn
  rw [heq, ← hvalue]
  exact mul_eq_ofRatio m m' q q'

/-- A product that is a natural below `2 ^ 53` is exact. -/
theorem mul_ofNat_of_natural {k : Nat} (hpos : 0 < n) (hn : n < 2 ^ 53) (hk : 0 < k)
    (hk' : k < 2 ^ 53) (h : (finite false m q).value * n = k) :
    ∃ m' q', finite false m q * ofNat n = finite false m' q' ∧ (finite false m' q').value = k := by
  obtain ⟨num, den, hden, hmul, hquotient⟩ := mul_ofNat_eq m q hpos hn
  rw [h, div_eq_iff (by positivity)] at hquotient
  rw [hmul]
  exact ofRatio_of_natural hden (by exact_mod_cast hquotient) hk hk'

/-- A product of at most one is rounded to at most two. -/
theorem mul_ofNat_of_le (hpos : 0 < n) (hn : n < 2 ^ 53) (hvalue : 0 < (finite false m q).value)
    (h : (finite false m q).value * n ≤ 1) :
    ∃ m' q', finite false m q * ofNat n = finite false m' q' ∧ (finite false m' q').value ≤ 2 := by
  obtain ⟨num, den, hden, hmul, hquotient⟩ := mul_ofNat_eq m q hpos hn
  have hden' : (0 : ℚ) < den := by positivity
  rw [← hquotient, div_le_one hden'] at h
  have hnum : (0 : ℚ) < num := by
    rw [← div_pos_iff_of_pos_right hden', hquotient]
    positivity
  rw [hmul]
  exact ofRatio_of_le hden (by exact_mod_cast hnum) (by exact_mod_cast h)

end Bailiff.Binary64

-- SUMMARY: Numbers that are integers: their integer part, and the digits that they are written with.
import Bailiff.Number.Shortest
import Bailiff.Proofs.Number.Value

/-!
# Whole numbers

A number is an integer if its value is one (`Binary64.toInt?_eq_some_iff`). It has that as its integer part
(`Binary64.truncate?_of_toInt?`), and up to the largest exact integer it is written with the digits of that integer
(`Binary64.text_of_toInt?`), which tell it from every other (`Binary64.integerText_natCast_inj`).
-/

namespace Bailiff.Binary64

variable {x : Binary64} {s : Bool} {m : Nat} {q n : Int}

/-! ## Integers -/

theorem ratio_eq (m : Nat) (q : Int) : 0 < (ratio m q).2 ∧ (ratio m q).1 = m * (2 : ℚ) ^ q * (ratio m q).2 := by
  unfold ratio
  split
  next h =>
    refine ⟨Nat.one_pos, ?_⟩
    rw [Nat.cast_one, mul_one, Nat.cast_mul, Nat.pow_eq, Nat.cast_pow, Nat.cast_ofNat, ← zpow_natCast,
      Int.natAbs_of_nonneg h]
  next h =>
    refine ⟨Nat.pow_pos two_pos, ?_⟩
    have hpow := pow_natAbs_mul (p := q) (q := 0) (by omega)
    simp only [zero_sub, Int.natAbs_neg, zpow_zero] at hpow
    rw [Nat.pow_eq, Nat.cast_pow, Nat.cast_ofNat, mul_assoc, mul_comm ((2 : ℚ) ^ q), hpow, mul_one]

/-- The integer that a finite number is, is its value. -/
theorem toInt?_eq_some_iff : (finite s m q).toInt? = some n ↔ (finite s m q).value = n := by
  obtain ⟨hden, hnum⟩ := ratio_eq m q
  have hvalue : (finite s m q).value * (ratio m q).2 = signed s (ratio m q).1 := by
    rw [value, mul_assoc]
    cases s <;> simp [signed, hnum, mul_assoc]
  unfold toInt?
  dsimp only
  generalize ratio m q = r at hden hvalue ⊢
  obtain ⟨num, den⟩ := r
  dsimp only at hden hvalue ⊢
  have hden' : (den : ℚ) ≠ 0 := Nat.cast_ne_zero.mpr hden.ne'
  have hsigned : (finite s m q).value = n ↔ signed s num = n * den := by
    rw [← mul_left_inj' hden', hvalue]
    exact_mod_cast Iff.rfl
  have hmod := Nat.div_add_mod num den
  rw [hsigned, Option.ite_none_right_eq_some, Option.some.injEq]
  constructor
  · rintro ⟨hexact, rfl⟩
    rw [hexact, Nat.add_zero] at hmod
    have hcast : (num : Int) = den * (num / den : Nat) := by exact_mod_cast hmod.symm
    cases s <;> simp [signed] <;> linarith
  · intro heq
    have habs : num = n.natAbs * den := by
      rw [← Int.natAbs_natCast den, ← Int.natAbs_mul, ← heq]
      cases s <;> simp [signed]
    subst habs
    rw [Nat.mul_mod_left, Nat.mul_div_cancel _ hden]
    refine ⟨rfl, mul_right_cancel₀ (Int.natCast_ne_zero.mpr hden.ne') (heq ▸ ?_)⟩
    cases s <;> simp [signed]

theorem truncate?_of_toInt? (h : x.toInt? = some n) : x.truncate? = some n := by
  cases x with
  | nan | infinite => cases h
  | finite s m q =>
    simp only [toInt?, Option.ite_none_right_eq_some] at h
    exact h.2

/-! ## Digits -/

theorem toList_integerText (n : Nat) : (integerText n).toList = Nat.toDigits 10 n := by
  have hnonneg : ¬((n : Int) < 0) := by omega
  simp only [integerText, if_neg hnonneg, String.toList_ofList, Int.natAbs_natCast]

theorem integerText_natCast_inj {m n : Nat} (h : integerText m = integerText n) : m = n := by
  have hdigits := congrArg (fun text => Nat.ofDigitChars 10 text.toList 0) h
  simpa only [toList_integerText, Nat.ofDigitChars_ten_toDigits] using hdigits

/-- No natural is written like an integer below zero. -/
theorem nonneg_of_integerText {m : Nat} (h : integerText n = integerText m) : 0 ≤ n := by
  refine Int.not_lt.mp fun hneg => ?_
  have hchars := congrArg String.toList h
  rw [toList_integerText, integerText, if_pos hneg, String.toList_append] at hchars
  have hminus : '-' ∈ Nat.toDigits 10 m := by
    rw [← hchars]
    exact List.mem_append_left _ (by decide)
  cases Nat.isDigit_of_mem_toDigits (by decide) (by decide) hminus

theorem text_of_toInt? (h : x.toInt? = some n) (hn : n.natAbs ≤ maxExactInteger) : x.text = integerText n := by
  cases x with
  | nan | infinite => cases h
  | finite s m q =>
    rw [text, h]
    exact if_pos hn

/-- A whole number that is written like a natural is that natural. -/
theorem toInt?_of_text {m : Nat} (h : x.toInt? = some n) (hn : n.natAbs ≤ maxExactInteger)
    (htext : x.text = integerText m) : n = m := by
  rw [text_of_toInt? h hn] at htext
  obtain ⟨k, rfl⟩ := Int.eq_ofNat_of_zero_le (nonneg_of_integerText htext)
  rw [integerText_natCast_inj htext]

end Bailiff.Binary64

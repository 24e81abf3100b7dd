-- SUMMARY: Rounding depends on the quotient alone, and takes every quotient near a number to that number.
import Bailiff.Proofs.Number.Value

/-!
# Rounding

The exponent of a quotient is determined by its size (`Binary64.exponentFor_spec`), and its significand by the nearest
natural. So equal quotients are rounded alike (`Binary64.ofRatio_congr`), and a quotient is rounded to the canonical
number that it is nearer to than to the middle between that and the next one (`Binary64.ofRatio_of_near`).
-/

namespace Bailiff.Binary64

variable {s : Bool} {m n num den num' den' : Nat} {q e e' : Int} {r : ℚ}

/-! ## Nearest naturals -/

theorem divideToEven_mul (num den : Nat) {k : Nat} (hk : 0 < k) :
    divideToEven (num * k) (den * k) = divideToEven num den := by
  unfold divideToEven
  rw [Nat.mul_div_mul_right _ _ hk, Nat.mul_mod_mul_right]
  dsimp only
  rw [← Nat.mul_assoc]
  simp only [Nat.mul_lt_mul_right hk, Nat.mul_left_inj hk.ne']

/-- Equal quotients have the same nearest natural. -/
theorem divideToEven_congr (hden : 0 < den) (hden' : 0 < den') (h : num * den' = num' * den) :
    divideToEven num den = divideToEven num' den' := by
  rw [← divideToEven_mul num den hden', h, Nat.mul_comm den den', divideToEven_mul num' den' hden]

/-- A quotient nearer than one half to a natural is rounded to it. -/
theorem divideToEven_of_near {k : Nat} (hden : 0 < den) (hlow : 2 * k * den < 2 * num + den)
    (hhigh : 2 * num < 2 * k * den + den) : divideToEven num den = k := by
  have hmod := Nat.div_add_mod num den
  have hlt := Nat.mod_lt num hden
  unfold divideToEven
  dsimp only
  generalize num / den = whole at *
  generalize num % den = rest at *
  subst hmod
  -- The natural is the whole part or the one above it.
  have hle : whole ≤ k := by
    by_contra hk
    have : (k + 1) * den ≤ whole * den := Nat.mul_le_mul_right den (by omega)
    nlinarith
  have hge : k ≤ whole + 1 := by
    by_contra hk
    have : (whole + 2) * den ≤ k * den := Nat.mul_le_mul_right den (by omega)
    nlinarith
  rcases hle.eq_or_lt with rfl | hlt'
  · have hbelow : 2 * rest < den := by nlinarith
    rw [if_neg (by omega), if_neg (by omega)]
  · obtain rfl : k = whole + 1 := by omega
    have habove : den < 2 * rest := by nlinarith
    rw [if_pos habove]

/-! ## Exponents -/

/-- The unit of a quotient: the quotient is below `2 ^ 53` units, and not below `2 ^ 52` unless the unit is the
least one. -/
structure IsUnit (r : ℚ) (e : Int) : Prop where
  least : minExponent ≤ e
  below : r < 2 ^ 53 * 2 ^ e
  above : e = minExponent ∨ 2 ^ 52 * 2 ^ e ≤ r

theorem two_mul_zpow (k : Nat) (e : Int) : (2 : ℚ) ^ (k + 1) * 2 ^ e = 2 ^ k * 2 ^ (e + 1) := by
  rw [zpow_add_one₀ two_ne_zero, pow_succ]
  ring

theorem IsUnit.le_of_lt (h : IsUnit r e) (hleast : minExponent ≤ e') (hbelow : r < 2 ^ 53 * 2 ^ e') : e ≤ e' := by
  by_contra hlt
  rcases h.above with rfl | habove
  · exact hlt hleast
  have hpow : (2 : ℚ) ^ (e' + 1) ≤ 2 ^ e := zpow_le_zpow_right₀ one_le_two (by omega)
  refine absurd (habove.trans_lt hbelow) (not_lt.mpr ?_)
  calc (2 : ℚ) ^ 53 * 2 ^ e' = 2 ^ 52 * 2 ^ (e' + 1) := two_mul_zpow 52 e'
    _ ≤ 2 ^ 52 * 2 ^ e := by gcongr

theorem IsUnit.unique (h : IsUnit r e) (h' : IsUnit r e') : e = e' :=
  Int.le_antisymm (h.le_of_lt h'.least h'.below) (h'.le_of_lt h.least h.below)

/-- The logarithms of numerator and denominator give the size of a quotient up to a factor of two. -/
theorem quotient_bounds (hnum : 0 < num) (hden : 0 < den) :
    (2 : ℚ) ^ 52 * 2 ^ ((num.log2 : Int) - den.log2 - 53) ≤ num / den
      ∧ (num / den : ℚ) < 2 ^ 54 * 2 ^ ((num.log2 : Int) - den.log2 - 53) := by
  have hnumlow : (2 : ℚ) ^ num.log2 ≤ num := by exact_mod_cast Nat.log2_self_le hnum.ne'
  have hnumhigh : (num : ℚ) < 2 ^ (num.log2 + 1) := by exact_mod_cast Nat.lt_log2_self
  have hdenlow : (2 : ℚ) ^ den.log2 ≤ den := by exact_mod_cast Nat.log2_self_le hden.ne'
  have hdenhigh : (den : ℚ) < 2 ^ (den.log2 + 1) := by exact_mod_cast Nat.lt_log2_self
  have hpos : (0 : ℚ) < den := by positivity
  have hsplit : (2 : ℚ) ^ ((num.log2 : Int) - den.log2 - 53) * (2 ^ den.log2 * 2 ^ 53) = 2 ^ num.log2 := by
    rw [← pow_add, ← zpow_natCast, ← zpow_natCast, ← zpow_add₀ two_ne_zero]
    congr 1
    push_cast
    ring
  have hunit : (0 : ℚ) < 2 ^ ((num.log2 : Int) - den.log2 - 53) := by positivity
  generalize (2 : ℚ) ^ ((num.log2 : Int) - den.log2 - 53) = unit at hsplit hunit ⊢
  rw [pow_succ] at hnumhigh hdenhigh
  constructor
  · rw [le_div_iff₀ hpos]
    calc 2 ^ 52 * unit * den ≤ 2 ^ 52 * unit * (2 ^ den.log2 * 2) := by gcongr
      _ = 2 ^ num.log2 := by rw [← hsplit]; ring
      _ ≤ num := hnumlow
  · rw [div_lt_iff₀ hpos]
    calc (num : ℚ) < 2 ^ num.log2 * 2 := hnumhigh
      _ = 2 ^ 54 * unit * 2 ^ den.log2 := by rw [← hsplit]; ring
      _ ≤ 2 ^ 54 * unit * den := by gcongr

theorem inUnits_pos (num : Nat) (hden : 0 < den) (e : Int) : 0 < (inUnits num den e).2 := by
  rw [inUnits_eq]
  split <;> positivity

/-- Counted in units, a quotient has the whole part that it is tested with. -/
theorem inUnits_div_lt_iff (hden : 0 < den) (e : Int) :
    (inUnits num den e).1 / (inUnits num den e).2 < Nat.pow 2 53 ↔ (num / den : ℚ) < 2 ^ 53 * 2 ^ e := by
  have hunits := inUnits_pos num hden e
  have hpos : (0 : ℚ) < 2 ^ e := by positivity
  rw [← inUnits_div num hden e, mul_lt_mul_iff_left₀ hpos, div_lt_iff₀ (by exact_mod_cast hunits),
    Nat.div_lt_iff_lt_mul hunits, Nat.pow_eq]
  norm_cast

/-- The exponent of a quotient is that of its unit. -/
theorem exponentFor_spec (hnum : 0 < num) (hden : 0 < den) : IsUnit (num / den) (exponentFor num den) := by
  obtain ⟨hlow, hhigh⟩ := quotient_bounds hnum hden
  unfold exponentFor
  dsimp only
  generalize (num.log2 : Int) - den.log2 - 53 = log at hlow hhigh ⊢
  -- The guess is the difference of the logarithms, or the least exponent above that.
  have hguess : minExponent ≤ max log minExponent := le_max_right ..
  have hbound : (num / den : ℚ) < 2 ^ 54 * 2 ^ max log minExponent :=
    hhigh.trans_le (by gcongr; exacts [one_le_two, le_max_left ..])
  have habove : max log minExponent = minExponent ∨ 2 ^ 52 * 2 ^ max log minExponent ≤ (num / den : ℚ) := by
    rcases le_total log minExponent with hle | hle
    · exact .inl (max_eq_right hle)
    · exact .inr (by rwa [max_eq_left hle])
  generalize max log minExponent = guess at hguess hbound habove ⊢
  split
  next hsmall => exact ⟨hguess, (inUnits_div_lt_iff hden guess).mp hsmall, habove⟩
  next hlarge =>
    refine ⟨by omega, hbound.trans_eq (two_mul_zpow 53 guess), .inr ?_⟩
    rw [inUnits_div_lt_iff hden, not_lt] at hlarge
    exact (two_mul_zpow 52 guess).symm.trans_le hlarge

/-! ## Rounding -/

theorem inUnits_congr (h : num * den' = num' * den) (e : Int) :
    (inUnits num den e).1 * (inUnits num' den' e).2 = (inUnits num' den' e).1 * (inUnits num den e).2 := by
  rw [inUnits_eq, inUnits_eq]
  split
  · rw [Nat.mul_right_comm, h, Nat.mul_right_comm]
  · rw [← Nat.mul_assoc, h, Nat.mul_assoc]

/-- Equal quotients are rounded alike. -/
theorem ofRatio_congr (hden : 0 < den) (hden' : 0 < den') (h : (num / den : ℚ) = num' / den') (s : Bool) :
    ofRatio s num den = ofRatio s num' den' := by
  have hcross : num * den' = num' * den := by
    rw [div_eq_div_iff (by positivity) (by positivity)] at h
    exact_mod_cast h
  rcases Nat.eq_zero_or_pos num with rfl | hnum
  · obtain rfl : num' = 0 := by
      rw [Nat.zero_mul, eq_comm, Nat.mul_eq_zero] at hcross
      exact hcross.resolve_right hden.ne'
    rfl
  · have hnum' : 0 < num' := Nat.pos_of_mul_pos_right (hcross ▸ Nat.mul_pos hnum hden')
    have hexponent : exponentFor num den = exponentFor num' den' :=
      (h ▸ exponentFor_spec hnum hden).unique (exponentFor_spec hnum' hden')
    unfold ofRatio
    rw [if_neg hnum.ne', if_neg hnum'.ne', hexponent]
    dsimp only
    rw [divideToEven_congr (inUnits_pos num hden _) (inUnits_pos num' hden' _) (inUnits_congr hcross _)]

/-- A number as the operations build it. -/
structure IsCanonical (m : Nat) (q : Int) : Prop where
  least : minExponent ≤ q
  most : q ≤ maxExponent
  below : m < 2 ^ 53
  above : q = minExponent ∨ 2 ^ 52 ≤ m

/-- Counted in units, a quotient nearer than one half to a natural is rounded to it. -/
theorem divideToEven_inUnits_of_near (hden : 0 < den) {k : Nat} (hlow : (k - 1 / 2 : ℚ) * 2 ^ e < num / den)
    (hhigh : (num / den : ℚ) < (k + 1 / 2) * 2 ^ e) :
    divideToEven (inUnits num den e).1 (inUnits num den e).2 = k := by
  have hunits : (0 : ℚ) < (inUnits num den e).2 := Nat.cast_pos.mpr (inUnits_pos num hden e)
  have hpos : (0 : ℚ) < 2 ^ e := by positivity
  rw [← inUnits_div num hden e, mul_lt_mul_iff_left₀ hpos, lt_div_iff₀ hunits] at hlow
  rw [← inUnits_div num hden e, mul_lt_mul_iff_left₀ hpos, div_lt_iff₀ hunits] at hhigh
  have hlow' : (2 * k * (inUnits num den e).2 : ℚ) < 2 * (inUnits num den e).1 + (inUnits num den e).2 := by linarith
  have hhigh' : (2 * (inUnits num den e).1 : ℚ) < 2 * k * (inUnits num den e).2 + (inUnits num den e).2 := by linarith
  exact divideToEven_of_near (inUnits_pos num hden e) (by exact_mod_cast hlow') (by exact_mod_cast hhigh')

/-- A quotient that is nearer than half a unit to a canonical number is rounded to it. Below a power of two it has to be
nearer than a quarter, as the numbers lie twice as close there. -/
theorem ofRatio_of_near (h : IsCanonical m q) (hm : 0 < m) (hden : 0 < den)
    (hlow : (m - 1 / 2 : ℚ) * 2 ^ q < num / den) (hhigh : (num / den : ℚ) < (m + 1 / 2) * 2 ^ q)
    (hpower : m = 2 ^ 52 → (m - 1 / 4 : ℚ) * 2 ^ q < num / den) (s : Bool) : ofRatio s num den = finite s m q := by
  have hpos : (0 : ℚ) < 2 ^ q := by positivity
  have hm' : (1 : ℚ) ≤ m := by exact_mod_cast hm
  have hbelow : (m : ℚ) + 1 ≤ 2 ^ 53 := by exact_mod_cast h.below
  have hnum : 0 < num := by
    have hquotient : (0 : ℚ) < num / den := (mul_pos (by linarith) hpos).trans hlow
    exact_mod_cast (div_pos_iff_of_pos_right (by positivity)).mp hquotient
  have hunit := exponentFor_spec hnum hden
  have hsize : (num / den : ℚ) < 2 ^ 53 * 2 ^ q := hhigh.trans_le (by gcongr; linarith)
  unfold ofRatio
  rw [if_neg hnum.ne']
  dsimp only
  by_cases habove : q = minExponent ∨ 2 ^ 52 * 2 ^ q ≤ (num / den : ℚ)
  · obtain hexponent : exponentFor num den = q := hunit.unique ⟨h.least, hsize, habove⟩
    rw [hexponent, divideToEven_inUnits_of_near hden hlow hhigh, Nat.pow_eq, if_neg h.below.ne]
    exact if_neg h.most.not_gt
  · -- The quotient is just below a power of two, and is rounded up to it in the unit below.
    rw [not_or, not_le] at habove
    obtain rfl : m = 2 ^ 52 := by
      have hle := h.above.resolve_left habove.1
      have : (m - 1 / 2 : ℚ) < 2 ^ 52 := (mul_lt_mul_iff_left₀ hpos).mp (hlow.trans habove.2)
      have : (m : ℚ) < 2 ^ 52 + 1 := by linarith
      have : m < 2 ^ 52 + 1 := by exact_mod_cast this
      omega
    have hhalf : (2 : ℚ) ^ q = 2 * 2 ^ (q - 1) := by rw [← zpow_one_add₀ two_ne_zero, add_sub_cancel]
    have hlow' := hpower rfl
    rw [hhalf] at hlow' habove
    have hexponent : exponentFor num den = q - 1 := by
      refine hunit.unique ⟨?_, ?_, .inr ?_⟩
      · have := h.least
        omega
      · linarith
      · push_cast at hlow'
        linarith
    have hnear : divideToEven (inUnits num den (q - 1)).1 (inUnits num den (q - 1)).2 = 2 ^ 53 := by
      refine divideToEven_inUnits_of_near hden ?_ ?_
      · push_cast at hlow' ⊢
        linarith
      · push_cast
        linarith
    rw [hexponent, hnear, Nat.pow_eq, if_pos rfl, sub_add_cancel]
    exact if_neg h.most.not_gt

end Bailiff.Binary64

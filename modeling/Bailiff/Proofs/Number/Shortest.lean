-- SUMMARY: Seventeen digits suffice, so the shortest decimal of a number reads back as that number.
import Bailiff.Proofs.Number.Notation
import Bailiff.Proofs.Number.Rounding
import Bailiff.Proofs.Number.Whole
import Mathlib.Tactic.Qify

/-!
# Shortest decimals

A decimal is rounded by its value and its magnitude (`Decimal.toBinary64_congr`). The grid of seventeen digits is
finer than the numbers lie, so it holds a decimal that reads back as the number (`Binary64.isSome_onGrid?`), and the
search for the shortest one succeeds (`Binary64.toBinary64_shortest`).
-/

namespace Bailiff

variable {s : Bool} {m n k num den : Nat} {q place top : Int} {d d' : Decimal} {x : Binary64}

/-! ## Digits -/

theorem length_toDigits_mul (hn : n ≠ 0) (k : Nat) :
    (Nat.toDigits 10 (n * 10 ^ k)).length = (Nat.toDigits 10 n).length + k := by
  induction k with
  | zero => simp
  | succ k ih =>
    have hpos : 0 < n * 10 ^ k := by positivity
    have happend := Nat.toDigits_append_toDigits (d := 0) (by decide : 1 < 10) hpos (by decide)
    rw [pow_succ, ← Nat.mul_assoc, Nat.mul_comm _ 10, ← Nat.add_zero (10 * _), ← happend, List.length_append, ih]
    rfl

/-- As many digits as a natural has, so many tens does it take to pass it. -/
theorem pow_length_toDigits (hn : n ≠ 0) :
    10 ^ ((Nat.toDigits 10 n).length - 1) ≤ n ∧ n < 10 ^ (Nat.toDigits 10 n).length := by
  have hpos := Nat.length_toDigits_pos (b := 10) (n := n)
  refine ⟨?_, (Nat.length_toDigits_le_iff (by decide) hpos).mp (Nat.le_refl _)⟩
  rcases Nat.eq_zero_or_pos ((Nat.toDigits 10 n).length - 1) with hzero | hmore
  · rw [hzero]
    exact Nat.one_le_iff_ne_zero.mpr hn
  · by_contra hlt
    have := (Nat.length_toDigits_le_iff (b := 10) (by decide) hmore).mpr (not_le.mp hlt)
    omega

/-! ## Decimals -/

namespace Decimal

/-- The rational that a decimal is. -/
def value (d : Decimal) : ℚ := d.digits * 10 ^ d.exponent

/-- The power of ten just above a decimal. -/
def magnitude (d : Decimal) : Int := (Nat.toDigits 10 d.digits).length + d.exponent

/-- A decimal as a quotient. -/
def ratio (d : Decimal) : Nat × Nat :=
  if 0 ≤ d.exponent then (d.digits * 10 ^ d.exponent.natAbs, 1) else (d.digits, 10 ^ d.exponent.natAbs)

theorem ratio_pos (d : Decimal) : 0 < d.ratio.2 := by
  unfold ratio
  split <;> positivity

theorem ratio_eq (d : Decimal) : (d.ratio.1 / d.ratio.2 : ℚ) = d.value := by
  unfold ratio value
  split
  next h =>
    rw [Nat.cast_one, div_one, Nat.cast_mul, Nat.cast_pow, Nat.cast_ofNat, ← zpow_natCast, Int.natAbs_of_nonneg h]
  next h =>
    have hexponent : d.exponent = -(d.exponent.natAbs : Int) := by omega
    rw [hexponent, zpow_neg, zpow_natCast, Int.natAbs_neg, Int.natAbs_natCast, Nat.cast_pow, Nat.cast_ofNat]
    rfl

theorem toBinary64_eq (hd : d.digits ≠ 0) (s : Bool) :
    d.toBinary64 s = if 400 < d.magnitude then .infinite s else if d.magnitude < -400 then .ofRatio s 0 1
      else .ofRatio s d.ratio.1 d.ratio.2 := by
  unfold toBinary64 ratio
  rw [if_neg hd, magnitude]
  split
  · rfl
  split
  · rfl
  split <;> rfl

/-- Decimals of one value are rounded alike. -/
theorem toBinary64_congr (hd : d.digits ≠ 0) (hd' : d'.digits ≠ 0) (hmagnitude : d.magnitude = d'.magnitude)
    (hvalue : d.value = d'.value) (s : Bool) : d.toBinary64 s = d'.toBinary64 s := by
  rw [toBinary64_eq hd, toBinary64_eq hd', hmagnitude]
  congr 2
  exact Binary64.ofRatio_congr d.ratio_pos d'.ratio_pos (by rw [ratio_eq, ratio_eq, hvalue]) s

/-- Zeros behind the digits may go into the exponent. -/
theorem toBinary64_mul (hn : n ≠ 0) (k : Nat) (e : Int) (s : Bool) :
    toBinary64 s ⟨n * 10 ^ k, e⟩ = toBinary64 s ⟨n, e + k⟩ := by
  refine toBinary64_congr (Nat.mul_ne_zero hn (by positivity)) hn ?_ ?_ s
  · simp only [magnitude, length_toDigits_mul hn]
    omega
  · simp only [value]
    rw [zpow_add₀ (by norm_num), zpow_natCast]
    push_cast
    ring

theorem toBinary64_stripZeros (fuel : Nat) (d : Decimal) (s : Bool) :
    (d.stripZeros fuel).toBinary64 s = d.toBinary64 s := by
  induction fuel generalizing d with
  | zero => rfl
  | succ fuel ih =>
    rw [stripZeros]
    split
    next h =>
      have hdigits : d.digits = d.digits / 10 * 10 ^ 1 := by omega
      rw [ih, ← Nat.cast_one, ← toBinary64_mul (by omega) 1, ← hdigits]
    next => rfl

end Decimal

namespace Binary64

/-! ## The size of a number -/

theorem decimalPlace_spec (hnum : num ≠ 0) (hden : den ≠ 0) :
    (10 : ℚ) ^ (decimalPlace num den - 1) ≤ num / den ∧ (num / den : ℚ) < 10 ^ decimalPlace num den := by
  obtain ⟨hnumlow, hnumhigh⟩ := pow_length_toDigits hnum
  obtain ⟨hdenlow, hdenhigh⟩ := pow_length_toDigits hden
  have hnumpos := Nat.length_toDigits_pos (b := 10) (n := num)
  have hdenpos := Nat.length_toDigits_pos (b := 10) (n := den)
  have hpos : (0 : ℚ) < den := by positivity
  qify at hnumlow hnumhigh hdenlow hdenhigh
  unfold decimalPlace
  dsimp only
  generalize (Nat.toDigits 10 num).length = w at hnumlow hnumhigh hnumpos ⊢
  generalize (Nat.toDigits 10 den).length = w' at hdenlow hdenhigh hdenpos ⊢
  have hbelow : (num / den : ℚ) < 10 ^ ((w : Int) - w' + 1) := by
    rw [div_lt_iff₀ hpos]
    calc (num : ℚ) < 10 ^ w := hnumhigh
      _ = 10 ^ ((w : Int) - w' + 1) * 10 ^ (w' - 1) := by
        rw [← zpow_natCast, ← zpow_natCast, ← zpow_add₀ (by norm_num)]
        congr 1
        omega
      _ ≤ 10 ^ ((w : Int) - w' + 1) * den := by gcongr
  have habove : (10 : ℚ) ^ ((w : Int) - w' - 1) ≤ num / den := by
    rw [le_div_iff₀ hpos]
    calc (10 : ℚ) ^ ((w : Int) - w' - 1) * den ≤ 10 ^ ((w : Int) - w' - 1) * 10 ^ w' := by gcongr
      _ = 10 ^ (w - 1) := by
        rw [← zpow_natCast, ← zpow_natCast, ← zpow_add₀ (by norm_num)]
        congr 1
        omega
      _ ≤ num := hnumlow
  generalize (w : Int) - w' = k at hbelow habove ⊢
  have hreached : (if 0 ≤ k then den * Nat.pow 10 k.natAbs ≤ num else den ≤ num * Nat.pow 10 k.natAbs)
      ↔ (10 : ℚ) ^ k ≤ num / den := by
    rw [le_div_iff₀ hpos, Nat.pow_eq]
    split
    next h =>
      obtain ⟨i, rfl⟩ := Int.eq_ofNat_of_zero_le h
      rw [zpow_natCast, Int.natAbs_natCast, Nat.mul_comm]
      norm_cast
    next h =>
      obtain ⟨i, hi⟩ := Int.eq_ofNat_of_zero_le (show 0 ≤ -k by omega)
      obtain rfl : k = -(i : Int) := by omega
      rw [zpow_neg, zpow_natCast, Int.natAbs_neg, Int.natAbs_natCast, inv_mul_le_iff₀ (by positivity), mul_comm]
      norm_cast
  simp only [hreached]
  split
  next h => exact ⟨by rwa [add_sub_cancel_right], hbelow⟩
  next h => exact ⟨habove, not_le.mp h⟩

theorem two_pow_lt_ten_pow (hk : k ≠ 0) : (2 : ℚ) ^ (3 * k) < 10 ^ k := by
  rw [pow_mul]
  exact pow_lt_pow_left₀ (by norm_num) (by norm_num) hk

/-- The finite numbers lie far within the range of the decimals that are formed. -/
theorem IsCanonical.bounds (h : IsCanonical m q) (hm : 0 < m) :
    (10 : ℚ) ^ (-358 : Int) < m * 2 ^ q ∧ (m * 2 ^ q : ℚ) < 10 ^ (342 : Int) := by
  have hm' : (1 : ℚ) ≤ m := by exact_mod_cast hm
  have hbelow : (m : ℚ) ≤ 2 ^ 53 := by exact_mod_cast h.below.le
  constructor
  · calc (10 : ℚ) ^ (-358 : Int) < 2 ^ (-1074 : Int) :=
          inv_strictAnti₀ (by positivity) (two_pow_lt_ten_pow (k := 358) (by decide))
      _ ≤ 2 ^ q := zpow_le_zpow_right₀ one_le_two h.least
      _ ≤ m * 2 ^ q := le_mul_of_one_le_left (by positivity) hm'
  · calc (m * 2 ^ q : ℚ) ≤ 2 ^ 53 * 2 ^ (971 : Int) :=
          mul_le_mul hbelow (zpow_le_zpow_right₀ one_le_two h.most) (by positivity) (by positivity)
      _ = 2 ^ 1024 := (pow_add 2 53 971).symm
      _ ≤ 2 ^ (3 * 342) := pow_le_pow_right₀ one_le_two (by decide)
      _ < 10 ^ 342 := two_pow_lt_ten_pow (by decide)

/-! ## The grid of seventeen digits -/

/-- A decimal of the grid that is nearest to a number reads back as it. -/
theorem toBinary64_of_near (h : IsCanonical m q) (hm : 0 < m) (hlow : (10 : ℚ) ^ 16 * 10 ^ place ≤ m * 2 ^ q)
    (hhigh : (m * 2 ^ q : ℚ) < 10 ^ 17 * 10 ^ place) (hbelow : (m * 2 ^ q - 10 ^ place / 2 : ℚ) ≤ k * 10 ^ place)
    (habove : (k * 10 ^ place : ℚ) ≤ m * 2 ^ q + 10 ^ place / 2) (s : Bool) :
    k ≠ 0 ∧ Decimal.toBinary64 s ⟨k, place⟩ = finite s m q := by
  have hgrid : (0 : ℚ) < 10 ^ place := by positivity
  have hunit : (0 : ℚ) < 2 ^ q := by positivity
  -- There are seventeen digits, or eighteen after a carry.
  have hmany : 10 ^ 16 ≤ k := by
    have : (10 : ℚ) ^ 16 - 1 / 2 ≤ k := le_of_mul_le_mul_right (by linarith) hgrid
    have : (10 : ℚ) ^ 16 < k + 1 := by linarith
    have : 10 ^ 16 < k + 1 := by exact_mod_cast this
    omega
  have hfew : k < 10 ^ 18 := by
    have : (k : ℚ) < 10 ^ 17 + 1 := lt_of_mul_lt_mul_right (by linarith) hgrid.le
    have : k < 10 ^ 17 + 1 := by exact_mod_cast this
    omega
  have hlength : 16 < (Nat.toDigits 10 k).length ∧ (Nat.toDigits 10 k).length ≤ 18 := by
    rw [Nat.length_toDigits_le_iff (by decide) (by decide), ← not_le,
      Nat.length_toDigits_le_iff (by decide) (by decide)]
    omega
  have hplace : -358 < 17 + place ∧ 16 + place < 342 := by
    obtain ⟨hleast, hmost⟩ := h.bounds hm
    constructor
    · refine (zpow_lt_zpow_iff_right₀ (by norm_num : (1 : ℚ) < 10)).mp ?_
      rw [zpow_add₀ (by norm_num)]
      exact hleast.trans hhigh
    · refine (zpow_lt_zpow_iff_right₀ (by norm_num : (1 : ℚ) < 10)).mp ?_
      rw [zpow_add₀ (by norm_num)]
      exact hlow.trans_lt hmost
  have hne : k ≠ 0 := by omega
  refine ⟨hne, ?_⟩
  rw [Decimal.toBinary64_eq hne, Decimal.magnitude, if_neg (by dsimp only; omega), if_neg (by dsimp only; omega)]
  have hm' : (m : ℚ) ≤ 2 ^ 53 := by exact_mod_cast h.below.le
  have hfine : (m * 2 ^ q : ℚ) ≤ 2 ^ 53 * 2 ^ q := by gcongr
  refine ofRatio_of_near h hm (Decimal.ratio_pos _) ?_ ?_ ?_ s
  · rw [Decimal.ratio_eq, Decimal.value]
    dsimp only
    linarith
  · rw [Decimal.ratio_eq, Decimal.value]
    dsimp only
    linarith
  · rintro rfl
    rw [Decimal.ratio_eq, Decimal.value]
    push_cast at hlow hbelow ⊢
    linarith

/-- A quotient counted on a grid. -/
def onGrid (num den : Nat) (place : Int) : Nat × Nat :=
  if 0 ≤ place then (num, den * Nat.pow 10 place.natAbs) else (num * Nat.pow 10 place.natAbs, den)

theorem onGrid_spec (num : Nat) (hden : 0 < den) (place : Int) : 0 < (onGrid num den place).2
    ∧ ((onGrid num den place).1 : ℚ) / (onGrid num den place).2 * 10 ^ place = num / den := by
  have hpos : (0 : ℚ) < den := by positivity
  unfold onGrid
  split
  next h =>
    obtain ⟨i, rfl⟩ := Int.eq_ofNat_of_zero_le h
    rw [Int.natAbs_natCast, Nat.pow_eq, zpow_natCast]
    refine ⟨by positivity, ?_⟩
    push_cast
    field_simp
  next h =>
    obtain ⟨i, rfl⟩ : ∃ i : Nat, place = -i := ⟨place.natAbs, by omega⟩
    refine ⟨hden, ?_⟩
    rw [Int.natAbs_neg, Int.natAbs_natCast, Nat.pow_eq, zpow_neg, zpow_natCast]
    push_cast
    field_simp

/-- A decimal of a grid reads back as the number, and is not zero. -/
theorem onGrid?_eq_some (h : onGrid? x num den place = some d) : d.digits ≠ 0 ∧ d.toBinary64 x.isSigned = x := by
  unfold onGrid? at h
  rw [← onGrid] at h
  dsimp only at h
  split at h
  next hbelow habove =>
    split at h
    · exact Option.some.inj h ▸ of_decide_eq_true hbelow
    · exact Option.some.inj h ▸ of_decide_eq_true habove
  next hbelow _ => exact Option.some.inj h ▸ of_decide_eq_true hbelow
  next _ habove => exact Option.some.inj h ▸ of_decide_eq_true habove
  next => cases h

/-- Where the grid holds no decimal for a number, neither neighbour reads back as it. -/
theorem onGrid?_eq_none (h : onGrid? x num den place = none) {k : Nat}
    (hk : k = (onGrid num den place).1 / (onGrid num den place).2
      ∨ k = (onGrid num den place).1 / (onGrid num den place).2 + 1) :
    ¬(k ≠ 0 ∧ Decimal.toBinary64 x.isSigned ⟨k, place⟩ = x) := by
  unfold onGrid? at h
  rw [← onGrid] at h
  dsimp only at h
  split at h
  next => split at h <;> cases h
  next => cases h
  next => cases h
  next hbelow habove =>
    rcases hk with rfl | rfl
    · exact of_decide_eq_false hbelow
    · exact of_decide_eq_false habove

/-- One of the two decimals around a number reads back as it. -/
theorem onGrid?_ne_none (h : IsCanonical m q) (hm : 0 < m) (hden : 0 < den) (hvalue : (num / den : ℚ) = m * 2 ^ q)
    (hlow : (10 : ℚ) ^ 16 * 10 ^ place ≤ m * 2 ^ q) (hhigh : (m * 2 ^ q : ℚ) < 10 ^ 17 * 10 ^ place) (s : Bool) :
    onGrid? (finite s m q) num den place ≠ none := by
  intro hnone
  have hneither := @onGrid?_eq_none _ _ _ _ hnone
  obtain ⟨hcount, hgrid⟩ := onGrid_spec num hden place
  rw [hvalue] at hgrid
  generalize onGrid num den place = r at hneither hcount hgrid
  have hpos : (0 : ℚ) < 10 ^ place := by positivity
  have hfloor : ((r.1 / r.2 : Nat) : ℚ) ≤ r.1 / r.2 := Nat.cast_div_le
  have hceil : (r.1 / r.2 : ℚ) < (r.1 / r.2 : Nat) + 1 := by
    rw [div_lt_iff₀ (by exact_mod_cast hcount)]
    exact_mod_cast Nat.lt_mul_of_div_lt (Nat.lt_succ_self _) hcount
  generalize (r.1 / r.2 : ℚ) = w at hgrid hfloor hceil
  generalize r.1 / r.2 = k at hneither hfloor hceil
  have hnear {c : Nat} (hbelow : w - 1 / 2 ≤ c) (habove : c ≤ w + 1 / 2) :
      c ≠ 0 ∧ Decimal.toBinary64 s ⟨c, place⟩ = finite s m q := by
    refine toBinary64_of_near h hm hlow hhigh ?_ ?_ s
    · rw [← hgrid]
      linarith [mul_le_mul_of_nonneg_right hbelow hpos.le]
    · rw [← hgrid]
      linarith [mul_le_mul_of_nonneg_right habove hpos.le]
  rcases le_total w (k + 1 / 2) with hle | hle
  · exact hneither (.inl rfl) (hnear (by linarith) (by linarith))
  · exact hneither (.inr rfl) (hnear (by push_cast; linarith) (by push_cast; linarith))

/-! ## The search -/

theorem shortestFrom_spec (count fuel : Nat) (h : onGrid? x num den (top - (count + fuel : Nat)) ≠ none) :
    (shortestFrom x num den top count (fuel + 1)).digits ≠ 0
      ∧ (shortestFrom x num den top count (fuel + 1)).toBinary64 x.isSigned = x := by
  induction fuel generalizing count with
  | zero =>
    rw [shortestFrom]
    split
    next hgrid => exact onGrid?_eq_some hgrid
    next hgrid => exact absurd hgrid h
  | succ fuel ih =>
    rw [shortestFrom]
    split
    next hgrid => exact onGrid?_eq_some hgrid
    next =>
      refine ih (count + 1) ?_
      rwa [Nat.add_right_comm, Nat.add_assoc]

theorem shortest_eq (s : Bool) (m : Nat) (q : Int) :
    shortest s m q = (shortestFrom (finite s m q) (ratio m q).1 (ratio m q).2
      (decimalPlace (ratio m q).1 (ratio m q).2) 1 17).stripZeros 20 := rfl

/-- The shortest decimal of a number reads back as it. -/
theorem toBinary64_shortest (h : IsCanonical m q) (hm : 0 < m) (s : Bool) :
    (shortest s m q).toBinary64 s = finite s m q := by
  obtain ⟨hden, hnum⟩ := ratio_eq m q
  rw [shortest_eq, Decimal.toBinary64_stripZeros]
  generalize (ratio m q).1 = num at hnum ⊢
  generalize (ratio m q).2 = den at hden hnum ⊢
  have hvalue : (num / den : ℚ) = m * 2 ^ q := by rw [hnum, mul_div_cancel_right₀ _ (by positivity)]
  have hpos : (0 : ℚ) < num := by rw [hnum]; positivity
  obtain ⟨hlow, hhigh⟩ := decimalPlace_spec (Nat.cast_pos.mp hpos).ne' hden.ne'
  rw [hvalue] at hlow hhigh
  generalize decimalPlace num den = top at hlow hhigh ⊢
  have hscale (i : Nat) : (10 : ℚ) ^ i * 10 ^ (top - 17) = 10 ^ (top - (17 - i)) := by
    rw [← zpow_natCast, ← zpow_add₀ (by norm_num)]
    congr 1
    omega
  refine (shortestFrom_spec (x := finite s m q) 1 16 ?_).2
  refine onGrid?_ne_none h hm hden hvalue ?_ ?_ s
  · rw [show top - (1 + 16 : Nat) = top - 17 from rfl, hscale 16]
    exact hlow
  · rw [show top - (1 + 16 : Nat) = top - 17 from rfl, hscale 17]
    simpa using hhigh

/-! ## Written numbers -/

/-- A decimal that can be written: not zero, or just zero. -/
def IsWritten (d : Decimal) : Prop := d.digits ≠ 0 ∨ d = ⟨0, 0⟩

theorem isWritten_stripZeros (h : IsWritten d) (fuel : Nat) : IsWritten (d.stripZeros fuel) := by
  induction fuel generalizing d with
  | zero => exact h
  | succ fuel ih =>
    rw [Decimal.stripZeros]
    split
    next hzero => exact ih (.inl (by dsimp only; omega))
    next => exact h

theorem isWritten_shortestFrom (x : Binary64) (num den : Nat) (top : Int) (count fuel : Nat) :
    IsWritten (shortestFrom x num den top count fuel) := by
  induction fuel generalizing count with
  | zero =>
    rw [shortestFrom]
    rcases eq_or_ne (num / den) 0 with hzero | hne
    · exact .inr (by rw [hzero])
    · exact .inl hne
  | succ fuel ih =>
    rw [shortestFrom]
    split
    next hgrid => exact .inl (onGrid?_eq_some hgrid).1
    next => exact ih (count + 1)

theorem isWritten_shortest (s : Bool) (m : Nat) (q : Int) : IsWritten (shortest s m q) :=
  isWritten_stripZeros (isWritten_shortestFrom ..) 20

theorem isNumeral_of_isWritten (h : IsWritten d) : ∃ d', IsNumeral (layout d).toList d' := by
  rcases h with h | rfl
  · rcases isNumeral_layout h with hnumeral | ⟨_, -, -, hnumeral⟩
    · exact ⟨_, hnumeral⟩
    · exact ⟨_, hnumeral⟩
  · exact ⟨_, isNumeral_toDigits 0⟩

end Binary64

end Bailiff

-- SUMMARY: The number of workers that settings can have is a natural from one on.
import Bailiff.Fleet.Run
import Bailiff.Proofs.Number.Whole

/-!
# The number of workers

Settings that can be loaded ask for a number of workers that is a natural from one on: a number of jobs is checked
to be one, and one less than what can run at once is one, or else one worker is asked for.
-/

namespace Bailiff

variable {x : Binary64} {s : Bool} {m n : Nat} {q : Int}

namespace Binary64

theorem value_neg (m : Nat) (q : Int) : (finite true m q).value = -(finite false m q).value := by
  simp [value, signed]

/-- One less than a natural is a natural. -/
theorem sub_one_of_natural (hvalue : (finite s m q).value = n) (hpos : 0 < n) (hn : n ≤ largest) :
    ∃ s' m' q' k, finite s m q - 1 = finite s' m' q' ∧ (finite s' m' q').value = (k : Nat) := by
  obtain ⟨m₁, q₁, hone, hvalue₁⟩ := ofNat_eq Nat.one_pos (by norm_num : 1 < 2 ^ 53)
  have hsub : finite s m q - 1 = (finite s m q).add (finite true m₁ q₁) :=
    congrArg (fun y => (finite s m q).add (neg y)) hone
  have hsum : (((aligned s m q true m₁ q₁).1 + (aligned s m q true m₁ q₁).2 : Int) : ℚ) * 2 ^ min q q₁
      = (n - 1 : Nat) := by
    rw [Int.cast_add, add_mul, aligned_fst, aligned_snd, hvalue, value_neg, hvalue₁, Nat.cast_sub hpos]
    ring
  rw [hsub]
  unfold add
  dsimp only
  generalize (aligned s m q true m₁ q₁).1 + (aligned s m q true m₁ q₁).2 = sum at hsum ⊢
  have hunit : (0 : ℚ) < 2 ^ min q q₁ := by positivity
  split
  · exact ⟨_, _, _, 0, rfl, by simp [value, signed]⟩
  next hne =>
    have hnonneg : 0 ≤ sum := by
      have hcast : (0 : ℚ) ≤ sum := nonneg_of_mul_nonneg_left (hsum ▸ Nat.cast_nonneg _) hunit
      exact_mod_cast hcast
    obtain ⟨k, rfl⟩ := Int.eq_ofNat_of_zero_le hnonneg
    have hsigned : decide ((k : Int) < 0) = false := decide_eq_false hnonneg.not_gt
    obtain ⟨num, den, hden, hscaled, hquotient⟩ := ofScaled_value false k (min q q₁)
    rw [Int.cast_natCast] at hsum
    rw [hsum, div_eq_iff (Nat.cast_ne_zero.mpr hden.ne')] at hquotient
    have hless : 0 < n - 1 := by
      refine Nat.pos_of_ne_zero fun hzero => hne ?_
      rw [hzero, Nat.cast_zero, mul_eq_zero] at hsum
      exact_mod_cast hsum.resolve_right hunit.ne'
    obtain ⟨m', q', k', hratio, -, hvalue'⟩ :=
      ofRatio_of_le_largest hden (by exact_mod_cast hquotient) hless ((Nat.sub_le n 1).trans hn)
    rw [hsigned, Int.natAbs_natCast, hscaled, hratio]
    exact ⟨_, _, _, k', rfl, hvalue'⟩

end Binary64

open Binary64

/-! ## Numbers of jobs -/

/-- A number of jobs that makes sense is a natural from one on. -/
theorem isJobCount_iff : isJobCount x = true ↔ ∃ n : Nat, 0 < n ∧ x.toInt? = some (n : Int) := by
  cases x with
  | nan | infinite => simp [isJobCount, isInteger, toInt?]
  | finite s m q =>
    have hzero : ((finite s m q).atMost 0 = true) ↔ (finite s m q).value ≤ 0 := by
      rw [show (0 : Binary64) = finite false 0 minExponent from rfl, atMost_iff]
      simp [value, signed]
    rw [isJobCount, isInteger, Bool.and_eq_true, Option.isSome_iff_exists, Bool.not_eq_true', ← Bool.not_eq_true, hzero]
    constructor
    · rintro ⟨⟨n, hn⟩, hpos⟩
      rw [toInt?_eq_some_iff.mp hn, not_le, Int.cast_pos] at hpos
      obtain ⟨k, rfl⟩ := Int.eq_ofNat_of_zero_le hpos.le
      exact ⟨k, by exact_mod_cast hpos, hn⟩
    · rintro ⟨n, hpos, hn⟩
      rw [toInt?_eq_some_iff.mp hn]
      exact ⟨⟨n, hn⟩, by simpa using hpos.ne'⟩

/-- As many stores are made as a number of jobs says. -/
theorem storeCount_of_toInt? (h : x.toInt? = some (n : Int)) : Fleet.storeCount x = n := by
  rw [Fleet.storeCount, truncate?_of_toInt? h]
  rfl

/-- One less than what can run at once, but at least one, is a number of jobs. -/
theorem isJobCount_defaultWorkerCount (h : x.toInt? = some (n : Int)) (hpos : 0 < n) (hn : n ≤ largest) :
    isJobCount (defaultWorkerCount x) = true := by
  cases x with
  | nan | infinite => cases h
  | finite s m q =>
    rw [toInt?_eq_some_iff, Int.cast_natCast] at h
    obtain ⟨s', m', q', k, hless, hvalue⟩ := sub_one_of_natural h hpos hn
    have hmaximum : defaultWorkerCount (finite s m q) = 1
        ∨ defaultWorkerCount (finite s m q) = finite s' m' q' ∧ (finite s' m' q').less 1 = false := by
      have hzero : (1 : Binary64).isZero = false := by decide +kernel
      have hnan : (1 : Binary64).isNaN = false := by decide +kernel
      rw [defaultWorkerCount, hless, maximum, hzero, hnan, Bool.and_false]
      cases (finite s' m' q').less 1 with
      | true => exact .inl rfl
      | false => exact .inr ⟨rfl, rfl⟩
    rcases hmaximum with hone | ⟨hsame, hmore⟩
    · rw [hone]
      decide +kernel
    · have hfrom : ¬(finite s' m' q').value < (1 : Nat) := by
        rw [← less_ofNat_iff Nat.one_pos (by norm_num)]
        exact Bool.not_eq_true _ ▸ hmore
      rw [hvalue, Nat.cast_lt, not_lt] at hfrom
      rw [hsame, isJobCount_iff]
      exact ⟨k, hfrom, toInt?_eq_some_iff.mpr (by simpa using hvalue)⟩

/-- Settings that can be loaded ask for a natural number of workers from one on. -/
theorem RunSettings.workerCount_of_load {places : Places} {env : Value} {jobs : Option Binary64}
    {workersFile : Option String} {parallelism : Binary64} {run : RunSettings}
    (h : RunSettings.load places env jobs workersFile parallelism = .ok run)
    (hparallelism : parallelism.toInt? = some (n : Int)) (hpos : 0 < n) (hn : n ≤ largest) :
    ∃ count : Nat, 0 < count ∧ run.workerCount.toInt? = some (count : Int) := by
  rw [← isJobCount_iff]
  unfold RunSettings.load at h
  split at h
  · cases h
  · split at h
    · split at h
      next hjobs =>
        cases h
        exact hjobs
      · cases h
    · cases h
      exact isJobCount_defaultWorkerCount hparallelism hpos hn

end Bailiff

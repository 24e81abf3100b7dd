-- SUMMARY: How long timers last.
import Bailiff.Judge.Run
import Bailiff.Proofs.Number.Value

/-!
# Timers

A timer within the range of timers lasts the time it is given, and any other one lasts a millisecond
(`Judge.timerDelay`). For timers of whole milliseconds this can be said in natural numbers
(`Judge.timerDelay_ofNat`).
-/

namespace Bailiff

namespace Judge

open Binary64 (finite)

/-- A timer of a number within the range has just that delay. -/
theorem timerDelay_of_range {s : Bool} {m : Nat} {q : Int} (hlow : 1 ≤ (finite s m q).value)
    (hhigh : (finite s m q).value ≤ maxDelay) : timerDelay (finite s m q) = finite s m q := by
  have hless : (finite s m q).less 1 = false := by
    rw [Bool.eq_false_iff]
    intro h
    have := (Binary64.less_ofNat_iff Nat.one_pos (by norm_num)).mp h
    norm_num at this
    linarith
  have hmore : (Binary64.ofNat maxDelay).less (finite s m q) = false := by
    rw [Bool.eq_false_iff]
    intro h
    have := (Binary64.ofNat_less_iff (by norm_num [maxDelay]) (by norm_num [maxDelay])).mp h
    linarith
  simp [timerDelay, Binary64.isNaN, hless, hmore]

theorem value_one : (1 : Binary64).value = 1 := by
  have h := Binary64.value_ofNat (n := 1) Nat.one_pos (by norm_num)
  rwa [Nat.cast_one] at h

theorem value_le_one {ms : Binary64} (h : ms.isNaN = true ∨ ms.less 1 = true) : ms.value ≤ 1 := by
  cases ms with
  | nan | infinite => exact zero_le_one
  | finite s m q =>
    rcases h with h | h
    · cases h
    · have hless := (Binary64.less_ofNat_iff Nat.one_pos (by norm_num)).mp h
      exact_mod_cast hless.le

/-- No timer is shorter than one millisecond. -/
theorem timerDelay_finite (ms : Binary64) :
    ∃ s m q, timerDelay ms = finite s m q ∧ 1 ≤ (finite s m q).value := by
  obtain ⟨m₁, q₁, hone, hvalue⟩ := Binary64.ofNat_eq Nat.one_pos (by norm_num)
  change (1 : Binary64) = _ at hone
  obtain ⟨_, _, hmax, -⟩ :=
    Binary64.ofNat_eq (n := maxDelay) (by norm_num [maxDelay]) (by norm_num [maxDelay])
  unfold timerDelay
  split
  · exact ⟨false, m₁, q₁, hone, by simp [hvalue]⟩
  next h =>
    cases ms with
    | nan => simp [Binary64.isNaN] at h
    | infinite negative =>
      cases negative <;> simp [Binary64.less, Binary64.compare?, hmax, hone] at h
    | finite s m q =>
      refine ⟨s, m, q, rfl, ?_⟩
      by_contra hlow
      apply h
      have hless : (finite s m q).less 1 = true :=
        (Binary64.less_ofNat_iff Nat.one_pos (by norm_num)).mpr (by push_cast; linarith)
      simp [hless]

theorem one_le_timerDelay (ms : Binary64) : 1 ≤ (timerDelay ms).value := by
  obtain ⟨s, m, q, heq, hvalue⟩ := timerDelay_finite ms
  rwa [heq]

theorem timerDelay_less_iff {n : Nat} (hpos : 0 < n) (hn : n < 2 ^ 53) (ms : Binary64) :
    (timerDelay ms).less (.ofNat n) = true ↔ (timerDelay ms).value < n := by
  obtain ⟨s, m, q, heq, -⟩ := timerDelay_finite ms
  rw [heq, Binary64.less_ofNat_iff hpos hn]

/-! ## Whole milliseconds -/

/-- The delay that a timer of whole milliseconds really has. -/
def wholeDelay (ms : Nat) : Nat := if ms = 0 ∨ maxDelay < ms then 1 else ms

theorem timerDelay_ofNat {ms : Nat} (h : ms < 2 ^ 53) : timerDelay (.ofNat ms) = .ofNat (wholeDelay ms) := by
  have hmax : 0 < maxDelay := by norm_num [maxDelay]
  rcases Nat.eq_zero_or_pos ms with rfl | hpos
  · decide +kernel
  · obtain ⟨m, q, heq, hvalue⟩ := Binary64.ofNat_eq hpos h
    by_cases hlong : maxDelay < ms
    · have hless : (Binary64.ofNat maxDelay).less (finite false m q) = true := by
        rw [Binary64.ofNat_less_iff hmax (by norm_num [maxDelay]), hvalue]
        exact_mod_cast hlong
      rw [wholeDelay, if_pos (.inr hlong), heq, timerDelay, hless, Bool.or_true, if_pos rfl]
      rfl
    · rw [wholeDelay, if_neg (by simp [hpos.ne', hlong]), heq]
      refine timerDelay_of_range ?_ ?_ <;> rw [hvalue]
      · exact_mod_cast hpos
      · exact_mod_cast not_lt.mp hlong

end Judge

end Bailiff

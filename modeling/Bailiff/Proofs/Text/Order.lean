-- SUMMARY: The orders of texts by 16-bit units and by code points: no two texts share either, and sorting puts them in order.
import Bailiff.Text.Basic
import Mathlib.Data.List.Lex
import Mathlib.Data.List.Sort

/-!
# Order of texts

Lists of numbers are compared as words are (`Text.beforeOrSame_iff`). The units of a text tell which text it is
(`Text.units_injective`), because a surrogate never is the unit of a character; its code points do so too
(`Text.points_injective`). What is sorted by a key of which no two are the same comes in strictly increasing order
(`Text.mergeSort_increasing`), and so do texts by their units (`Text.sortByUnits_increasing`).
-/

namespace Bailiff.Text

theorem beforeOrSame_iff (as bs : List Nat) : beforeOrSame as bs = true ↔ as ≤ bs := by
  rw [← not_lt]
  fun_induction beforeOrSame as bs with
  | case1 bs => simp
  | case2 a as => simp
  | case3 a as b bs ih =>
    rw [Bool.or_eq_true, Bool.and_eq_true, decide_eq_true_eq, decide_eq_true_eq, ih, List.cons_lt_cons_iff]
    rcases Nat.lt_trichotomy a b with hlt | rfl | hlt
    · simp [hlt, Nat.lt_asymm hlt, hlt.ne']
    · simp
    · simp [hlt, Nat.lt_asymm hlt, hlt.ne']

/-! ## Units -/

/-- Which character begins a list of units, and what follows it. -/
theorem unitsOfChar_append_inj {c d : Char} {as bs : List Nat}
    (h : unitsOfChar c ++ as = unitsOfChar d ++ bs) : c = d ∧ as = bs := by
  have hvalid (c : Char) : c.toNat < 0xD800 ∨ 0xDFFF < c.toNat ∧ c.toNat < 0x110000 := c.valid
  have hc := hvalid c
  have hd := hvalid d
  have hinj (hn : c.toNat = d.toNat) : c = d := Char.toNat_inj.mp hn
  unfold unitsOfChar at h
  dsimp only at h
  split at h <;> split at h
  · simp only [List.cons_append, List.nil_append, List.cons.injEq] at h
    exact ⟨hinj h.1, h.2⟩
  · simp only [List.cons_append, List.nil_append, List.cons.injEq] at h
    omega
  · simp only [List.cons_append, List.nil_append, List.cons.injEq] at h
    omega
  · simp only [List.cons_append, List.nil_append, List.cons.injEq] at h
    exact ⟨hinj (by omega), h.2.2⟩

theorem unitsOfChar_ne_nil (c : Char) : unitsOfChar c ≠ [] := by
  unfold unitsOfChar
  dsimp only
  split <;> simp

theorem flatMap_unitsOfChar_injective : Function.Injective fun cs : List Char => cs.flatMap unitsOfChar := by
  intro cs
  induction cs with
  | nil =>
    intro ds h
    cases ds with
    | nil => rfl
    | cons d ds => simp [unitsOfChar_ne_nil] at h
  | cons c cs ih =>
    intro ds h
    cases ds with
    | nil => simp [unitsOfChar_ne_nil] at h
    | cons d ds =>
      obtain ⟨rfl, hrest⟩ := unitsOfChar_append_inj (by simpa only [List.flatMap_cons] using h)
      rw [ih hrest]

/-- No two texts have the same units. -/
theorem units_injective : Function.Injective units := by
  intro s t h
  exact String.toList_inj.mp (flatMap_unitsOfChar_injective h)

/-! ## Code points -/

/-- The code points of a text. -/
def points (s : String) : List Nat := s.toList.map Char.toNat

theorem points_injective : Function.Injective points := by
  intro s t h
  exact String.toList_inj.mp ((List.map_injective_iff.mpr fun _ _ => Char.toNat_inj.mp) h)

/-! ## Sorting -/

variable {α : Type} {key : α → List Nat} {xs : List α}

/-- Whatever is sorted by a key of which no two are the same is sorted so that each comes before the next. -/
theorem mergeSort_increasing (h : (xs.map key).Nodup) :
    (xs.mergeSort fun a b => beforeOrSame (key a) (key b)).Pairwise fun a b => key a < key b := by
  have hsorted : (xs.mergeSort fun a b => beforeOrSame (key a) (key b)).Pairwise
      fun a b => beforeOrSame (key a) (key b) = true := by
    refine List.pairwise_mergeSort ?_ ?_ xs
    · intro a b c hab hbc
      rw [beforeOrSame_iff] at *
      exact hab.trans hbc
    · intro a b
      rw [Bool.or_eq_true, beforeOrSame_iff, beforeOrSame_iff]
      exact le_total _ _
  have hnodup := ((List.mergeSort_perm xs fun a b => beforeOrSame (key a) (key b)).map key).nodup_iff.mpr h
  refine (hsorted.and (List.pairwise_map.mp hnodup)).imp fun hle => ?_
  exact lt_of_le_of_ne ((beforeOrSame_iff ..).mp hle.1) hle.2

theorem sortByUnits_perm (texts : List String) : (sortByUnits texts).Perm texts := List.mergeSort_perm ..

/-- Texts of which no two are the same are sorted so that each comes before the next. -/
theorem sortByUnits_increasing {texts : List String} (h : texts.Nodup) :
    (sortByUnits texts).Pairwise fun s t => units s < units t :=
  mergeSort_increasing (h.map units_injective)

theorem nodup_of_increasing {texts : List String} (h : texts.Pairwise fun s t => units s < units t) : texts.Nodup :=
  h.imp fun hlt => ne_of_apply_ne units hlt.ne

end Bailiff.Text

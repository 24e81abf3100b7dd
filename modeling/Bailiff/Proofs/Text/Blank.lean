-- SUMMARY: What is left of a text without the blanks around it.
import Bailiff.Text.Basic
import Mathlib.Data.List.TakeWhile

/-!
# Blanks

Characters are some blanks, a word that neither begins nor ends with one, and more blanks, in one way only
(`trims_iff`): what is left without the blanks at both ends is that word.
-/

namespace Bailiff

variable {cs before word after : List Char}

/-- Neither the first nor the last character is a blank. -/
structure Unpadded (word : List Char) : Prop where
  first : ∀ c ∈ word.head?, isBlank c = false
  last : ∀ c ∈ word.getLast?, isBlank c = false

theorem unpadded_iff {word : List Char} : Unpadded word
    ↔ word.head?.all (fun c => !isBlank c) = true ∧ word.getLast?.all (fun c => !isBlank c) = true := by
  simp only [Option.all_eq_true, Bool.not_eq_true']
  exact ⟨fun h => ⟨h.first, h.last⟩, fun h => ⟨h.1, h.2⟩⟩

instance (word : List Char) : Decidable (Unpadded word) := decidable_of_iff _ unpadded_iff.symm

/-- Characters, and the same without the blanks around them. -/
structure Trims (cs word : List Char) : Prop where
  padded : ∃ before after, cs = before ++ word ++ after ∧ (∀ c ∈ before, isBlank c = true)
    ∧ ∀ c ∈ after, isBlank c = true
  unpadded : Unpadded word

theorem dropWhile_blanks (hbefore : ∀ c ∈ before, isBlank c = true) (hfirst : ∀ c ∈ cs.head?, isBlank c = false) :
    (before ++ cs).dropWhile isBlank = cs := by
  rw [List.dropWhile_append_of_pos hbefore]
  cases cs with
  | nil => rfl
  | cons c rest => exact List.dropWhile_cons_of_neg (by simp [hfirst c rfl])

theorem first_dropWhile (cs : List Char) : ∀ c ∈ (cs.dropWhile isBlank).head?, isBlank c = false := by
  intro c hc
  have hfirst := List.head?_dropWhile_not isBlank cs
  rw [Option.mem_def.mp hc] at hfirst
  exact hfirst

theorem dropBlankEnd_blanks (hafter : ∀ c ∈ after, isBlank c = true) (hlast : ∀ c ∈ word.getLast?, isBlank c = false) :
    dropBlankEnd (word ++ after) = word := by
  have hreverse : (after.reverse ++ word.reverse).dropWhile isBlank = word.reverse := by
    apply dropWhile_blanks
    · exact fun c hc => hafter c (List.mem_reverse.mp hc)
    · rwa [List.head?_reverse]
  rw [dropBlankEnd, List.reverse_append, hreverse, List.reverse_reverse]

theorem Trims.stripBlanks_eq (h : Trims cs word) : stripBlanks cs = word := by
  obtain ⟨⟨before, after, rfl, hbefore, hafter⟩, hfirst, hlast⟩ := h
  cases word with
  | nil =>
    -- Then all of it goes with the blanks at the beginning.
    have hall : ((before ++ after) ++ []).dropWhile isBlank = [] := by
      apply dropWhile_blanks
      · exact List.forall_mem_append.mpr ⟨hbefore, hafter⟩
      · exact fun c hc => by cases hc
    rw [List.append_nil] at hall ⊢
    rw [stripBlanks, hall]
    rfl
  | cons c rest =>
    rw [stripBlanks, List.append_assoc, dropWhile_blanks hbefore, dropBlankEnd_blanks hafter hlast]
    exact hfirst

theorem exists_dropBlankEnd (cs : List Char) :
    ∃ after, cs = dropBlankEnd cs ++ after ∧ ∀ c ∈ after, isBlank c = true := by
  refine ⟨(cs.reverse.takeWhile isBlank).reverse, ?_, fun c hc => ?_⟩
  · rw [dropBlankEnd, ← List.reverse_append, List.takeWhile_append_dropWhile, List.reverse_reverse]
  · exact List.mem_takeWhile_imp (List.mem_reverse.mp hc)

theorem trims_stripBlanks (cs : List Char) : Trims cs (stripBlanks cs) := by
  obtain ⟨after, hsplit, hafter⟩ := exists_dropBlankEnd (cs.dropWhile isBlank)
  constructor
  case padded =>
    refine ⟨cs.takeWhile isBlank, after, ?_, fun c hc => List.mem_takeWhile_imp hc, hafter⟩
    rw [List.append_assoc, stripBlanks, ← hsplit, List.takeWhile_append_dropWhile]
  case unpadded =>
    constructor
    case first =>
      intro c hc
      apply first_dropWhile cs c
      rw [hsplit, ← stripBlanks, List.head?_append, hc]
      rfl
    case last =>
      intro c hc
      rw [stripBlanks, dropBlankEnd, List.getLast?_reverse] at hc
      exact first_dropWhile _ c hc

/-- What is left without the blanks at both ends. -/
theorem trims_iff : Trims cs word ↔ stripBlanks cs = word := by
  constructor
  · exact Trims.stripBlanks_eq
  · rintro rfl
    exact trims_stripBlanks cs

/-- Nothing is left just of blanks. -/
theorem stripBlanks_eq_nil_iff : stripBlanks cs = [] ↔ ∀ c ∈ cs, isBlank c = true := by
  rw [← trims_iff]
  constructor
  · rintro ⟨⟨before, after, rfl, hbefore, hafter⟩, -⟩
    simpa [or_imp, forall_and] using ⟨hbefore, hafter⟩
  · intro h
    exact ⟨⟨cs, [], by simp, h, by simp⟩, by simp, by simp⟩

end Bailiff

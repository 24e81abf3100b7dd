-- SUMMARY: What stands in joined lists, and when the parts can be told from them.
import Mathlib.Data.List.Basic

/-!
# Joined lists

What stands in a joined list stands in the separator or in a part (`mem_joined`), and the other way round for parts
(`mem_joined_of_mem`). When no part has the first element of the separator, and the separator does not have it again,
the joined list falls apart there (`splitOn_joined`), so no other parts give the same (`joined_injective`).
-/

namespace Bailiff

variable {α : Type} {sep : List α} {parts : List (List α)} {x : α}

theorem mem_joined (h : x ∈ sep.intercalate parts) : x ∈ sep ∨ ∃ part ∈ parts, x ∈ part := by
  induction parts with
  | nil => cases h
  | cons first parts ih =>
    cases parts with
    | nil => exact .inr ⟨first, List.mem_cons_self, by rwa [List.intercalate_singleton] at h⟩
    | cons next parts =>
      rw [List.intercalate_cons_cons, List.mem_append, List.mem_append] at h
      rcases h with (hfirst | hsep) | hlater
      · exact .inr ⟨first, List.mem_cons_self, hfirst⟩
      · exact .inl hsep
      · exact (ih hlater).imp_right fun ⟨part, hpart, hx⟩ => ⟨part, List.mem_cons_of_mem _ hpart, hx⟩

theorem mem_joined_of_mem {part : List α} (hpart : part ∈ parts) (hx : x ∈ part) : x ∈ sep.intercalate parts := by
  induction parts with
  | nil => cases hpart
  | cons first parts ih =>
    cases parts with
    | nil =>
      obtain rfl := List.mem_singleton.mp hpart
      rwa [List.intercalate_singleton]
    | cons next parts =>
      rw [List.intercalate_cons_cons, List.append_assoc, List.mem_append]
      rcases List.mem_cons.mp hpart with rfl | hlater
      · exact .inl hx
      · exact .inr (List.mem_append_right _ (ih hlater))

/-! ## Taking apart -/

theorem splitOn_joined [DecidableEq α] {first : List α} (hsep : x ∉ sep) (h : ∀ part ∈ first :: parts, x ∉ part) :
    ((x :: sep).intercalate (first :: parts)).splitOn x = first :: parts.map (sep ++ ·) := by
  have hfirst : x ∉ first := h first List.mem_cons_self
  induction parts generalizing first with
  | nil =>
    have hwhole := List.splitOn_intercalate x h (List.cons_ne_nil _ _)
    simpa only [List.intercalate_singleton, List.map_nil] using hwhole
  | cons next parts ih =>
    -- The rest of the separator counts as the beginning of the next part.
    have hjoined : (x :: sep).intercalate (first :: next :: parts)
        = first ++ x :: (x :: sep).intercalate ((sep ++ next) :: parts) := by
      cases parts <;> simp [List.intercalate_cons_cons]
    have hnext : x ∉ sep ++ next := by
      rw [List.mem_append, not_or]
      exact ⟨hsep, h next (by simp)⟩
    have hrest : ∀ part ∈ (sep ++ next) :: parts, x ∉ part :=
      List.forall_mem_cons.mpr ⟨hnext, fun part hpart => h part (by simp [hpart])⟩
    rw [hjoined, List.splitOn_append_cons_self_of_not_mem hfirst, ih hrest hnext, List.map_cons]

theorem joined_injective [DecidableEq α] {others : List (List α)} (hsep : x ∉ sep) (hparts : ∀ part ∈ parts, x ∉ part)
    (hothers : ∀ part ∈ others, x ∉ part) (hne : parts ≠ []) (hne' : others ≠ [])
    (h : (x :: sep).intercalate parts = (x :: sep).intercalate others) : parts = others := by
  obtain ⟨first, parts, rfl⟩ := List.exists_cons_of_ne_nil hne
  obtain ⟨first', others, rfl⟩ := List.exists_cons_of_ne_nil hne'
  have hsplit := congrArg (List.splitOn x) h
  rw [splitOn_joined hsep hparts, splitOn_joined hsep hothers, List.cons.injEq] at hsplit
  rw [hsplit.1, List.map_injective_iff.mpr (List.append_right_injective sep) hsplit.2]

end Bailiff

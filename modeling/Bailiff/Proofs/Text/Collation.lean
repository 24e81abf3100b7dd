-- SUMMARY: The order of texts by the octets of their encoding is that by code points, and without surrogates that by units.
import Bailiff.Proofs.Text.Order
import Bailiff.Proofs.Text.Utf8

/-!
# Collation

Texts are put in order by their 16-bit units, by their code points or by the octets of their encoding. A character
with a smaller code point has an encoding that comes first, whatever follows it (`Utf8.inOrder_codes`), so octets and
code points give all texts the same order (`Text.octets_lt_iff`). Units give it to texts without characters above
`U+FFFF` (`Text.units_eq_points`), and to no others: a surrogate comes before the characters from `U+E000` on.
-/

namespace Bailiff

/-! ## Octets of code points -/

namespace Utf8

/-- Of two numbers, the smaller one has the octets that come first, whatever follows. -/
def InOrder (written : Nat → List Nat) : Prop := ∀ n m, n < m → ∀ as bs, written n ++ as < written m ++ bs

theorem inOrder_head (b : Nat) : InOrder fun n => [b + n] := by
  intro n m h as bs
  exact List.cons_lt_cons_iff.mpr (.inl (Nat.add_lt_add_left h b))

/-- Six bits more, in one more octet. -/
theorem InOrder.more {written : Nat → List Nat} (h : InOrder written) :
    InOrder fun n => written (n / 64) ++ [0x80 + n % 64] := by
  intro n m hlt as bs
  simp only [List.append_assoc, List.singleton_append]
  rcases Nat.lt_or_ge (n / 64) (m / 64) with hbefore | hsame
  · exact h _ _ hbefore _ _
  · obtain heq : n / 64 = m / 64 := by omega
    rw [heq]
    exact List.append_left_lt (List.cons_lt_cons_iff.mpr (.inl (by omega)))

theorem inOrder_codes : InOrder codes := by
  intro n m h as bs
  have hone := inOrder_head 0 n m h as bs
  have htwo := (inOrder_head 0xC0).more n m h as bs
  have hthree := (inOrder_head 0xE0).more.more n m h as bs
  have hfour := (inOrder_head 0xF0).more.more.more n m h as bs
  simp only [Nat.zero_add, Nat.div_div_eq_div_mul, Nat.reduceMul, List.cons_append, List.nil_append]
    at hone htwo hthree hfour
  -- Encodings of different lengths differ in their first octets.
  have hfirst {a b : Nat} (hlt : a < b) (as bs : List Nat) : a :: as < b :: bs := List.cons_lt_cons_iff.mpr (.inl hlt)
  unfold codes
  split_ifs <;> first | assumption | exact hfirst (by omega) _ _

end Utf8

/-! ## Orders of texts -/

namespace Text

variable {s t : String}

/-- The octets of a text. -/
def octets (s : String) : List Nat := (Utf8.encode s).map UInt8.toNat

theorem octets_eq (s : String) : octets s = (points s).flatMap Utf8.codes := by
  rw [octets, Utf8.encode, Utf8.toUTF8_toList, List.map_flatMap, points, List.flatMap_map]
  exact List.flatMap_congr fun c _ => Utf8.toNat_encodeChar c

theorem flatMap_codes_lt {ns ms : List Nat} (h : ns < ms) : ns.flatMap Utf8.codes < ms.flatMap Utf8.codes := by
  induction ns generalizing ms with
  | nil =>
    cases ms with
    | nil => exact absurd h (lt_irrefl _)
    | cons m ms =>
      have hne : Utf8.codes m ≠ [] := by
        unfold Utf8.codes
        split_ifs <;> exact List.cons_ne_nil _ _
      obtain ⟨a, as, hcons⟩ := List.exists_cons_of_ne_nil (List.append_ne_nil_of_left_ne_nil hne (ms.flatMap Utf8.codes))
      rw [List.flatMap_cons, hcons]
      exact List.nil_lt_cons a as
  | cons n ns ih =>
    cases ms with
    | nil => exact absurd h (List.not_lt_nil _)
    | cons m ms =>
      rcases List.cons_lt_cons_iff.mp h with hlt | ⟨rfl, hrest⟩
      · exact Utf8.inOrder_codes n m hlt _ _
      · exact List.append_left_lt (ih hrest)

/-- Texts are in the same order by their octets as by their code points. -/
theorem octets_lt_iff : octets s < octets t ↔ points s < points t := by
  have hlt {s t : String} (h : points s < points t) : octets s < octets t := by
    rw [octets_eq, octets_eq]
    exact flatMap_codes_lt h
  refine ⟨fun h => ?_, hlt⟩
  rcases lt_trichotomy (points s) (points t) with hbefore | hsame | hafter
  · exact hbefore
  · exact absurd (points_injective hsame ▸ h) (lt_irrefl _)
  · exact absurd (hlt hafter) (lt_asymm h)

/-- No character of the text has a code point above `U+FFFF`. -/
def IsBasic (s : String) : Prop := ∀ c ∈ s.toList, c.toNat < 0x10000

instance (s : String) : Decidable (IsBasic s) := List.decidableBAll (fun c : Char => c.toNat < 0x10000) s.toList

theorem units_eq_points (h : IsBasic s) : units s = points s := by
  rw [units, points, ← List.flatMap_pure_eq_map]
  refine List.flatMap_congr fun c hc => ?_
  exact if_pos (h c hc)

/-- A character above `U+FFFF` comes after this one by its code point, but before it by its first surrogate. -/
example : points "～" < points "😀" ∧ units "😀" < units "～" := by decide

end Text

end Bailiff

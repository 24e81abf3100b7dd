-- SUMMARY: The notation of numbers: digits, a fraction and an exponent, as they are written and as they are read.
import Bailiff.Number.Reading
import Mathlib.Data.List.TakeWhile
import Mathlib.Data.Nat.Digits.Defs

/-!
# Numerals

A numeral is digits without a needless zero in front, perhaps with a fraction and an exponent (`IsNumeral`). Decimals
and integers are written as numerals (`Binary64.isNumeral_layout`, `isNumeral_toDigits`), and a numeral is read as
the decimal that it denotes (`IsNumeral.unsignedDecimal?_eq`).
-/

namespace Bailiff

/-! ## Digits -/

/-- All characters are decimal digits. -/
def AreDigits (cs : List Char) : Prop := ∀ c ∈ cs, c.isDigit = true

/-- A zero, or digits that do not begin with one. -/
def IsWhole (cs : List Char) : Prop := cs = ['0'] ∨ ∃ c rest, cs = c :: rest ∧ c ≠ '0' ∧ AreDigits cs

variable {cs ds : List Char} {d : Decimal} {n : Nat}

theorem AreDigits.append (h : AreDigits cs) (h' : AreDigits ds) : AreDigits (cs ++ ds) :=
  List.forall_mem_append.mpr ⟨h, h'⟩

theorem areDigits_nil : AreDigits [] := fun _ hc => absurd hc List.not_mem_nil

theorem areDigits_replicate (n : Nat) : AreDigits (List.replicate n '0') := by
  intro c hc
  rw [List.eq_of_mem_replicate hc]
  rfl

theorem areDigits_toDigits (n : Nat) : AreDigits (Nat.toDigits 10 n) := fun _ hc =>
  Nat.isDigit_of_mem_toDigits (by decide) (by decide) hc

/-- Zeros in front of a natural leave digits. -/
theorem areDigits_padded (k n : Nat) : AreDigits (List.replicate k '0' ++ Nat.toDigits 10 n) :=
  (areDigits_replicate k).append (areDigits_toDigits n)

theorem IsWhole.areDigits (h : IsWhole cs) : AreDigits cs := by
  rcases h with rfl | ⟨-, -, -, -, h⟩
  · exact areDigits_replicate 1
  · exact h

theorem IsWhole.ne_nil (h : IsWhole cs) : cs ≠ [] := by
  rcases h with rfl | ⟨c, rest, rfl, -⟩
  · exact List.cons_ne_nil _ _
  · exact List.cons_ne_nil _ _

theorem exists_toDigits_eq (hn : n ≠ 0) : ∃ c rest, Nat.toDigits 10 n = c :: rest ∧ c ≠ '0' := by
  induction n using Nat.strong_induction_on with
  | _ n ih =>
    rw [Nat.toDigits_eq_if (by decide)]
    split
    next hsmall =>
      refine ⟨n.digitChar, [], rfl, ?_⟩
      have hall : ∀ k < 10, k ≠ 0 → k.digitChar ≠ '0' := by decide
      exact hall n hsmall hn
    next hlarge =>
      obtain ⟨c, rest, heq, hc⟩ := ih (n / 10) (by omega) (by omega)
      exact ⟨c, rest ++ [(n % 10).digitChar], by rw [heq, List.cons_append], hc⟩

theorem isWhole_toDigits (n : Nat) : IsWhole (Nat.toDigits 10 n) := by
  rcases eq_or_ne n 0 with rfl | hn
  · exact .inl (Nat.toDigits_zero ..)
  · obtain ⟨c, rest, heq, hc⟩ := exists_toDigits_eq hn
    exact .inr ⟨c, rest, heq, hc, areDigits_toDigits n⟩

/-! ## Values of digits -/

theorem decimalValue_append (acc : Nat) (cs ds : List Char) :
    decimalValue acc (cs ++ ds) = decimalValue (decimalValue acc cs) ds :=
  List.foldl_append ..

theorem decimalValue_eq (acc : Nat) (cs : List Char) : decimalValue acc cs = Nat.ofDigitChars 10 cs acc := by
  rw [Nat.ofDigitChars_eq_foldl, decimalValue]
  congr 1
  funext n c
  rw [Nat.mul_comm]
  rfl

theorem decimalValue_toDigits (n : Nat) : decimalValue 0 (Nat.toDigits 10 n) = n := by
  rw [decimalValue_eq, Nat.ofDigitChars_ten_toDigits]

theorem decimalValue_replicate (acc n : Nat) : decimalValue acc (List.replicate n '0') = acc * 10 ^ n := by
  rw [decimalValue_eq, Nat.ofDigitChars_replicate_zero, Nat.mul_comm]

/-! ## Numerals -/

/-- The point and the digits behind it, if there are any. -/
def fraction (part : List Char) : List Char := if part.isEmpty then [] else '.' :: part

/-- An exponent with its sign, or none. -/
inductive IsMark : List Char → Int → Prop where
  | none : IsMark [] 0
  | up {ds : List Char} (ne_nil : ds ≠ []) (digits : AreDigits ds) :
      IsMark ('e' :: '+' :: ds) (decimalValue 0 ds)
  | down {ds : List Char} (ne_nil : ds ≠ []) (digits : AreDigits ds) :
      IsMark ('e' :: '-' :: ds) (-(decimalValue 0 ds : Int))

/-- A text denotes a decimal. -/
inductive IsNumeral : List Char → Decimal → Prop where
  | intro {whole part mark : List Char} {e : Int} (whole_digits : IsWhole whole) (part_digits : AreDigits part)
      (isMark : IsMark mark e) :
      IsNumeral (whole ++ (fraction part ++ mark)) ⟨decimalValue 0 (whole ++ part), e - part.length⟩

/-- A natural is written as a numeral. -/
theorem isNumeral_toDigits (n : Nat) : IsNumeral (Nat.toDigits 10 n) ⟨n, 0⟩ := by
  have h := IsNumeral.intro (isWhole_toDigits n) areDigits_nil .none
  simpa [fraction, decimalValue_toDigits] using h

theorem isNumeral_natural (n : Nat) : IsNumeral (String.ofList (Nat.toDigits 10 n)).toList ⟨n, 0⟩ := by
  rw [String.toList_ofList]
  exact isNumeral_toDigits n

/-- Zeros behind a natural multiply it. -/
theorem isNumeral_zeros (hn : n ≠ 0) (k : Nat) :
    IsNumeral (Nat.toDigits 10 n ++ List.replicate k '0') ⟨n * 10 ^ k, 0⟩ := by
  obtain ⟨c, rest, heq, hc⟩ := exists_toDigits_eq hn
  have hwhole : IsWhole (Nat.toDigits 10 n ++ List.replicate k '0') :=
    .inr ⟨c, rest ++ List.replicate k '0', by rw [heq, List.cons_append], hc,
      (areDigits_toDigits n).append (areDigits_replicate k)⟩
  have h := IsNumeral.intro hwhole areDigits_nil .none
  simpa [fraction, decimalValue_append, decimalValue_toDigits, decimalValue_replicate] using h

theorem fraction_of_ne_nil (h : cs ≠ []) : fraction cs = '.' :: cs := by
  cases cs with
  | nil => exact absurd rfl h
  | cons c rest => rfl

/-- A point among the digits. -/
theorem isNumeral_point (hn : n ≠ 0) {p : Nat} (hpos : 0 < p) (hlt : p < (Nat.toDigits 10 n).length) :
    IsNumeral ((Nat.toDigits 10 n).take p ++ '.' :: (Nat.toDigits 10 n).drop p)
      ⟨n, p - (Nat.toDigits 10 n).length⟩ := by
  have hdigits := areDigits_toDigits n
  have hlength : ((Nat.toDigits 10 n).drop p).length = (Nat.toDigits 10 n).length - p := List.length_drop
  have hpart : (Nat.toDigits 10 n).drop p ≠ [] := by
    rw [← List.length_pos_iff, hlength]
    omega
  have hwhole : IsWhole ((Nat.toDigits 10 n).take p) := by
    obtain ⟨c, rest, heq, hc⟩ := exists_toDigits_eq hn
    obtain ⟨i, rfl⟩ : ∃ i, p = i + 1 := ⟨p - 1, by omega⟩
    refine .inr ⟨c, rest.take i, by rw [heq, List.take_succ_cons], hc, fun x hx => ?_⟩
    exact hdigits x (List.mem_of_mem_take hx)
  have hdrop : AreDigits ((Nat.toDigits 10 n).drop p) := fun x hx => hdigits x (List.mem_of_mem_drop hx)
  have h := IsNumeral.intro hwhole hdrop .none
  have hexponent : (0 : Int) - (((Nat.toDigits 10 n).drop p).length : Nat) = p - (Nat.toDigits 10 n).length := by omega
  rwa [fraction_of_ne_nil hpart, List.append_nil, List.take_append_drop, decimalValue_toDigits, hexponent] at h

/-- Zeros between the point and the digits. -/
theorem isNumeral_small (n k : Nat) : IsNumeral ('0' :: '.' :: List.replicate k '0' ++ Nat.toDigits 10 n)
    ⟨n, -(k + (Nat.toDigits 10 n).length : Int)⟩ := by
  have hdigits := areDigits_padded k n
  have hpart : List.replicate k '0' ++ Nat.toDigits 10 n ≠ [] :=
    List.append_ne_nil_of_right_ne_nil _ Nat.toDigits_ne_nil
  have h := IsNumeral.intro (.inl rfl) hdigits .none
  have hzero : decimalValue 0 ['0'] = 0 := rfl
  have hexponent : (0 : Int) - ((List.replicate k '0' ++ Nat.toDigits 10 n).length : Nat)
      = -(k + (Nat.toDigits 10 n).length : Int) := by
    rw [List.length_append, List.length_replicate]
    omega
  rw [fraction_of_ne_nil hpart, List.append_nil, decimalValue_append, decimalValue_append, hzero,
    decimalValue_replicate, Nat.zero_mul, decimalValue_toDigits, hexponent] at h
  exact h

/-- An exponent behind the digits, the first of which stands before the point. -/
theorem isNumeral_scientific (hn : n ≠ 0) {c : Char} {rest : List Char} (heq : Nat.toDigits 10 n = c :: rest)
    {mark : List Char} {e : Int} (hmark : IsMark mark e) :
    IsNumeral (c :: (fraction rest ++ mark)) ⟨n, e - rest.length⟩ := by
  have hdigits := areDigits_toDigits n
  obtain ⟨c', rest', heq', hc⟩ := exists_toDigits_eq hn
  rw [heq] at hdigits heq'
  obtain ⟨rfl, rfl⟩ := List.cons.inj heq'
  obtain ⟨hfirst, hrest⟩ := List.forall_mem_cons.mp hdigits
  have hwhole : IsWhole [c] := .inr ⟨c, [], rfl, hc, List.forall_mem_singleton.mpr hfirst⟩
  have h := IsNumeral.intro hwhole hrest hmark
  rwa [List.singleton_append, List.singleton_append, ← heq, decimalValue_toDigits] at h

namespace Binary64

theorem isMark_exponent (e : Int) :
    IsMark ((if e < 0 then ['e', '-'] else ['e', '+']) ++ Nat.toDigits 10 e.natAbs) e := by
  have hdigits := areDigits_toDigits e.natAbs
  split
  next h =>
    have hmark := IsMark.down Nat.toDigits_ne_nil hdigits
    have he : -(e.natAbs : Int) = e := by omega
    rwa [decimalValue_toDigits, he] at hmark
  next h =>
    have hmark := IsMark.up Nat.toDigits_ne_nil hdigits
    have he : (e.natAbs : Int) = e := by omega
    rwa [decimalValue_toDigits, he] at hmark

/-- A decimal is written as a numeral that denotes it. One that is a natural has the zeros behind its digits. -/
theorem isNumeral_layout (hd : d.digits ≠ 0) :
    IsNumeral (layout d).toList d
      ∨ ∃ k : Nat, d.exponent = k ∧ k ≤ 21 ∧ IsNumeral (layout d).toList ⟨d.digits * 10 ^ k, 0⟩ := by
  obtain ⟨digits, exponent⟩ := d
  dsimp only at hd ⊢
  have hpos := List.length_pos_iff.mpr (Nat.toDigits_ne_nil (b := 10) (n := digits))
  unfold layout
  dsimp only
  split
  next h =>
    obtain ⟨k, rfl⟩ := Int.eq_ofNat_of_zero_le (show 0 ≤ exponent by omega)
    refine .inr ⟨k, rfl, by omega, ?_⟩
    rw [String.toList_ofList, Int.natAbs_natCast]
    exact isNumeral_zeros hd k
  split
  next _ h =>
    obtain ⟨p, hp⟩ := Int.eq_ofNat_of_zero_le h.1.le
    obtain rfl : exponent = p - (Nat.toDigits 10 digits).length := by omega
    rw [hp, String.toList_ofList, Int.natAbs_natCast]
    exact .inl (isNumeral_point hd (by omega) (by omega))
  split
  next _ _ h =>
    obtain ⟨k, hk⟩ := Int.eq_ofNat_of_zero_le (Int.neg_nonneg.mpr h.2)
    obtain rfl : exponent = -(k + (Nat.toDigits 10 digits).length : Int) := by omega
    have habs : (((Nat.toDigits 10 digits).length : Int) + -(k + (Nat.toDigits 10 digits).length)).natAbs = k := by
      omega
    rw [habs, String.toList_ofList]
    exact .inl (isNumeral_small digits k)
  next =>
    have hmark := isMark_exponent ((Nat.toDigits 10 digits).length + exponent - 1)
    generalize (if ((Nat.toDigits 10 digits).length : Int) + exponent - 1 < 0 then ['e', '-'] else ['e', '+'])
      ++ Nat.toDigits 10 ((Nat.toDigits 10 digits).length + exponent - 1 : Int).natAbs = mark at hmark ⊢
    refine .inl ?_
    split
    next heq => exact absurd heq Nat.toDigits_ne_nil
    next c heq =>
      have h := isNumeral_scientific hd heq hmark
      have hexponent : (([c] : List Char).length : Int) + exponent - 1 - (([] : List Char).length : Nat)
          = exponent := by
        simp
      rw [heq, hexponent] at h
      rw [String.toList_ofList]
      exact h
    next c rest hrest heq =>
      have h := isNumeral_scientific hd heq hmark
      have hexponent : ((c :: rest).length : Int) + exponent - 1 - rest.length = exponent := by
        rw [List.length_cons]
        omega
      rw [heq, hexponent, fraction_of_ne_nil hrest] at h
      rw [String.toList_ofList]
      exact h

/-! ## Reading -/

end Binary64

/-- A character that is no digit, or none, comes next. -/
def StopsDigits (cs : List Char) : Prop := ∀ c ∈ cs.head?, c.isDigit = false

theorem stopsDigits_nil : StopsDigits [] := fun _ hc => absurd hc (by simp)

theorem takeWhile_digits (hcs : AreDigits cs) (hds : StopsDigits ds) :
    (cs ++ ds).takeWhile Char.isDigit = cs ∧ (cs ++ ds).dropWhile Char.isDigit = ds := by
  rw [List.takeWhile_append_of_pos hcs, List.dropWhile_append_of_pos hcs]
  cases ds with
  | nil => simp
  | cons c rest => simp [hds c rfl]

theorem IsMark.stopsDigits {mark : List Char} {e : Int} (h : IsMark mark e) : StopsDigits mark := by
  cases h with
  | none => exact stopsDigits_nil
  | up | down =>
    intro c hc
    obtain rfl := Option.some.inj hc
    rfl

/-- An exponent is read as what it denotes. -/
theorem IsMark.exponentPart?_eq {mark : List Char} {e : Int} (h : IsMark mark e) : exponentPart? mark = some e := by
  cases h with
  | none => rfl
  | up ne_nil digits =>
    have hdigits := List.all_eq_true.mpr digits
    simp [exponentPart?, splitSign, ne_nil, hdigits]
  | down ne_nil digits =>
    have hdigits := List.all_eq_true.mpr digits
    simp [exponentPart?, splitSign, ne_nil, hdigits]

/-- Whole digits end at the point, at the exponent, or at the end. -/
theorem IsMark.stopsDigits_fraction {mark : List Char} {e : Int} (h : IsMark mark e) (part : List Char) :
    StopsDigits (fraction part ++ mark) := by
  cases part with
  | nil => exact h.stopsDigits
  | cons c rest =>
    intro c hc
    obtain rfl := Option.some.inj hc
    rfl

/-- Digits have no sign in front. -/
theorem splitSign_of_isDigit {c : Char} (hc : c.isDigit = true) (rest : List Char) :
    splitSign (c :: rest) = (false, c :: rest) := by
  unfold splitSign
  split
  next heq =>
    cases heq
    cases hc
  next heq =>
    cases heq
    cases hc
  next => rfl

/-- A numeral is read as the decimal that it denotes. -/
theorem IsNumeral.unsignedDecimal?_eq (h : IsNumeral cs d) : unsignedDecimal? cs = some d := by
  cases h with
  | @intro whole part mark e hwhole hpart hmark =>
    obtain ⟨htake, hdrop⟩ := takeWhile_digits hwhole.areDigits (hmark.stopsDigits_fraction part)
    have hempty : whole.isEmpty = false := List.isEmpty_eq_false_iff.mpr hwhole.ne_nil
    have hexponent := hmark.exponentPart?_eq
    unfold unsignedDecimal?
    rw [htake, hdrop]
    cases part with
    | nil =>
      -- The exponent does not begin like a fraction.
      rw [fraction, if_pos List.isEmpty_nil, List.nil_append]
      cases hmark <;> simp [hempty, hexponent]
    | cons c rest =>
      obtain ⟨htake', hdrop'⟩ := takeWhile_digits hpart hmark.stopsDigits
      rw [fraction_of_ne_nil (List.cons_ne_nil c rest), List.cons_append]
      simp only [htake', hdrop', hempty, hexponent, Bool.false_and, Bool.false_eq_true, if_false, Option.map_some]

end Bailiff

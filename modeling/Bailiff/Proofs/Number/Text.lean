-- SUMMARY: The text of a number is read as that number.
import Bailiff.Proofs.Number.Shortest
import Bailiff.Number.Reading

/-!
# Texts of numbers

A numeral is read by its decimal, with a sign and without (`Binary64.ofText_numeral`). So every number other than zero
is read from its text (`Binary64.ofText_text`), and both zeros are read as zero (`Binary64.same_ofText_text`).
-/

namespace Bailiff

variable {cs : List Char} {d : Decimal} {s : Bool} {m : Nat} {q n : Int} {x : Binary64}

/-! ## Blanks -/

theorem stripBlanks_of_notBlank (h : ∀ c ∈ cs, isBlank c = false) : stripBlanks cs = cs := by
  have hdrop {ds : List Char} (hds : ∀ c ∈ ds, isBlank c = false) : ds.dropWhile isBlank = ds := by
    cases ds with
    | nil => rfl
    | cons c rest => exact List.dropWhile_cons_of_neg (by simp [hds c List.mem_cons_self])
  rw [stripBlanks, dropBlankEnd, hdrop h, hdrop (fun c hc => h c (List.mem_reverse.mp hc)), List.reverse_reverse]

theorem isBlank_of_isDigit {c : Char} (h : c.isDigit = true) : isBlank c = false := by
  have hrange : 48 ≤ c.toNat ∧ c.toNat ≤ 57 := by
    simpa [Char.isDigit, UInt32.le_iff_toNat_le] using h
  simp only [isBlank, Bool.or_eq_false_iff, Bool.and_eq_false_iff, decide_eq_false_iff_not]
  omega

theorem IsMark.notBlank {mark : List Char} {e : Int} (h : IsMark mark e) : ∀ c ∈ mark, isBlank c = false := by
  cases h with
  | none => exact fun c hc => absurd hc List.not_mem_nil
  | up _ digits | down _ digits =>
    refine List.forall_mem_cons.mpr ⟨by decide, List.forall_mem_cons.mpr ⟨by decide, ?_⟩⟩
    exact fun c hc => isBlank_of_isDigit (digits c hc)

theorem IsNumeral.notBlank (h : IsNumeral cs d) : ∀ c ∈ cs, isBlank c = false := by
  cases h with
  | @intro whole part mark e hwhole hpart hmark =>
    have hfraction : ∀ c ∈ fraction part, isBlank c = false := by
      unfold fraction
      split
      · exact fun c hc => absurd hc List.not_mem_nil
      · exact List.forall_mem_cons.mpr ⟨by decide, fun c hc => isBlank_of_isDigit (hpart c hc)⟩
    refine List.forall_mem_append.mpr ⟨fun c hc => isBlank_of_isDigit (hwhole.areDigits c hc), ?_⟩
    exact List.forall_mem_append.mpr ⟨hfraction, hmark.notBlank⟩

/-! ## Numerals -/

/-- A numeral begins with a digit, and behind a zero comes a point, an exponent or nothing. -/
theorem IsNumeral.head (h : IsNumeral cs d) : (∃ c rest, cs = c :: rest ∧ c.isDigit = true)
    ∧ ∀ c rest, cs = '0' :: c :: rest → c = '.' ∨ c = 'e' := by
  cases h with
  | @intro whole part mark e hwhole hpart hmark =>
    constructor
    · obtain ⟨c, rest, rfl⟩ := List.exists_cons_of_ne_nil hwhole.ne_nil
      exact ⟨c, _, List.cons_append, hwhole.areDigits c List.mem_cons_self⟩
    · intro c rest heq
      rcases hwhole with rfl | ⟨c', rest', rfl, hc', -⟩
      · have hrest := (List.cons.inj heq).2
        cases part with
        | nil =>
          cases hmark with
          | none => cases hrest
          | up | down => exact .inr (List.cons.inj hrest).1.symm
        | cons => exact .inl (List.cons.inj hrest).1.symm
      · exact absurd (List.cons.inj heq).1 hc'

namespace Binary64

/-- A text that is not marked as hexadecimal, octal or binary is read as a decimal. -/
theorem ofText_eq_decimal (hne : cs ≠ []) (hblank : ∀ c ∈ cs, isBlank c = false)
    (hmark : ∀ c rest, cs = '0' :: c :: rest → c = '.' ∨ c = 'e') : ofText (String.ofList cs) = ofText.decimal cs := by
  unfold ofText
  rw [String.toList_ofList, stripBlanks_of_notBlank hblank]
  split
  next => exact absurd rfl hne
  next c rest =>
    rcases hmark c rest rfl with rfl | rfl <;> rfl
  next => rfl

/-- A numeral is read by the decimal that it denotes, with a sign and without. -/
theorem ofText_numeral (h : IsNumeral cs d) :
    ofText (String.ofList cs) = d.toBinary64 false ∧ ofText ("-" ++ String.ofList cs) = d.toBinary64 true := by
  obtain ⟨⟨c, rest, rfl, hc⟩, hmark⟩ := h.head
  have hinfinity : c :: rest ≠ "Infinity".toList := by
    rintro heq
    obtain rfl : c = 'I' := (List.cons.inj heq).1
    cases hc
  constructor
  · rw [ofText_eq_decimal (List.cons_ne_nil c rest) h.notBlank hmark, ofText.decimal,
      splitSign_of_isDigit hc]
    simp only [if_neg hinfinity, h.unsignedDecimal?_eq]
  · have hminus : "-" ++ String.ofList (c :: rest) = String.ofList ('-' :: c :: rest) :=
      String.toList_inj.mp (by simp [String.toList_append])
    have hblank : ∀ b ∈ '-' :: c :: rest, isBlank b = false := List.forall_mem_cons.mpr ⟨by decide, h.notBlank⟩
    rw [hminus, ofText_eq_decimal (List.cons_ne_nil _ _) hblank
      (fun _ _ heq => absurd (List.cons.inj heq).1 (by decide)), ofText.decimal, splitSign]
    simp only [if_neg hinfinity, h.unsignedDecimal?_eq]

theorem ofText_signed {text : String} (h : IsNumeral text.toList d) (s : Bool) :
    ofText (if s then "-" ++ text else text) = d.toBinary64 s := by
  have hread := ofText_numeral h
  rw [String.ofList_toList] at hread
  cases s with
  | false => exact hread.1
  | true => exact hread.2

/-! ## Numbers -/

/-- An integer with few digits is read exactly. -/
theorem toBinary64_integer (h : IsCanonical m q) (hm : 0 < m) {k : Nat} (hk : k ≤ maxExactInteger)
    (hvalue : (m * 2 ^ q : ℚ) = k) (s : Bool) : Decimal.toBinary64 s ⟨k, 0⟩ = finite s m q := by
  have hunit : (0 : ℚ) < 2 ^ q := by positivity
  have hne : k ≠ 0 := by
    rintro rfl
    exact absurd hvalue (by positivity)
  have hlength : (Nat.toDigits 10 k).length ≤ 16 :=
    (Nat.length_toDigits_le_iff (by decide) (by decide)).mpr (hk.trans_lt (by decide))
  have hratio : Decimal.ratio ⟨k, 0⟩ = (k, 1) := by simp [Decimal.ratio]
  rw [Decimal.toBinary64_eq hne, Decimal.magnitude, if_neg (by dsimp only; omega),
    if_neg (by dsimp only; omega), hratio]
  have hquotient : ((k : Nat) / (1 : Nat) : ℚ) = m * 2 ^ q := by rw [Nat.cast_one, div_one, hvalue]
  refine ofRatio_of_near h hm Nat.one_pos ?_ ?_ (fun _ => ?_) s
  · rw [hquotient]
    linarith
  · rw [hquotient]
    linarith
  · rw [hquotient]
    linarith

theorem digits_shortest (h : IsCanonical m q) (hm : 0 < m) (s : Bool) : (shortest s m q).digits ≠ 0 := by
  intro hzero
  have hread := toBinary64_shortest h hm s
  rw [Decimal.toBinary64, if_pos hzero] at hread
  cases hread
  exact absurd hm (Nat.lt_irrefl 0)

theorem ofText_layout (h : IsCanonical m q) (hm : 0 < m) (s : Bool) :
    ofText (if s then "-" ++ layout (shortest s m q) else layout (shortest s m q)) = finite s m q := by
  have hread := toBinary64_shortest h hm s
  have hdigits := digits_shortest h hm s
  generalize shortest s m q = d at hread hdigits
  obtain ⟨digits, exponent⟩ := d
  rcases isNumeral_layout hdigits with hnumeral | ⟨k, rfl, -, hnumeral⟩
  · rw [ofText_signed hnumeral, hread]
  · rw [ofText_signed hnumeral, Decimal.toBinary64_mul hdigits, zero_add, hread]

/-- The integer of a number has its sign and its size. -/
theorem toInt?_signed (hm : 0 < m) (h : (finite s m q).toInt? = some n) :
    decide (n < 0) = s ∧ (m * 2 ^ q : ℚ) = n.natAbs := by
  have hpos : (0 : ℚ) < m * 2 ^ q := by positivity
  have hvalue := toInt?_eq_some_iff.mp h
  rw [Nat.cast_natAbs, Int.cast_abs, ← hvalue, value]
  cases s with
  | false =>
    have hsigned : ((signed false m : Int) : ℚ) * 2 ^ q = m * 2 ^ q := by simp [signed]
    rw [value, hsigned] at hvalue
    rw [hsigned, abs_of_pos hpos, decide_eq_false_iff_not, not_lt]
    exact ⟨by exact_mod_cast (hvalue ▸ hpos).le, rfl⟩
  | true =>
    have hsigned : ((signed true m : Int) : ℚ) * 2 ^ q = -(m * 2 ^ q) := by simp [signed]
    rw [value, hsigned] at hvalue
    rw [hsigned, abs_neg, abs_of_pos hpos, decide_eq_true_eq]
    exact ⟨by exact_mod_cast (hvalue ▸ neg_neg_of_pos hpos : (n : ℚ) < 0), rfl⟩

/-- A number other than zero is read from its text. -/
theorem ofText_text (h : IsCanonical m q) (hm : 0 < m) (s : Bool) : ofText (finite s m q).text = finite s m q := by
  rw [text]
  split
  next n hn =>
    split
    next hsmall =>
      obtain ⟨hsign, hvalue⟩ := toInt?_signed hm hn
      have hread := ofText_signed (isNumeral_natural n.natAbs) (decide (n < 0))
      simp only [decide_eq_true_eq] at hread
      rw [integerText, hread, hsign, toBinary64_integer h hm hsmall hvalue]
    next => exact ofText_layout h hm s
  next => exact ofText_layout h hm s

/-- A number, as the operations build it. -/
def IsDouble : Binary64 → Prop
  | finite _ m q => IsCanonical m q
  | _ => True

theorem same_self {x : Binary64} (hx : x.isFinite = true) : x.same x = true := by
  cases x with
  | nan | infinite => cases hx
  | finite s m q => simp [same, compare?, aligned]

/-- A finite number is read from its text, but for the sign of a zero. -/
theorem same_ofText_text (hx : x.isFinite = true) (h : x.IsDouble) : (ofText x.text).same x = true := by
  cases x with
  | nan | infinite => cases hx
  | finite s m q =>
    rcases Nat.eq_zero_or_pos m with rfl | hm
    · have hint : (finite s 0 q).toInt? = some 0 :=
        toInt?_eq_some_iff.mpr (by cases s <;> simp [value, signed])
      have htext : (finite s 0 q).text = "0" := text_of_toInt? hint (by decide)
      have hzero : ofText "0" = finite false 0 minExponent := by decide
      rw [htext, hzero]
      cases s <;> simp [same, compare?, aligned, signed]
    · rw [ofText_text h hm]
      exact same_self rfl

end Binary64

end Bailiff

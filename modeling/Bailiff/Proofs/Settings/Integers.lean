-- SUMMARY: Which texts are taken as integers on the command line, and how far the integers that they denote are kept.
import Bailiff.Judge.Run
import Bailiff.Proofs.Number.Nearest
import Bailiff.Proofs.Results.Database
import Bailiff.Proofs.Text.Blank
import Bailiff.Results.Store
import Bailiff.Settings.Run

/-!
# Integers on the command line

A text is taken as an integer just if it denotes one (`Denotes`), and as a positive integer just if that is above zero.
The integer is then rounded to a double precision number, which nothing checks. So the number is that integer just if
it has such a value, the session that is looked up is the one with that id just then, and the judge is told the same
number of cores just if the nearest number is written out as that integer (`parseInteger_kept`). A text from
`2 ^ 53 + 1` on may mean something else (`parseInteger_rounds`).
-/

namespace Bailiff

variable {text label : String} {z : Int}

/-! ## Texts of integers -/

/-- A text denotes an integer: it is, between blanks, an optional minus sign and decimal digits. -/
inductive Denotes (text : String) : Int → Prop where
  | natural {digits : List Char} (trims : Trims text.toList digits) (nonempty : digits ≠ [])
      (areDigits : AreDigits digits) : Denotes text (Nat.ofDigitChars 10 digits 0)
  | negative {digits : List Char} (trims : Trims text.toList ('-' :: digits)) (nonempty : digits ≠ [])
      (areDigits : AreDigits digits) : Denotes text (-(Nat.ofDigitChars 10 digits 0 : Int))

/-- Digits and the sign before them are recognised together. -/
theorem literal_eq_some_iff {negative b : Bool} {digits : List Char} {n : Nat} :
    (if digits.isEmpty || !digits.all Char.isDigit then none else some (negative, decimalValue 0 digits)) = some (b, n)
      ↔ negative = b ∧ digits ≠ [] ∧ AreDigits digits ∧ Nat.ofDigitChars 10 digits 0 = n := by
  rw [decimalValue_eq, Option.ite_none_left_eq_some, Bool.or_eq_true, not_or, List.isEmpty_iff, Bool.not_eq_true,
    Bool.not_eq_false', List.all_eq_true, Option.some.injEq, Prod.mk.injEq]
  exact ⟨fun ⟨⟨hne, hall⟩, hb, hn⟩ => ⟨hb, hne, hall, hn⟩, fun ⟨hb, hne, hall, hn⟩ => ⟨⟨hne, hall⟩, hb, hn⟩⟩

/-- A literal has a minus sign in front, or it is all digits. -/
theorem integerLiteral?_eq_some_iff {cs : List Char} {b : Bool} {n : Nat} : integerLiteral? cs = some (b, n)
    ↔ ∃ digits, cs = (if b then '-' :: digits else digits) ∧ digits ≠ [] ∧ AreDigits digits
      ∧ Nat.ofDigitChars 10 digits 0 = n := by
  unfold integerLiteral?
  split
  next negative digits heq =>
    rw [literal_eq_some_iff]
    split at heq
    next rest =>
      obtain ⟨rfl, rfl⟩ := Prod.mk.inj heq
      constructor
      · rintro ⟨rfl, hdigits⟩
        exact ⟨rest, rfl, hdigits⟩
      · rintro ⟨digits, hcs, hne, hall, hn⟩
        cases b with
        | false =>
          obtain rfl : '-' :: rest = digits := hcs
          cases hall '-' List.mem_cons_self
        | true =>
          obtain rfl : rest = digits := (List.cons.inj hcs).2
          exact ⟨rfl, hne, hall, hn⟩
    next hminus =>
      cases heq
      constructor
      · rintro ⟨rfl, hdigits⟩
        exact ⟨cs, rfl, hdigits⟩
      · rintro ⟨digits, hcs, hdigits⟩
        cases b with
        | false =>
          obtain rfl : cs = digits := hcs
          exact ⟨rfl, hdigits⟩
        | true => exact absurd hcs (hminus digits)

/-- The texts that are recognised are those that denote an integer. -/
theorem denotes_iff : Denotes text z
    ↔ ∃ negative n, integerLiteral? (stripBlanks text.toList) = some (negative, n)
      ∧ z = Binary64.signed negative n := by
  simp only [integerLiteral?_eq_some_iff, ← trims_iff]
  constructor
  · intro h
    cases h with
    | natural trims nonempty areDigits => exact ⟨false, _, ⟨_, trims, nonempty, areDigits, rfl⟩, rfl⟩
    | negative trims nonempty areDigits => exact ⟨true, _, ⟨_, trims, nonempty, areDigits, rfl⟩, rfl⟩
  · rintro ⟨negative, n, ⟨digits, htrims, hnonempty, hdigits, rfl⟩, rfl⟩
    cases negative with
    | false => exact .natural htrims hnonempty hdigits
    | true => exact .negative htrims hnonempty hdigits

/-! ## Reading options -/

theorem parseInteger_of_denotes (h : Denotes text z) (label : String) :
    ∃ negative n, z = Binary64.signed negative n ∧ parseInteger text label = .ok (.ofRatio negative n 1) := by
  obtain ⟨negative, n, hliteral, hz⟩ := denotes_iff.mp h
  exact ⟨negative, n, hz, by rw [parseInteger, hliteral]⟩

theorem parseInteger_of_not_denotes (h : ¬∃ z, Denotes text z) (label : String) :
    parseInteger text label = .error (.of .config (label ++ " must be an integer, got \"" ++ text ++ "\".")) := by
  unfold parseInteger
  split
  next negative n hliteral => exact absurd ⟨_, denotes_iff.mpr ⟨negative, n, hliteral, rfl⟩⟩ h
  next => rfl

/-- A text that denotes an integer is refused as a positive one just if the integer is not. -/
theorem parsePositiveInteger_of_denotes (h : Denotes text z) (label : String) :
    parsePositiveInteger text label = if 0 < z then parseInteger text label
      else .error (.of .config (label ++ " must be a positive integer, got \"" ++ text ++ "\".")) := by
  obtain ⟨negative, n, rfl, hparsed⟩ := parseInteger_of_denotes h label
  rw [parsePositiveInteger, hparsed]
  dsimp only
  by_cases hpos : 0 < Binary64.signed negative n
  · rw [if_pos hpos, if_neg ((Binary64.atMost_zero_ofRatio negative n).not.mpr (not_le.mpr hpos))]
  · rw [if_neg hpos, if_pos ((Binary64.atMost_zero_ofRatio negative n).mpr (not_lt.mp hpos))]

/-! ## What is made of the integers -/

/-- Every store finds just the session of an integer by a number, if the number is that integer. -/
theorem getSession_iff {x : Binary64} :
    (∀ s : Store, s.isOpen = true → s.getSession x = .ok (s.db.sessions.find? (·.id = z))) ↔ x.toInt? = some z := by
  constructor
  · intro h
    -- A store that has a session of that id has to find it.
    let one : Session := ⟨z, "", .text ""⟩
    let s : Store := { db := { sessionTable := some { columns := sessionColumns, rows := [one] } } }
    have hhere : s.db.sessions.find? (·.id = z) = some one := by simp [s, one, Database.sessions]
    have hfound := h s rfl
    rw [hhere] at hfound
    exact (Database.session?_eq_some (Except.ok.inj hfound)).2
  · intro h s hopen
    simp [Store.getSession, Store.whenOpen, hopen, Database.session?, h, eq_comm]

/-- The judge is told the number of cores as a natural just if that is written out. -/
theorem numCores_iff {n : Nat} (hn : 0 < n) (workDir judge task : String) :
    (∃ arg, ((Judge.command workDir judge task (.ofNat n)).args.drop 2).take 2 = ["--num-cores", arg]
      ∧ Binary64.IsDigitsOf arg n) ↔ Binary64.IsWrittenOut n := by
  rw [← Binary64.isDigitsOf_ofNat_iff hn]
  constructor
  · rintro ⟨arg, hargs, hdigits⟩
    obtain rfl : (Binary64.ofNat n).text = arg := (List.cons.inj (List.cons.inj hargs).2).1
    exact hdigits
  · intro hdigits
    exact ⟨_, rfl, hdigits⟩

/-- What is kept of an integer. The number made of it is that integer and finds its session just if the integer is a
double precision number, and the judge is told the integer as a number of cores just if it is written out. -/
structure Keeps (z : Int) (x : Binary64) : Prop where
  value : x.toInt? = some z ↔ Binary64.IsExact z
  session : (∀ s : Store, s.isOpen = true → s.getSession x = .ok (s.db.sessions.find? (·.id = z)))
    ↔ Binary64.IsExact z
  cores : 0 < z → ∀ workDir judge task,
    (∃ arg, ((Judge.command workDir judge task x).args.drop 2).take 2 = ["--num-cores", arg]
      ∧ Binary64.IsDigitsOf arg z.natAbs) ↔ Binary64.IsWrittenOut z.natAbs

theorem keeps_ofRatio (negative : Bool) (n : Nat) : Keeps (Binary64.signed negative n) (.ofRatio negative n 1) := by
  have hvalue := Binary64.toInt?_ofRatio_iff negative n
  constructor
  · exact hvalue
  · exact getSession_iff.trans hvalue
  · intro hpos workDir judge task
    cases negative with
    | true =>
      simp only [Binary64.signed, if_true] at hpos
      omega
    | false =>
      have hnat : (Binary64.signed false n).natAbs = n := Int.natAbs_natCast n
      rw [hnat]
      exact numCores_iff (Int.natCast_pos.mp hpos) workDir judge task

/-- A text is taken as an integer just if it denotes one, and as a positive one just if that is above zero; for any
other text there is a message. What is kept of the integer is all of it up to `2 ^ 53`. -/
theorem parseInteger_kept (text label : String) :
    ((∃ x, parseInteger text label = .ok x) ↔ ∃ z, Denotes text z)
      ∧ ((∃ x, parsePositiveInteger text label = .ok x) ↔ ∃ z, Denotes text z ∧ 0 < z)
      ∧ (∀ f, parseInteger text label = .error f →
          f = .of .config (label ++ " must be an integer, got \"" ++ text ++ "\"."))
      ∧ (∀ f, parsePositiveInteger text label = .error f →
          parseInteger text label = .error f
            ∨ f = .of .config (label ++ " must be a positive integer, got \"" ++ text ++ "\"."))
      ∧ (∀ z x, Denotes text z → parseInteger text label = .ok x ∨ parsePositiveInteger text label = .ok x → Keeps z x)
      ∧ ∀ z, z.natAbs ≤ Binary64.maxExactInteger → Binary64.IsExact z ∧ Binary64.IsWrittenOut z.natAbs := by
  have hsmall (z : Int) (hz : z.natAbs ≤ Binary64.maxExactInteger) :
      Binary64.IsExact z ∧ Binary64.IsWrittenOut z.natAbs := ⟨Binary64.isExact_of_le hz, .inl hz⟩
  by_cases hsome : ∃ z, Denotes text z
  · have hkeeps (z : Int) (x : Binary64) (hz : Denotes text z)
        (hx : parseInteger text label = .ok x ∨ parsePositiveInteger text label = .ok x) : Keeps z x := by
      obtain ⟨negative, n, rfl, hparsed⟩ := parseInteger_of_denotes hz label
      have hsame : parseInteger text label = .ok x := by
        refine hx.elim id fun hpositive => ?_
        rw [parsePositiveInteger_of_denotes hz] at hpositive
        split at hpositive
        · exact hpositive
        · cases hpositive
      rw [hparsed] at hsame
      exact Except.ok.inj hsame ▸ keeps_ofRatio negative n
    obtain ⟨z, hz⟩ := hsome
    obtain ⟨negative, n, -, hparsed⟩ := parseInteger_of_denotes hz label
    have hpositive := parsePositiveInteger_of_denotes hz label
    refine ⟨iff_of_true ⟨_, hparsed⟩ ⟨z, hz⟩, ⟨?_, ?_⟩, ?_, ?_, hkeeps, hsmall⟩
    · rintro ⟨x, hx⟩
      rw [hpositive] at hx
      split at hx
      next hpos => exact ⟨z, hz, hpos⟩
      next => cases hx
    · rintro ⟨z', hz', hpos⟩
      exact ⟨_, by rw [parsePositiveInteger_of_denotes hz', if_pos hpos, hparsed]⟩
    · intro f hf
      rw [hparsed] at hf
      cases hf
    · intro f hf
      rw [hpositive, hparsed] at hf
      split at hf
      · cases hf
      · exact .inr (Except.error.inj hf).symm
  · have hparsed := parseInteger_of_not_denotes hsome label
    have hpositive : parsePositiveInteger text label = parseInteger text label := by
      rw [parsePositiveInteger, hparsed]
    rw [hpositive, hparsed]
    refine ⟨iff_of_false nofun hsome, iff_of_false nofun ?_, ?_, ?_, ?_, hsmall⟩
    · rintro ⟨z, hz, -⟩
      exact hsome ⟨z, hz⟩
    · intro f hf
      exact (Except.error.inj hf).symm
    · intro f hf
      exact .inl hf
    · intro z x hz
      exact absurd ⟨z, hz⟩ hsome

/-- A small integer between blanks. -/
theorem parseInteger_kept_seven :
    Denotes " 7 " 7 ∧ ∃ x, parsePositiveInteger " 7 " "--cores" = .ok x ∧ x.toInt? = some 7 := by
  have hdenotes : Denotes " 7 " 7 :=
    @Denotes.natural " 7 " ['7'] (trims_iff.mpr (by decide)) (by decide) (List.all_eq_true.mp (by decide))
  obtain ⟨-, hpositive, -, -, hkeeps, hsmall⟩ := parseInteger_kept " 7 " "--cores"
  obtain ⟨x, hx⟩ := hpositive.mpr ⟨7, hdenotes, by decide⟩
  exact ⟨hdenotes, x, hx, (hkeeps 7 x hdenotes (.inr hx)).value.mpr (hsmall 7 (by decide)).1⟩

/-- The text of the first natural that is not a double precision number denotes it. -/
theorem denotes_first_inexact : Denotes "9007199254740993" 9007199254740993 := by
  have hdigits : AreDigits "9007199254740993".toList := List.all_eq_true.mp (by decide)
  exact .natural (trims_iff.mpr (by decide +kernel)) (by decide) hdigits

/-- It is read as the natural before it: that is the id of the session that is found, and the number of cores that the
judge is told. -/
theorem parseInteger_rounds :
    Denotes "9007199254740993" 9007199254740993
      ∧ ∃ x, parseInteger "9007199254740993" "--session" = .ok x
        ∧ parsePositiveInteger "9007199254740993" "--cores" = .ok x
        ∧ x.toInt? = some 9007199254740992
        ∧ x.text = "9007199254740992" := by
  have hliteral : integerLiteral? (stripBlanks "9007199254740993".toList) = some (false, 9007199254740993) := by
    decide +kernel
  have hparsed (label : String) :
      parseInteger "9007199254740993" label = .ok (.ofRatio false 9007199254740993 1) := by
    rw [parseInteger, hliteral]
  refine ⟨denotes_first_inexact, .ofRatio false 9007199254740993 1, hparsed _, ?_, by decide +kernel, by decide +kernel⟩
  rw [parsePositiveInteger_of_denotes denotes_first_inexact, if_pos (by decide), hparsed]

end Bailiff

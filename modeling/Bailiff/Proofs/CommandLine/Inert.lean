-- SUMMARY: A shell finds nothing to act on in a written command line: what is special there stands in single quotes.
import Mathlib.Data.List.Forall2
import Bailiff.Proofs.CommandLine.RoundTrip
import Bailiff.Proofs.Text.Joined

/-!
# Command lines in a shell

A shell reads a text character by character (`Shell.step`), and finds each character outside quotes, behind a
backslash, in single quotes or in double quotes, or takes it for a quote mark (`Shell.Place`). In a written word
it finds only harmless characters outside quotes, and leaves all quotes at the end (`Words.inert_quoteChars`).
So a written command line has no special character outside single quotes (`CommandLine.rendered_inert`).
-/

namespace Bailiff

namespace Shell

/-! ## Reading quotes -/

/-- Where a shell finds a character. -/
inductive Place where
  | bare
  | escaped
  | mark
  | single
  | double
  deriving DecidableEq, Repr

inductive State where
  | bare
  | escaped
  | single
  | double
  | doubleEscaped
  deriving DecidableEq, Repr

/-- The place of a character, and what the shell reads after it. Single quotes last up to the next single quote.
In double quotes a backslash keeps the next character from closing them. -/
def step : State → Char → Place × State
  | .bare, c =>
    if c = '\x27' then (.mark, .single)
    else if c = '\x22' then (.mark, .double)
    else if c = '\\' then (.bare, .escaped)
    else (.bare, .bare)
  | .escaped, _ => (.escaped, .bare)
  | .single, c => if c = '\x27' then (.mark, .bare) else (.single, .single)
  | .double, c =>
    if c = '\x22' then (.mark, .bare)
    else if c = '\\' then (.double, .doubleEscaped)
    else (.double, .double)
  | .doubleEscaped, _ => (.double, .double)

/-- The characters of a text with their places, and where the shell stands at its end. -/
def scan (state : State) : List Char → List (Place × Char) × State
  | [] => ([], state)
  | c :: rest =>
    (((step state c).1, c) :: (scan (step state c).2 rest).1, (scan (step state c).2 rest).2)

/-- A character that a shell takes for itself wherever it stands. -/
def IsHarmless (c : Char) : Prop :=
  ('A' ≤ c ∧ c ≤ 'Z') ∨ ('a' ≤ c ∧ c ≤ 'z') ∨ ('0' ≤ c ∧ c ≤ '9')
    ∨ c ∈ ['_', '@', '%', '+', '=', ':', ',', '.', '/', '-']

instance : DecidablePred IsHarmless := fun c =>
  inferInstanceAs (Decidable (('A' ≤ c ∧ c ≤ 'Z') ∨ ('a' ≤ c ∧ c ≤ 'z') ∨ ('0' ≤ c ∧ c ≤ '9')
    ∨ c ∈ ['_', '@', '%', '+', '=', ':', ',', '.', '/', '-']))

/-- The characters that make a shell expand, redirect, join or end something. -/
def specials : List Char :=
  ['$', '\x60', '\\', '\n', '\t', '*', '?', '[', ']', '\x7b', '\x7d', '(', ')', '<', '>', '|', ';', '&', '#', '~', '!',
    '^']

/-- A word as a shell finds it: outside quotes there are harmless characters only, in double quotes single quotes
only, and without the quote marks it is the word that was meant. -/
structure Inert (found : List (Place × Char)) (word : List Char) : Prop where
  bare : ∀ c, (.bare, c) ∈ found → IsHarmless c
  escaped : ∀ c, (.escaped, c) ∉ found
  double : ∀ c, (.double, c) ∈ found → c = '\x27'
  mark : ∀ c, (.mark, c) ∈ found → c = '\x27' ∨ c = '\x22'
  means : (found.filter (·.1 ≠ .mark)).map (·.2) = word

variable {state : State} {c : Char} {word : List Char} {found : List (Place × Char)}

theorem scan_append (state : State) (cs ds : List Char) :
    scan state (cs ++ ds)
      = ((scan state cs).1 ++ (scan (scan state cs).2 ds).1, (scan (scan state cs).2 ds).2) := by
  induction cs generalizing state with
  | nil => rfl
  | cons c cs ih => simp [scan, ih]

/-- What stands in a list of parts is a separator, or stands in one of the parts. -/
theorem mem_intercalate {space x : Place × Char} {parts : List (List (Place × Char))}
    (h : x ∈ [space].intercalate parts) : x = space ∨ ∃ f ∈ parts, x ∈ f :=
  (mem_joined h).imp_left List.mem_singleton.mp

theorem not_isHarmless_of_mem_specials (hc : c ∈ specials) : ¬IsHarmless c := by
  have hall : specials.all (fun c => !decide (IsHarmless c)) = true := by decide
  simpa using List.all_eq_true.mp hall c hc

/-- What is special in a word stands in single quotes. -/
theorem Inert.single_of_mem_specials (h : Inert found word) {p : Place} (hmem : (p, c) ∈ found)
    (hspecial : c ∈ specials) : p = .single := by
  have hmarks : '\x27' ∉ specials ∧ '\x22' ∉ specials := by decide
  cases p with
  | bare => exact absurd (h.bare c hmem) (not_isHarmless_of_mem_specials hspecial)
  | escaped => exact absurd hmem (h.escaped c)
  | double => exact absurd hspecial (h.double c hmem ▸ hmarks.1)
  | mark =>
    rcases h.mark c hmem with rfl | rfl
    · exact absurd hspecial hmarks.1
    · exact absurd hspecial hmarks.2
  | single => rfl

end Shell

/-! ## Written words -/

namespace Words

open Shell (scan)

variable {c : Char} {word : List Char}

theorem isHarmless_of_isPlain (h : isPlain c = true) : Shell.IsHarmless c := by
  simp only [isPlain, isAlphanum_eq, Bool.or_eq_true, Bool.and_eq_true, decide_eq_true_eq, or_assoc] at h
  simp only [Shell.IsHarmless, List.mem_cons, List.not_mem_nil, or_false, Char.le_def]
  exact h

/-- A plain character outside quotes is found there. -/
theorem step_of_isPlain (h : isPlain c = true) : Shell.step .bare c = (.bare, .bare) := by
  obtain ⟨hlow, -, hsingle, hescape⟩ := toNat_of_isPlain h
  have hne (d : Char) (hd : c.toNat ≠ d.toNat) : c ≠ d := fun heq => hd (congrArg Char.toNat heq)
  have hdouble : c.toNat ≠ 0x22 := by omega
  simp [Shell.step, hne '\x27' hsingle, hne '\x22' hdouble, hne '\\' hescape]

theorem scan_allPlain (h : word.all isPlain = true) :
    scan .bare word = (word.map fun c => (.bare, c), .bare) := by
  induction word with
  | nil => rfl
  | cons c word ih =>
    rw [List.all_cons, Bool.and_eq_true] at h
    simp [scan, step_of_isPlain h.1, ih h.2]

/-- How a shell that is in single quotes finds the written form of a character. -/
def foundQuoted (c : Char) : List (Shell.Place × Char) :=
  if c = '\x27' then
    [(.mark, '\x27'), (.mark, '\x22'), (.double, '\x27'), (.mark, '\x22'), (.mark, '\x27')]
  else [(.single, c)]

theorem scan_quoteChar (c : Char) : scan .single (quoteChar c) = (foundQuoted c, .single) := by
  by_cases h : c = '\x27'
  · subst h
    rfl
  · simp [quoteChar, foundQuoted, scan, Shell.step, h]

theorem scan_quoteChars (word : List Char) :
    scan .single (word.flatMap quoteChar) = (word.flatMap foundQuoted, .single) := by
  induction word with
  | nil => rfl
  | cons c word ih => rw [List.flatMap_cons, Shell.scan_append, scan_quoteChar, ih, List.flatMap_cons]

/-! ## Inert words -/

theorem inert_plain (h : word.all isPlain = true) : Shell.Inert (word.map fun c => (.bare, c)) word := by
  rw [List.all_eq_true] at h
  constructor
  · intro c hc
    obtain ⟨d, hd, heq⟩ := List.mem_map.mp hc
    cases heq
    exact isHarmless_of_isPlain (h c hd)
  · simp
  · simp
  · simp
  · simp [List.filter_map, Function.comp_def]

theorem means_foundQuoted (word : List Char) :
    ((word.flatMap foundQuoted).filter (·.1 ≠ .mark)).map (·.2) = word := by
  induction word with
  | nil => rfl
  | cons c word ih =>
    rw [List.flatMap_cons, List.filter_append, List.map_append, ih]
    by_cases h : c = '\x27'
    · subst h
      rfl
    · simp [foundQuoted, h]

/-- The characters of a word in single quotes are found there, and its own single quotes in double quotes. -/
theorem inert_quoted (word : List Char) :
    Shell.Inert ((.mark, '\x27') :: word.flatMap foundQuoted ++ [(.mark, '\x27')]) word := by
  have hfound (p : Shell.Place) (c : Char)
      (h : (p, c) ∈ (.mark, '\x27') :: word.flatMap foundQuoted ++ [(Shell.Place.mark, '\x27')]) :
      p = .single ∨ p = .double ∧ c = '\x27' ∨ p = .mark ∧ (c = '\x27' ∨ c = '\x22') := by
    rw [List.mem_append, List.mem_cons, List.mem_flatMap, List.mem_singleton] at h
    rcases h with (h | ⟨d, -, h⟩) | h
    · cases h
      simp
    · unfold foundQuoted at h
      split at h
      · simp only [List.mem_cons, Prod.mk.injEq, List.not_mem_nil, or_false] at h
        tauto
      · cases List.mem_singleton.mp h
        exact .inl rfl
    · cases h
      simp
  constructor
  · exact fun c hc => by simpa using hfound _ c hc
  · exact fun c hc => by simpa using hfound _ c hc
  · exact fun c hc => by simpa using hfound _ c hc
  · exact fun c hc => by simpa using hfound _ c hc
  · have hfirst : List.filter (·.1 ≠ .mark) [(Shell.Place.mark, '\x27')] = [] := rfl
    rw [List.cons_append, ← List.singleton_append, List.filter_append, List.filter_append, hfirst, List.nil_append,
      List.append_nil, means_foundQuoted]

/-- A shell outside quotes finds a written word inert, and is outside quotes again at its end. -/
theorem inert_quoteChars (word : List Char) :
    ∃ found, scan .bare (quoteChars word) = (found, .bare) ∧ Shell.Inert found word := by
  unfold quoteChars
  split
  next hempty =>
    rw [List.isEmpty_iff.mp hempty]
    exact ⟨_, rfl, inert_quoted []⟩
  split
  next hplain => exact ⟨_, scan_allPlain hplain, inert_plain hplain⟩
  next =>
    refine ⟨_, ?_, inert_quoted word⟩
    rw [List.cons_append, scan, Shell.scan_append]
    have hopen : (Shell.step .bare '\x27') = (.mark, .single) := rfl
    rw [hopen, scan_quoteChars]
    rfl

/-- Written words with one space between them are found as words with one space outside quotes between them. -/
theorem inert_intercalate (words : List (List Char)) :
    ∃ found, scan .bare ([' '].intercalate (words.map quoteChars)) = ([(.bare, ' ')].intercalate found, .bare)
      ∧ List.Forall₂ (fun f word => scan .bare (quoteChars word) = (f, .bare) ∧ Shell.Inert f word) found words := by
  induction words with
  | nil => exact ⟨[], rfl, .nil⟩
  | cons word words ih =>
    obtain ⟨first, hfirst, hinert⟩ := inert_quoteChars word
    obtain ⟨found, hfound, hall⟩ := ih
    refine ⟨first :: found, ?_, .cons ⟨hfirst, hinert⟩ hall⟩
    cases hall with
    | nil => simpa using hfirst
    | cons _ _ =>
      have hspace : Shell.step .bare ' ' = (.bare, .bare) := rfl
      rw [List.map_cons, List.map_cons, List.intercalate_cons_cons, List.append_assoc, Shell.scan_append, hfirst,
        ← List.map_cons, List.singleton_append, scan, hspace, hfound, List.intercalate_cons_cons, List.append_assoc]
      rfl

end Words

/-! ## Command lines -/

namespace CommandLine

/-- A shell finds a written command line as its words with a single space between two of them. Outside quotes a
word has harmless characters only, in double quotes single quotes only, its quotes are closed at its end, and
without the quote marks it is the file or the argument itself. So nothing special stands outside single quotes. -/
theorem rendered_inert (c : CommandLine) :
    (∃ found, Shell.scan .bare c.render.toList = ([(.bare, ' ')].intercalate found, .bare)
        ∧ List.Forall₂ (fun f word => Shell.scan .bare (Words.quote word).toList = (f, .bare)
            ∧ Shell.Inert f word.toList) found (c.file :: c.args))
      ∧ ∀ p ch, (p, ch) ∈ (Shell.scan .bare c.render.toList).1 → ch ∈ Shell.specials → p = .single := by
  obtain ⟨found, hscan, hall⟩ := Words.inert_intercalate ((c.file :: c.args).map String.toList)
  have hrender : c.render.toList = [' '].intercalate (((c.file :: c.args).map String.toList).map Words.quoteChars) := by
    rw [render, Words.toList_render, List.map_map]
    rfl
  rw [hrender, hscan]
  rw [List.forall₂_map_right_iff] at hall
  refine ⟨⟨found, rfl, hall.imp fun f word h => ?_⟩, ?_⟩
  · rwa [Words.quote, String.toList_ofList]
  · intro p ch hmem hspecial
    rcases Shell.mem_intercalate hmem with hspace | ⟨f, hf, hmem⟩
    · cases hspace
      revert hspecial
      decide
    · obtain ⟨i, hi, rfl⟩ := List.getElem_of_mem hf
      have hinert := ((List.forall₂_iff_get.mp hall).2 i hi (hall.length_eq ▸ hi)).2
      exact hinert.single_of_mem_specials hmem hspecial

end CommandLine

end Bailiff

-- SUMMARY: What a terminal makes of a styled text: which characters it shows, and which styles are on at any place.
import Bailiff.Proofs.Number.Whole
import Bailiff.Report

/-!
# Styled texts

A terminal reads a text as characters to show and sequences that select a graphic rendition (`tokens`). Without the
sequences, a styled text is the text itself (`strips_styled`). Styles are on between the sequence that opens them and
the one that closes them; they are nested when each is closed before any that was opened earlier (`nest`). In a styled
text all its styles are open around the text, and all of them are closed at its end (`isStyled_styled`).
-/

namespace Bailiff

/-! ## Sequences -/

/-- The character that begins a sequence. -/
def escape : Char := '\x1b'

inductive Token where
  | char (c : Char)
  | rendition (parameters : List Char)
  deriving DecidableEq, Repr

def isParameter (c : Char) : Bool := c.isDigit || c = ';'

/-- The parameters of a sequence whose first character has been read, and what follows the sequence. -/
def rendition? : List Char → Option (List Char × List Char)
  | '[' :: rest =>
    match rest.dropWhile isParameter with
    | 'm' :: tail => some (rest.takeWhile isParameter, tail)
    | _ => none
  | _ => none

theorem length_of_rendition? {cs parameters tail : List Char} (h : rendition? cs = some (parameters, tail)) :
    tail.length < cs.length := by
  unfold rendition? at h
  split at h
  next rest =>
    split at h
    next tail' hdrop =>
      cases h
      have hle := (List.dropWhile_suffix (l := rest) isParameter).length_le
      rw [hdrop, List.length_cons] at hle
      rw [List.length_cons]
      omega
    · cases h
  · cases h

/-- The characters and sequences of a text. -/
def tokens : List Char → List Token
  | [] => []
  | c :: rest =>
    if c = escape then
      match _ : rendition? rest with
      | some (parameters, tail) => .rendition parameters :: tokens tail
      | none => .char c :: tokens rest
    else .char c :: tokens rest
termination_by cs => cs.length
decreasing_by
  · exact Nat.lt_succ_of_lt (length_of_rendition? ‹_›)
  · exact Nat.lt_succ_self _
  · exact Nat.lt_succ_self _

def Token.char? : Token → Option Char
  | char c => some c
  | rendition _ => none

/-- The characters of a text without the sequences. -/
def withoutRenditions (cs : List Char) : List Char := (tokens cs).filterMap Token.char?

/-- The characters are read as these tokens, whatever follows. -/
def Reads (cs : List Char) (ts : List Token) : Prop := ∀ rest, tokens (cs ++ rest) = ts ++ tokens rest

variable {cs ds : List Char} {ts us : List Token}

theorem Reads.append (hcs : Reads cs ts) (hds : Reads ds us) : Reads (cs ++ ds) (ts ++ us) := by
  intro rest
  rw [List.append_assoc, hcs, hds, List.append_assoc]

theorem tokens_nil : tokens [] = [] := by rw [tokens]

theorem Reads.tokens_eq (h : Reads cs ts) : tokens cs = ts := by
  have hend := h []
  rwa [List.append_nil, tokens_nil, List.append_nil] at hend

/-- A text without sequences. -/
theorem reads_chars (h : escape ∉ cs) : Reads cs (cs.map .char) := by
  intro rest
  induction cs with
  | nil => rfl
  | cons c cs ih =>
    have hc : c ≠ escape := fun heq => h (heq ▸ List.mem_cons_self)
    rw [List.cons_append, tokens, if_neg hc, ih fun hmem => h (List.mem_cons_of_mem _ hmem)]
    rfl

/-- The digits of a code. -/
def digits (code : Nat) : List Char := Nat.toDigits 10 code

theorem toList_selectRendition (code : Nat) :
    (selectRendition code).toList = escape :: '[' :: (digits code ++ ['m']) := by
  rw [selectRendition, String.toList_append, String.toList_append, Binary64.toList_integerText]
  rfl

theorem rendition?_digits (code : Nat) (rest : List Char) :
    rendition? ('[' :: (digits code ++ 'm' :: rest)) = some (digits code, rest) := by
  have hdigits : ∀ c ∈ digits code, isParameter c = true := fun c hc => by
    rw [isParameter, Nat.isDigit_of_mem_toDigits (by decide) (by decide) hc, Bool.true_or]
  have hdrop : (digits code ++ 'm' :: rest).dropWhile isParameter = 'm' :: rest := by
    rw [List.dropWhile_append_of_pos hdigits, List.dropWhile_cons_of_neg (by decide)]
  have htake : (digits code ++ 'm' :: rest).takeWhile isParameter = digits code := by
    rw [List.takeWhile_append_of_pos hdigits, List.takeWhile_cons_of_neg (by decide),
      List.append_nil]
  simp only [rendition?, hdrop, htake]

theorem reads_selectRendition (code : Nat) : Reads (selectRendition code).toList [.rendition (digits code)] := by
  intro rest
  have hsequence : (selectRendition code).toList ++ rest = escape :: '[' :: (digits code ++ 'm' :: rest) := by
    rw [toList_selectRendition, List.cons_append, List.cons_append, List.append_assoc, List.singleton_append]
  rw [hsequence, tokens, if_pos rfl]
  split
  next hread =>
    rw [rendition?_digits] at hread
    cases hread
    rfl
  next hnone =>
    rw [rendition?_digits] at hnone
    cases hnone

/-- The sequences of some codes, one after the other. -/
def sequences (codes : List Nat) : List Char := codes.flatMap fun code => (selectRendition code).toList

theorem reads_sequences (codes : List Nat) : Reads (sequences codes) (codes.map fun code => .rendition (digits code)) := by
  induction codes with
  | nil => exact fun rest => rfl
  | cons code codes ih => exact (reads_selectRendition code).append ih

/-! ## Texts without their sequences -/

/-- Without sequences, the characters are those of a plain text, whatever follows. -/
def Strips (cs plain : List Char) : Prop := ∀ rest, withoutRenditions (cs ++ rest) = plain ++ withoutRenditions rest

theorem Reads.strips (h : Reads cs ts) : Strips cs (ts.filterMap Token.char?) := by
  intro rest
  rw [withoutRenditions, h, List.filterMap_append]
  rfl

theorem Strips.append {plain more : List Char} (hcs : Strips cs plain) (hds : Strips ds more) :
    Strips (cs ++ ds) (plain ++ more) := by
  intro rest
  rw [List.append_assoc, hcs, hds, List.append_assoc]

theorem Strips.eq {plain : List Char} (h : Strips cs plain) : withoutRenditions cs = plain := by
  have hnil : withoutRenditions [] = [] := by rw [withoutRenditions, tokens_nil, List.filterMap_nil]
  have hend := h []
  rwa [List.append_nil, hnil, List.append_nil] at hend

theorem strips_chars (h : escape ∉ cs) : Strips cs cs := by
  have hchars : (cs.map Token.char).filterMap Token.char? = cs := by
    rw [List.filterMap_map]
    exact List.filterMap_some
  have hstrips := (reads_chars h).strips
  rwa [hchars] at hstrips

theorem strips_sequences (codes : List Nat) : Strips (sequences codes) [] := by
  have hnone : (codes.map fun code => Token.rendition (digits code)).filterMap Token.char? = [] := by
    rw [List.filterMap_map]
    exact List.filterMap_none codes
  have hstrips := (reads_sequences codes).strips
  rwa [hnone] at hstrips

/-- Texts that are joined. -/
theorem strips_intercalate {sep : List Char} (hsep : escape ∉ sep) {shown plain : List (List Char)}
    (h : List.Forall₂ Strips shown plain) : Strips (sep.intercalate shown) (sep.intercalate plain) := by
  induction h with
  | nil => exact fun rest => rfl
  | cons hfirst hrest ih =>
    cases hrest with
    | nil => simpa only [List.intercalate_singleton] using hfirst
    | cons =>
      rw [List.intercalate_cons_cons, List.intercalate_cons_cons]
      exact (hfirst.append (strips_chars hsep)).append ih

/-! ## Nested styles -/

def allStyles : List Style := [.red, .yellow, .cyan, .bold, .dim]

/-- The styles that are open after a token, the last one opened first. Only that one can be closed. -/
def nestToken (opened : List Style) : Token → Option (List Style)
  | .char _ => some opened
  | .rendition parameters =>
    match allStyles.find? fun s => digits s.codes.1 = parameters with
    | some s => some (s :: opened)
    | none =>
      match opened with
      | s :: rest => if digits s.codes.2 = parameters then some rest else none
      | [] => none

/-- The styles that are open after a text, the last one opened first, if styles are closed in that order. -/
def nest (opened : List Style) (cs : List Char) : Option (List Style) := (tokens cs).foldlM nestToken opened

/-- The text is the body with styles around it. All of them are open at its beginning, and at the end all of them have
been closed, each before those that were opened earlier. -/
def IsStyled (styles : List Style) (body text : String) : Prop :=
  ∃ before after : List Char, text.toList = before ++ body.toList ++ after
    ∧ withoutRenditions before = [] ∧ nest [] before = some styles
    ∧ withoutRenditions after = [] ∧ nest styles after = some []

theorem nestToken_open (s : Style) (opened : List Style) :
    nestToken opened (.rendition (digits s.codes.1)) = some (s :: opened) := by
  have hfind : allStyles.find? (fun s' => digits s'.codes.1 = digits s.codes.1) = some s := by
    cases s <;> decide
  simp only [nestToken, hfind]

theorem nestToken_close (s : Style) (opened : List Style) :
    nestToken (s :: opened) (.rendition (digits s.codes.2)) = some opened := by
  have hfind : allStyles.find? (fun s' => digits s'.codes.1 = digits s.codes.2) = none := by
    cases s <;> decide
  simp only [nestToken, hfind, if_true]

def openings (styles : List Style) : List Char := sequences (styles.reverse.map (·.codes.1))

def closings (styles : List Style) : List Char := sequences (styles.map (·.codes.2))

theorem nest_openings (styles : List Style) : nest [] (openings styles) = some styles := by
  rw [nest, openings, (reads_sequences _).tokens_eq, List.map_map]
  induction styles with
  | nil => rfl
  | cons s styles ih =>
    rw [List.reverse_cons, List.map_append, List.foldlM_append, ih]
    exact (bind_pure _).trans (nestToken_open s styles)

theorem nest_closings (styles : List Style) : nest styles (closings styles) = some [] := by
  rw [nest, closings, (reads_sequences _).tokens_eq, List.map_map]
  induction styles with
  | nil => rfl
  | cons s styles ih =>
    rw [List.map_cons, List.foldlM_cons]
    exact (congrArg (· >>= _) (nestToken_close s styles)).trans ih

theorem toList_styled (styles : List Style) (text : String) :
    (styled true styles text).toList = openings styles ++ text.toList ++ closings styles := by
  rw [styled, if_pos rfl]
  induction styles generalizing text with
  | nil => exact (List.append_nil _).symm
  | cons s styles ih =>
    have hopen : openings (s :: styles) = openings styles ++ (selectRendition s.codes.1).toList := by
      simp [openings, sequences]
    have hclose : closings (s :: styles) = (selectRendition s.codes.2).toList ++ closings styles := by
      simp [closings, sequences]
    rw [List.foldl_cons, ih, hopen, hclose, Style.wrap, String.toList_append, String.toList_append]
    simp only [List.append_assoc]

theorem isStyled_styled (styles : List Style) (text : String) : IsStyled styles text (styled true styles text) :=
  ⟨openings styles, closings styles, toList_styled styles text, (strips_sequences _).eq, nest_openings styles,
    (strips_sequences _).eq, nest_closings styles⟩

/-- The last style is the outermost one, and both end before the text does. -/
example : styled true [.red, .bold] "Error:" = "\x1b[1m\x1b[31mError:\x1b[39m\x1b[22m" := by decide +kernel

/-- Without its sequences, a styled text is the text itself. -/
theorem strips_styled (styles : List Style) {text : String} (h : escape ∉ text.toList) :
    Strips (styled true styles text).toList text.toList := by
  have hstrips := ((strips_sequences (styles.reverse.map (·.codes.1))).append (strips_chars h)).append
    (strips_sequences (styles.map (·.codes.2)))
  rw [List.nil_append, List.append_nil] at hstrips
  rwa [toList_styled]

end Bailiff

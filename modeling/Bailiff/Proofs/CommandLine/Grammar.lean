-- SUMMARY: The grammar of words with quotes and escapes: which texts split, what their words mean, and what is left unfinished.
import Mathlib.Data.List.Induction
import Bailiff.CommandLine.Basic

/-!
# Grammar of words

A text of words is made of blanks and words, with a blank between any two words (`Words.Layout`); a word is
one piece or more, and means what its pieces mean one after the other. Wherever a reader stands after a text,
the grammar says what it has read (`Words.stands_after`), and a text of the grammar leads it there
(`Words.Layout.after_eq`). So a text splits just if it is a text of words, and otherwise it ends in a
backslash or inside quotes.
-/

namespace Bailiff

namespace Words

/-! ## Grammar -/

/-- What is written between double quotes, and what it means. A backslash before a double quote or a
backslash escapes it, and stands for itself before any other character. -/
inductive InDouble : List Char → List Char → Prop where
  | nil : InDouble [] []
  | plain {cs ds : List Char} {c : Char} (before : InDouble cs ds) (quote : c ≠ '\x22') (backslash : c ≠ '\\') :
      InDouble (cs ++ [c]) (ds ++ [c])
  | escaped {cs ds : List Char} {c : Char} (before : InDouble cs ds) (special : c = '\x22' ∨ c = '\\') :
      InDouble (cs ++ ['\\', c]) (ds ++ [c])
  | literal {cs ds : List Char} {c : Char} (before : InDouble cs ds) (quote : c ≠ '\x22') (backslash : c ≠ '\\') :
      InDouble (cs ++ ['\\', c]) (ds ++ ['\\', c])

/-- A piece of a word, as it is written and as it is meant. -/
inductive Piece : List Char → List Char → Prop where
  | plain {c : Char} (blank : isBlank c = false) (single : c ≠ '\x27') (double : c ≠ '\x22') (backslash : c ≠ '\\') :
      Piece [c] [c]
  | escaped (c : Char) : Piece ['\\', c] [c]
  | single {cs : List Char} (inside : '\x27' ∉ cs) : Piece ('\x27' :: (cs ++ ['\x27'])) cs
  | double {cs ds : List Char} (inside : InDouble cs ds) : Piece ('\x22' :: (cs ++ ['\x22'])) ds

/-- A word, as it is written and as it is meant. -/
inductive Word : List Char → List Char → Prop where
  | piece {p d : List Char} (piece : Piece p d) : Word p d
  | append {cs ds p d : List Char} (word : Word cs ds) (piece : Piece p d) : Word (cs ++ p) (ds ++ d)

/-- A text of words, and what its words mean. Blanks separate words and may surround them. -/
inductive Layout : List Char → List (List Char) → Prop where
  | nil : Layout [] []
  | blank {cs : List Char} {ws : List (List Char)} {c : Char} (before : Layout cs ws) (blank : isBlank c = true) :
      Layout (cs ++ [c]) ws
  | first {p d : List Char} (word : Word p d) : Layout p [d]
  | next {cs p d : List Char} {ws : List (List Char)} {c : Char} (before : Layout cs ws) (blank : isBlank c = true)
      (word : Word p d) : Layout (cs ++ c :: p) (ws ++ [d])

/-- What follows a quote mark that is never closed. In double quotes a last backslash escapes nothing. -/
inductive Unclosed : QuoteMark → List Char → Prop where
  | single {cs : List Char} (inside : '\x27' ∉ cs) : Unclosed .single cs
  | double {cs ds : List Char} (inside : InDouble cs ds) : Unclosed .double cs
  | doubleBackslash {cs ds : List Char} (inside : InDouble cs ds) : Unclosed .double (cs ++ ['\\'])

/-- Words, and then a backslash outside quotes that escapes nothing. -/
def EndsInBackslash (text : List Char) : Prop := ∃ cs ws, Layout cs ws ∧ text = cs ++ ['\\']

/-- Words, and then a quote mark that is never closed. -/
def EndsInQuote (mark : QuoteMark) (text : List Char) : Prop :=
  ∃ cs ws body, Layout cs ws ∧ Unclosed mark body ∧ text = cs ++ mark.char :: body

variable {cs before p d e body text : List Char} {ws : List (List Char)} {c : Char} {state : State}

/-! ## Reading character by character -/

/-- Takes one character, with the words that are complete so far. -/
def take (r : List (List Char) × State) (c : Char) : List (List Char) × State :=
  (r.1 ++ (step r.2 c).1.toList, (step r.2 c).2)

/-- The words that are complete after a text, and where the reader stands. -/
def after (text : List Char) : List (List Char) × State := text.foldl take ([], .between)

theorem after_append (cs rest : List Char) : after (cs ++ rest) = rest.foldl take (after cs) :=
  List.foldl_append

/-- Reading to the end gives the complete words and what the end of the text completes. -/
theorem map_run (ws : List (List Char)) (state : State) (text : List Char) :
    (run state text).map (ws ++ ·)
      = (finish (text.foldl take (ws, state)).2).map ((text.foldl take (ws, state)).1 ++ ·) := by
  induction text generalizing ws state with
  | nil => rfl
  | cons c rest ih =>
    rw [List.foldl_cons, take, ← ih, run]
    cases hstep : step state c with
    | mk word next =>
      cases word with
      | none => simp
      | some word =>
        dsimp only
        cases run next rest <;> simp [Except.map]

theorem run_eq_after (text : List Char) :
    run .between text = (finish (after text).2).map ((after text).1 ++ ·) := by
  have hrun := map_run [] .between text
  cases hread : run .between text with
  | error reason => simpa [hread, Except.map, after] using hrun
  | ok words => simpa [hread, Except.map, after] using hrun

/-! ## Where a reader stands -/

/-- A text after which a word may begin. -/
def Gap (cs : List Char) (ws : List (List Char)) : Prop :=
  cs = [] ∧ ws = [] ∨ ∃ before c, Layout before ws ∧ isBlank c = true ∧ cs = before ++ [c]

/-- Complete words, and the last one, of which there may be no piece yet. -/
def Begun (cs : List Char) (ws : List (List Char)) (d : List Char) : Prop :=
  ∃ before p, Gap before ws ∧ (p = [] ∧ d = [] ∨ Word p d) ∧ cs = before ++ p

/-- What a reader has read where it stands. -/
def Stands (cs : List Char) (ws : List (List Char)) : State → Prop
  | .between => Gap cs ws
  | .bare word => ∃ before p, Gap before ws ∧ Word p word.reverse ∧ cs = before ++ p
  | .escaped word => ∃ before, Begun before ws word.reverse ∧ cs = before ++ ['\\']
  | .single word => ∃ before d body,
      Begun before ws d ∧ '\x27' ∉ body ∧ word.reverse = d ++ body ∧ cs = before ++ '\x27' :: body
  | .double word => ∃ before d body e,
      Begun before ws d ∧ InDouble body e ∧ word.reverse = d ++ e ∧ cs = before ++ '\x22' :: body
  | .doubleEscaped word => ∃ before d body e,
      Begun before ws d ∧ InDouble body e ∧ word.reverse = d ++ e ∧ cs = before ++ '\x22' :: (body ++ ['\\'])

theorem Gap.layout (h : Gap cs ws) : Layout cs ws := by
  rcases h with ⟨rfl, rfl⟩ | ⟨before, c, hbefore, hblank, rfl⟩
  · exact .nil
  · exact .blank hbefore hblank

theorem Gap.word (h : Gap cs ws) (hword : Word p d) : Layout (cs ++ p) (ws ++ [d]) := by
  rcases h with ⟨rfl, rfl⟩ | ⟨before, c, hbefore, hblank, rfl⟩
  · exact .first hword
  · rw [List.append_assoc]
    exact .next hbefore hblank hword

theorem Begun.layout (h : Begun cs ws d) : ∃ ws', Layout cs ws' := by
  obtain ⟨before, p, hgap, ⟨rfl, -⟩ | hword, rfl⟩ := h
  · exact ⟨ws, by simpa using hgap.layout⟩
  · exact ⟨_, hgap.word hword⟩

/-- One more piece of the word. -/
theorem Begun.piece (h : Begun cs ws d) (hpiece : Piece p e) :
    ∃ before q, Gap before ws ∧ Word q (d ++ e) ∧ cs ++ p = before ++ q := by
  obtain ⟨before, q, hgap, ⟨rfl, rfl⟩ | hword, rfl⟩ := h
  · exact ⟨before, p, hgap, .piece hpiece, by simp⟩
  · exact ⟨before, q ++ p, hgap, .append hword hpiece, List.append_assoc ..⟩

/-- A character outside quotes goes on with the word or begins it. -/
theorem stands_inBare {word : List Char} (h : Begun cs ws word.reverse) (hblank : isBlank c = false) :
    Stands (cs ++ [c]) ws (inBare word c) := by
  unfold inBare
  split
  next hc =>
    subst hc
    exact ⟨cs, word.reverse, [], h, List.not_mem_nil, (List.append_nil _).symm, rfl⟩
  next hsingle =>
    split
    next hc =>
      subst hc
      exact ⟨cs, word.reverse, [], [], h, .nil, (List.append_nil _).symm, rfl⟩
    next hdouble =>
      split
      next hc =>
        subst hc
        exact ⟨cs, h, rfl⟩
      next hbackslash =>
        obtain ⟨before, q, hgap, hword, heq⟩ := h.piece (.plain hblank hsingle hdouble hbackslash)
        exact ⟨before, q, hgap, by rwa [List.reverse_cons], heq⟩

/-- A character inside double quotes closes them, or goes on with what they mean. -/
theorem stands_inDouble {word : List Char} (h : Begun before ws d) (hinside : InDouble body e)
    (hmeans : word.reverse = d ++ e) : Stands (before ++ '\x22' :: (body ++ [c])) ws (inDouble word c) := by
  unfold inDouble
  split
  next hc =>
    subst hc
    obtain ⟨front, q, hgap, hword, heq⟩ := h.piece (.double hinside)
    exact ⟨front, q, hgap, hmeans ▸ hword, heq⟩
  next hquote =>
    split
    next hc =>
      subst hc
      exact ⟨before, d, body, e, h, hinside, hmeans, rfl⟩
    next hbackslash =>
      refine ⟨before, d, body ++ [c], e ++ [c], h, .plain hinside hquote hbackslash, ?_, rfl⟩
      rw [List.reverse_cons, hmeans, List.append_assoc]

/-- The character after a backslash inside double quotes. -/
theorem stands_doubleEscaped {word : List Char} (h : Begun before ws d) (hinside : InDouble body e)
    (hmeans : word.reverse = d ++ e) :
    Stands (before ++ '\x22' :: (body ++ ['\\', c])) ws (step (.doubleEscaped word) c).2 := by
  have hword (tail : List Char) : (tail.reverse ++ word).reverse = d ++ (e ++ tail) := by
    rw [List.reverse_append, hmeans, List.reverse_reverse, List.append_assoc]
  unfold step
  dsimp only
  split
  next hspecial => exact ⟨before, d, _, _, h, .escaped hinside hspecial, hword [c], rfl⟩
  next hspecial =>
    obtain ⟨hquote, hbackslash⟩ := not_or.mp hspecial
    rw [inDouble, if_neg hquote, if_neg hbackslash]
    exact ⟨before, d, _, _, h, .literal hinside hquote hbackslash, hword ['\\', c], rfl⟩

/-- Whatever character comes, the reader stands where the grammar says. -/
theorem Stands.step (h : Stands cs ws state) (c : Char) :
    Stands (cs ++ [c]) (ws ++ (step state c).1.toList) (step state c).2 := by
  cases state with
  | between =>
    simp only [Words.step, Option.toList_none, List.append_nil]
    split
    next hblank => exact .inr ⟨cs, c, Gap.layout h, hblank, rfl⟩
    next hblank => exact stands_inBare ⟨cs, [], h, .inl ⟨rfl, rfl⟩, (List.append_nil cs).symm⟩ (by simpa using hblank)
  | bare word =>
    obtain ⟨before, p, hgap, hword, rfl⟩ := h
    unfold Words.step
    dsimp only
    split
    next hblank => exact .inr ⟨before ++ p, c, hgap.word hword, hblank, rfl⟩
    next hblank =>
      rw [Option.toList_none, List.append_nil]
      exact stands_inBare ⟨before, p, hgap, .inr hword, rfl⟩ (by simpa using hblank)
  | escaped word =>
    obtain ⟨before, hbegun, rfl⟩ := h
    obtain ⟨front, q, hgap, hword, heq⟩ := hbegun.piece (.escaped c)
    rw [List.append_assoc]
    simp only [Words.step, Option.toList_none, List.append_nil]
    exact ⟨front, q, hgap, by rwa [List.reverse_cons], heq⟩
  | single word =>
    obtain ⟨before, d, body, hbegun, hinside, hmeans, rfl⟩ := h
    rw [List.append_assoc, List.cons_append]
    simp only [Words.step, Option.toList_none, List.append_nil]
    split
    next hc =>
      subst hc
      obtain ⟨front, q, hgap, hword, heq⟩ := hbegun.piece (.single hinside)
      exact ⟨front, q, hgap, hmeans ▸ hword, heq⟩
    next hquote =>
      refine ⟨before, d, body ++ [c], hbegun, ?_, ?_, rfl⟩
      · simpa [hinside] using Ne.symm hquote
      · rw [List.reverse_cons, hmeans, List.append_assoc]
  | double word =>
    obtain ⟨before, d, body, e, hbegun, hinside, hmeans, rfl⟩ := h
    rw [List.append_assoc, List.cons_append]
    simpa only [Words.step, Option.toList_none, List.append_nil] using stands_inDouble hbegun hinside hmeans
  | doubleEscaped word =>
    obtain ⟨before, d, body, e, hbegun, hinside, hmeans, rfl⟩ := h
    have hstands := @stands_doubleEscaped before d e body ws c word hbegun hinside hmeans
    have hnone : (Words.step (.doubleEscaped word) c).1 = none := rfl
    rw [hnone, Option.toList_none, List.append_nil]
    simpa using hstands

/-- After any text the reader stands where the grammar says. -/
theorem stands_after (text : List Char) : Stands text (after text).1 (after text).2 := by
  induction text using List.reverseRecOn with
  | nil => exact .inl ⟨rfl, rfl⟩
  | append_singleton cs c ih =>
    rw [after_append]
    exact ih.step c

/-! ## Where a text of words leads -/

/-- What is written between double quotes is read for what it means. -/
theorem InDouble.foldl (h : InDouble cs d) (ws : List (List Char)) (word : List Char) :
    cs.foldl take (ws, .double word) = (ws, .double (d.reverse ++ word)) := by
  induction h with
  | nil => rfl
  | plain before quote backslash ih =>
    simp [List.foldl_append, ih, take, step, inDouble, quote, backslash]
  | escaped before special ih =>
    rcases special with rfl | rfl <;> simp [List.foldl_append, ih, take, step, inDouble]
  | literal before quote backslash ih =>
    simp [List.foldl_append, ih, take, step, inDouble, quote, backslash]

theorem foldl_single (h : '\x27' ∉ cs) (ws : List (List Char)) (word : List Char) :
    cs.foldl take (ws, .single word) = (ws, .single (cs.reverse ++ word)) := by
  induction cs generalizing word with
  | nil => rfl
  | cons c cs ih =>
    obtain ⟨hc, hcs⟩ := not_or.mp (List.mem_cons.not.mp h)
    rw [List.foldl_cons, take, step]
    simp [ih hcs, Ne.symm hc]

/-- A piece is read for what it means. -/
theorem Piece.foldl (h : Piece p d) (ws : List (List Char)) (word : List Char) :
    p.foldl take (ws, .bare word) = (ws, .bare (d.reverse ++ word)) := by
  have hsingle : isBlank '\x27' = false := by decide
  have hdouble : isBlank '\x22' = false := by decide
  have hbackslash : isBlank '\\' = false := by decide
  cases h with
  | plain blank single double backslash => simp [take, step, inBare, blank, single, double, backslash]
  | escaped c => simp [take, step, inBare, hbackslash]
  | single inside =>
    rw [List.foldl_cons, take, step, List.foldl_append]
    simp [inBare, hsingle, foldl_single inside, take, step]
  | double inside =>
    rw [List.foldl_cons, take, step, List.foldl_append]
    simp [inBare, hdouble, inside.foldl, take, step, inDouble]

/-- A piece that begins a word is read like any other. -/
theorem Piece.foldl_between (h : Piece p d) (ws : List (List Char)) :
    p.foldl take (ws, .between) = p.foldl take (ws, .bare []) := by
  have hbegins (c : Char) (rest : List Char) (hc : isBlank c = false) :
      (c :: rest).foldl take (ws, .between) = (c :: rest).foldl take (ws, .bare []) := by
    simp [take, step, hc]
  cases h with
  | plain blank => exact hbegins _ _ blank
  | escaped => exact hbegins _ _ (by decide)
  | single | double => exact hbegins _ _ (by decide)

theorem Word.foldl (h : Word p d) (ws : List (List Char)) :
    p.foldl take (ws, .between) = (ws, .bare d.reverse) := by
  induction h with
  | piece piece => rw [piece.foldl_between, piece.foldl, List.append_nil]
  | append word piece ih => rw [List.foldl_append, ih, piece.foldl, List.reverse_append]

/-- After a text of words the reader stands between words, or at the end of the last. -/
theorem Layout.after_eq (h : Layout cs ws) :
    after cs = (ws, .between) ∨ ∃ before d, ws = before ++ [d] ∧ after cs = (before, .bare d.reverse) := by
  have hblank {cs : List Char} {ws : List (List Char)} {c : Char} (hc : isBlank c = true)
      (h : after cs = (ws, .between) ∨ ∃ before d, ws = before ++ [d] ∧ after cs = (before, .bare d.reverse)) :
      after (cs ++ [c]) = (ws, .between) := by
    rcases h with h | ⟨before, d, rfl, h⟩ <;> simp [after_append, h, take, step, hc]
  induction h with
  | nil => exact .inl rfl
  | blank before blank ih => exact .inl (hblank blank ih)
  | @first p d word => exact .inr ⟨[], d, rfl, word.foldl []⟩
  | @next cs p d ws c before blank word ih =>
    refine .inr ⟨ws, d, rfl, ?_⟩
    rw [List.append_cons, after_append, hblank blank ih, word.foldl]

/-! ## Which texts split -/

theorem run_of_layout (h : Layout text ws) : run .between text = .ok ws := by
  rw [run_eq_after]
  rcases h.after_eq with hafter | ⟨before, d, rfl, hafter⟩ <;> simp [hafter, finish, Except.map]

theorem run_eq_ok_iff : run .between text = .ok ws ↔ Layout text ws := by
  refine ⟨fun h => ?_, run_of_layout⟩
  have hstands := stands_after text
  rw [run_eq_after] at h
  generalize after text = r at h hstands
  obtain ⟨words, state⟩ := r
  cases state with
  | between =>
    obtain rfl : words = ws := by simpa [finish, Except.map] using h
    exact hstands.layout
  | bare word =>
    obtain ⟨before, p, hgap, hword, rfl⟩ := hstands
    obtain rfl : words ++ [word.reverse] = ws := by simpa [finish, Except.map] using h
    exact hgap.word hword
  | escaped | single | double | doubleEscaped => cases h

/-- What a text that does not split ends in. -/
def EndsUnfinished (text : List Char) : Unfinished → Prop
  | .backslash => EndsInBackslash text
  | .quote mark => EndsInQuote mark text

/-- Outside quotes a quote mark opens quotes, and a backslash waits for a character. -/
theorem Layout.opens (h : Layout cs ws) :
    ∃ words word, after (cs ++ ['\x27']) = (words, .single word) ∧ after (cs ++ ['\x22']) = (words, .double word)
      ∧ after (cs ++ ['\\']) = (words, .escaped word) := by
  have hsingle : isBlank '\x27' = false := by decide
  have hdouble : isBlank '\x22' = false := by decide
  have hbackslash : isBlank '\\' = false := by decide
  rcases h.after_eq with hafter | ⟨before, d, rfl, hafter⟩
  · exact ⟨ws, [], by simp [after_append, hafter, take, step, inBare, hsingle, hdouble, hbackslash]⟩
  · exact ⟨before, d.reverse, by simp [after_append, hafter, take, step, inBare, hsingle, hdouble, hbackslash]⟩

theorem run_of_endsUnfinished {reason : Unfinished} (h : EndsUnfinished text reason) :
    run .between text = .error reason := by
  rw [run_eq_after]
  cases reason with
  | backslash =>
    obtain ⟨cs, ws, hlayout, rfl⟩ := h
    obtain ⟨words, word, -, -, hescaped⟩ := hlayout.opens
    rw [hescaped]
    rfl
  | quote mark =>
    obtain ⟨cs, ws, body, hlayout, hbody, rfl⟩ := h
    obtain ⟨words, word, hsingle, hdouble, -⟩ := hlayout.opens
    cases hbody with
    | single inside =>
      rw [List.append_cons, after_append, QuoteMark.char, hsingle, foldl_single inside]
      rfl
    | double inside =>
      rw [List.append_cons, after_append, QuoteMark.char, hdouble, inside.foldl]
      rfl
    | doubleBackslash inside =>
      rw [List.append_cons, after_append, QuoteMark.char, hdouble, List.foldl_append, inside.foldl]
      rfl

theorem run_eq_error_iff {reason : Unfinished} :
    run .between text = .error reason ↔ EndsUnfinished text reason := by
  refine ⟨fun h => ?_, run_of_endsUnfinished⟩
  have hstands := stands_after text
  rw [run_eq_after] at h
  generalize after text = r at h hstands
  obtain ⟨words, state⟩ := r
  cases state with
  | between | bare => cases h
  | escaped word =>
    cases h
    obtain ⟨before, hbegun, rfl⟩ := hstands
    obtain ⟨ws, hlayout⟩ := hbegun.layout
    exact ⟨before, ws, hlayout, rfl⟩
  | single word =>
    cases h
    obtain ⟨before, d, body, hbegun, hinside, -, rfl⟩ := hstands
    obtain ⟨ws, hlayout⟩ := hbegun.layout
    exact ⟨before, ws, body, hlayout, .single hinside, rfl⟩
  | double word =>
    cases h
    obtain ⟨before, d, body, e, hbegun, hinside, -, rfl⟩ := hstands
    obtain ⟨ws, hlayout⟩ := hbegun.layout
    exact ⟨before, ws, body, hlayout, .double hinside, rfl⟩
  | doubleEscaped word =>
    cases h
    obtain ⟨before, d, body, e, hbegun, hinside, -, rfl⟩ := hstands
    obtain ⟨ws, hlayout⟩ := hbegun.layout
    exact ⟨before, ws, _, hlayout, .doubleBackslash hinside, rfl⟩

/-- Blanks after words complete them. -/
theorem Layout.blanks (h : Layout cs ws) {gap : List Char} (hgap : ∀ c ∈ gap, isBlank c = true) :
    Layout (cs ++ gap) ws := by
  induction gap using List.reverseRecOn with
  | nil => rwa [List.append_nil]
  | append_singleton gap c ih =>
    rw [← List.append_assoc]
    exact .blank (ih fun b hb => hgap b (List.mem_append_left _ hb)) (hgap c (by simp))

/-- What comes after words and blanks is read as if it stood alone. -/
theorem run_append (h : Layout cs ws) {gap : List Char} (hne : gap ≠ []) (hgap : ∀ c ∈ gap, isBlank c = true)
    (rest : List Char) : run .between (cs ++ gap ++ rest) = (run .between rest).map (ws ++ ·) := by
  have hafter : after (cs ++ gap) = (ws, .between) := by
    obtain ⟨front, c, rfl⟩ := List.eq_nil_or_concat gap |>.resolve_left hne
    have hlayout : Layout (cs ++ front) ws := h.blanks fun b hb => hgap b (by simp [hb])
    have hc : isBlank c = true := hgap c (by simp)
    rw [List.concat_eq_append, ← List.append_assoc, after_append]
    rcases hlayout.after_eq with hfront | ⟨before, d, rfl, hfront⟩ <;> simp [hfront, take, step, hc]
  rw [run_eq_after, after_append, hafter, map_run]

/-- The message tells what is unfinished. -/
theorem Unfinished.message_injective (input : String) : Function.Injective (Unfinished.message input) := by
  have hbackslash : message input .backslash = "Trailing backslash in argument string: " ++ input := rfl
  have hquote (mark : QuoteMark) : message input (.quote mark)
      = "Unterminated " ++ String.singleton mark.char ++ " quote in argument string: " ++ input := rfl
  have hfirst (mark : QuoteMark) : message input .backslash ≠ message input (.quote mark) := by
    intro h
    rw [hbackslash, hquote, String.append_left_inj] at h
    have hchar := congrArg (·.toList.head?) h
    simp [String.toList_append] at hchar
  intro r s h
  cases r with
  | backslash =>
    cases s with
    | backslash => rfl
    | quote mark => exact absurd h (hfirst mark)
  | quote mark =>
    cases s with
    | backslash => exact absurd h.symm (hfirst mark)
    | quote other =>
      rw [hquote, hquote, String.append_left_inj, String.append_left_inj, String.append_right_inj] at h
      cases mark <;> cases other <;> first | rfl | exact absurd h (by decide)

end Words

/-! ## Argument texts -/

namespace CommandLine

open Words

variable {text : String} {words : List String}

theorem splitArgs_of_ok (h : split text = .ok words) : splitArgs text = .ok words := by
  rw [splitArgs, h]
  rfl

theorem splitArgs_of_error {reason : Unfinished} (h : split text = .error reason) :
    splitArgs text = .error (.of .config (reason.message text)) := by
  rw [splitArgs, h]
  rfl

theorem split_eq_ok_iff : split text = .ok words ↔ Layout text.toList (words.map String.toList) := by
  rw [← run_eq_ok_iff, split]
  cases run .between text.toList with
  | error reason => simp [Except.map]
  | ok ws =>
    suffices ws.map String.ofList = words ↔ ws = words.map String.toList by simpa [Except.map]
    constructor
    · rintro rfl
      simp [Function.comp_def]
    · rintro rfl
      simp [Function.comp_def]

theorem split_eq_error_iff {reason : Unfinished} : split text = .error reason ↔ EndsUnfinished text.toList reason := by
  rw [← run_eq_error_iff, split]
  cases run .between text.toList <;> simp [Except.map]

theorem splitArgs_eq_ok_iff : splitArgs text = .ok words ↔ Layout text.toList (words.map String.toList) := by
  rw [← split_eq_ok_iff]
  cases hsplit : split text with
  | error reason => simp [splitArgs_of_error hsplit]
  | ok ws => simp [splitArgs_of_ok hsplit]

theorem splitArgs_eq_error_iff {f : Failure} :
    splitArgs text = .error f ↔ ∃ reason, EndsUnfinished text.toList reason ∧ f = .of .config (reason.message text) := by
  simp only [← split_eq_error_iff]
  cases hsplit : split text with
  | error reason => simp [splitArgs_of_error hsplit, eq_comm]
  | ok ws => simp [splitArgs_of_ok hsplit]

/-- An argument text fails with what it leaves unfinished. -/
theorem splitArgs_eq_unfinished_iff {reason : Unfinished} :
    splitArgs text = .error (.of .config (reason.message text)) ↔ EndsUnfinished text.toList reason := by
  rw [splitArgs_eq_error_iff]
  constructor
  · rintro ⟨other, hends, heq⟩
    obtain rfl : reason = other := Unfinished.message_injective text (by simpa [Failure.of] using heq)
    exact hends
  · exact fun hends => ⟨reason, hends, rfl⟩

/-- What comes after an argument text and a gap is split as if it stood alone. -/
theorem split_append {gap : String} (h : splitArgs text = .ok words) (hne : gap ≠ "")
    (hgap : ∀ c ∈ gap.toList, isBlank c = true) (rest : String) :
    split (text ++ gap ++ rest) = (split rest).map (words ++ ·) := by
  have hne' : gap.toList ≠ [] := by simpa using hne
  have hrun := run_append (splitArgs_eq_ok_iff.mp h) hne' hgap rest.toList
  rw [split, String.toList_append, String.toList_append, hrun, split]
  cases run .between rest.toList <;> simp [Except.map, Function.comp_def]

/-- An argument text is split just if it is a text of words, into what they mean. Any other one ends in a
backslash or inside quotes, which is what the failure says. Texts with blanks between them are split one by
one. -/
theorem splits_by_grammar :
    (∀ text words, splitArgs text = .ok words ↔ Layout text.toList (words.map String.toList))
      ∧ (∀ text, splitArgs text = .error (.of .config (Unfinished.backslash.message text))
          ↔ EndsInBackslash text.toList)
      ∧ (∀ text mark, splitArgs text = .error (.of .config ((Unfinished.quote mark).message text))
          ↔ EndsInQuote mark text.toList)
      ∧ (∀ text f, splitArgs text = .error f → ∃ reason : Unfinished, f = .of .config (reason.message text))
      ∧ ∀ a w b words, splitArgs a = .ok words → w ≠ "" → (∀ c ∈ w.toList, isBlank c = true) →
          ((∃ f, splitArgs (a ++ w ++ b) = .error f) ↔ ∃ f, splitArgs b = .error f)
            ∧ ∀ more, splitArgs b = .ok more → splitArgs (a ++ w ++ b) = .ok (words ++ more) := by
  refine ⟨fun text words => splitArgs_eq_ok_iff, fun text => splitArgs_eq_unfinished_iff,
    fun text mark => splitArgs_eq_unfinished_iff, ?_, ?_⟩
  · intro text f h
    obtain ⟨reason, -, rfl⟩ := splitArgs_eq_error_iff.mp h
    exact ⟨reason, rfl⟩
  · intro a w b words h hne hblank
    have hsplit := split_append h hne hblank b
    cases hrest : split b with
    | error reason =>
      rw [hrest] at hsplit
      simp [splitArgs_of_error hrest, splitArgs_of_error hsplit]
    | ok more =>
      rw [hrest] at hsplit
      simp [splitArgs_of_ok hrest, splitArgs_of_ok hsplit]

theorem splits_by_grammar_quoted : splitArgs "a 'b c'" = .ok ["a", "b c"] := by
  obtain ⟨-, -, -, -, happend⟩ := splits_by_grammar
  have hblank : ∀ c ∈ " ".toList, isBlank c = true := by
    intro c hc
    obtain rfl : c = ' ' := by simpa using hc
    rfl
  exact (happend "a" " " "'b c'" ["a"] rfl (by simp) hblank).2 ["b c"] rfl

example : splitArgs " '' x\\ 'y'z\x22\\\x22\x22 \x22\x22\t" = .ok ["", "x yz\x22", ""] := rfl

end CommandLine

end Bailiff

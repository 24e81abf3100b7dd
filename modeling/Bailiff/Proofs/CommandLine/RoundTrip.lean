-- SUMMARY: Quoted words read back: splitting the text of a command line gives its file and its arguments.
import Bailiff.Judge.Run

/-!
# Round trip of command lines

A word is written bare, in single quotes, or in single quotes that are closed around each of its own
single quotes. Whichever way it is written, a reader that stands between words takes the written
form up to its end and then stands in a bare word, with just the characters of the word read
(`Words.run_quoteChars`). The space after it completes the word, so a text of written words splits
into these words again.
-/

namespace Bailiff

namespace Words

variable {c : Char} {word rest : List Char}

/-! ## Plain characters -/

theorem isAlphanum_eq (c : Char) :
    c.isAlphanum = (decide (65 ≤ c.val ∧ c.val ≤ 90)
      || decide (97 ≤ c.val) && decide (c.val ≤ 122) || decide (48 ≤ c.val) && decide (c.val ≤ 57)) :=
  rfl

/-- A plain character has none of the codes that a reader treats in a special way. -/
theorem toNat_of_isPlain (h : isPlain c = true) :
    0x25 ≤ c.toNat ∧ c.toNat < 0x7B ∧ c.toNat ≠ 0x27 ∧ c.toNat ≠ 0x5C := by
  simp only [isPlain, isAlphanum_eq, Bool.or_eq_true, Bool.and_eq_true, decide_eq_true_eq,
    UInt32.le_iff_toNat_le] at h
  have hval : c.val.toNat = c.toNat := rfl
  rcases h with (((((((((h | h) | h) | h) | h) | h) | h) | h) | h) | h) | h
  · simp at h
    omega
  all_goals subst h; decide

theorem isBlank_of_isPlain (h : isPlain c = true) : isBlank c = false := by
  have := toNat_of_isPlain h
  simp only [isBlank, Bool.or_eq_false_iff, Bool.and_eq_false_iff, decide_eq_false_iff_not]
  omega

theorem inBare_of_isPlain (h : isPlain c = true) : inBare word c = .bare (c :: word) := by
  have hsingle : c ≠ '\x27' := by rintro rfl; revert h; decide
  have hdouble : c ≠ '\x22' := by rintro rfl; revert h; decide
  have hescape : c ≠ '\\' := by rintro rfl; revert h; decide
  simp [inBare, hsingle, hdouble, hescape]

/-! ## Reading a written word -/

theorem run_bare_plain (h : isPlain c = true) :
    run (.bare word) (c :: rest) = run (.bare (c :: word)) rest := by
  simp [run, step, isBlank_of_isPlain h, inBare_of_isPlain h]

theorem run_between_plain (h : isPlain c = true) :
    run .between (c :: rest) = run (.bare [c]) rest := by
  simp [run, step, isBlank_of_isPlain h, inBare_of_isPlain h]

/-- Plain characters are taken as they are. -/
theorem run_bare_allPlain (cs : List Char) (h : cs.all isPlain = true) :
    run (.bare word) (cs ++ rest) = run (.bare (cs.reverse ++ word)) rest := by
  induction cs generalizing word with
  | nil => rfl
  | cons c cs ih =>
    rw [List.all_cons, Bool.and_eq_true] at h
    rw [List.cons_append, run_bare_plain h.1, ih h.2]
    simp

/-- Inside single quotes the written form of a character is taken for the character. A single quote
leaves the quotes, is read in double quotes, and enters them again. -/
theorem run_single_quoteChar :
    run (.single word) (quoteChar c ++ rest) = run (.single (c :: word)) rest := by
  by_cases h : c = '\x27'
  · subst h
    rfl
  · simp [quoteChar, run, step, h]

theorem run_single_quoteChars (cs : List Char) :
    run (.single word) (cs.flatMap quoteChar ++ rest) = run (.single (cs.reverse ++ word)) rest := by
  induction cs generalizing word with
  | nil => rfl
  | cons c cs ih =>
    rw [List.flatMap_cons, List.append_assoc, run_single_quoteChar, ih]
    simp

/-- A written word is read up to its end, and nothing completes it yet. -/
theorem run_quoteChars (cs : List Char) :
    run .between (quoteChars cs ++ rest) = run (.bare cs.reverse) rest := by
  unfold quoteChars
  split
  next hempty =>
    rw [List.isEmpty_iff.mp hempty]
    rfl
  next =>
    split
    next hplain =>
      cases cs with
      | nil => contradiction
      | cons c cs =>
        rw [List.all_cons, Bool.and_eq_true] at hplain
        rw [List.cons_append, run_between_plain hplain.1, run_bare_allPlain cs hplain.2]
        simp
    next =>
      calc run .between ('\x27' :: cs.flatMap quoteChar ++ ['\x27'] ++ rest)
          = run (.single []) (cs.flatMap quoteChar ++ '\x27' :: rest) := by
            rw [List.append_assoc]
            rfl
        _ = run (.single cs.reverse) ('\x27' :: rest) := by
            rw [run_single_quoteChars, List.append_nil]
        _ = run (.bare cs.reverse) rest := rfl

/-! ## Reading written words -/

/-- A space after a word completes it. -/
theorem run_bare_space :
    run (.bare word) (' ' :: rest) = (run .between rest).map (word.reverse :: ·) := rfl

theorem run_bare_end : run (.bare word) [] = .ok [word.reverse] := rfl

/-- Written words with one space between them are read back. -/
theorem run_intercalate (words : List (List Char)) :
    run .between ([' '].intercalate (words.map quoteChars)) = .ok words := by
  induction words with
  | nil => rfl
  | cons word words ih =>
    cases words with
    | nil =>
      rw [List.map_singleton, List.intercalate_singleton, ← List.append_nil (quoteChars word),
        run_quoteChars, run_bare_end, List.reverse_reverse]
    | cons next words =>
      rw [List.map_cons, List.map_cons, List.intercalate_cons_cons, List.append_assoc,
        run_quoteChars, List.singleton_append, run_bare_space, ← List.map_cons, ih,
        List.reverse_reverse]
      rfl

theorem toList_render (words : List String) :
    (render words).toList = [' '].intercalate (words.map fun w => quoteChars w.toList) := by
  simp [render, quote, String.toList_intercalate, Function.comp_def]

theorem split_render (words : List String) : split (render words) = .ok words := by
  have hread := run_intercalate (words.map String.toList)
  rw [List.map_map] at hread
  rw [split, toList_render]
  simp only [Function.comp_def] at hread
  simp [hread, Except.map]

end Words

/-! ## Command lines -/

namespace CommandLine

/-- The text of a command line holds its file and its arguments. -/
theorem splitArgs_render (c : CommandLine) : splitArgs c.render = .ok (c.file :: c.args) := by
  rw [splitArgs, render, Words.split_render]
  rfl

theorem render_injective : Function.Injective render := by
  intro c d h
  have hsplit : splitArgs c.render = splitArgs d.render := congrArg splitArgs h
  rw [splitArgs_render, splitArgs_render] at hsplit
  cases c
  cases d
  simpa using hsplit

/-- The command text in the log event of a judge run. -/
theorem startEvent_command (i : Invocation) :
    (Judge.startEvent i).payload.lookup "command" = some (.text i.command.render) := rfl

/-- What is rendered reads back as the file and the arguments, so no two command lines look the same,
and the log of a judge run tells just what was started. -/
theorem rendered_reads_back :
    (∀ c : CommandLine, splitArgs c.render = .ok (c.file :: c.args))
      ∧ Function.Injective render
      ∧ ∀ i : Invocation, ∃ text,
          (Judge.startEvent i).payload.lookup "command" = some (.text text)
            ∧ splitArgs text = .ok (i.command.file :: i.command.args) :=
  ⟨splitArgs_render, render_injective,
    fun i => ⟨i.command.render, startEvent_command i, splitArgs_render i.command⟩⟩

end CommandLine

end Bailiff

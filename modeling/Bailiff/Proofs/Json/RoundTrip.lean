-- SUMMARY: A tree that is written on one line is read back, and its line holds no line end.
import Bailiff.Json.Reader
import Mathlib.Data.List.TakeWhile

/-!
# Written trees are read back

A reader that stands before a value and takes the characters of a tree stands behind that value
(`Json.run_chars`), whatever is open around it. A tree whose numbers are written as numbers
(`Json.IsProper`) is therefore read back from its line (`Json.read?_compact`), which holds no line end
(`Json.newline_notMem_compact`).
-/

namespace Bailiff.Json

open Reader

/-! ## Numbers -/

theorem isNumberChar_of_isDigit {c : Char} (h : c.isDigit = true) : isNumberChar c = true := by
  simp [isNumberChar, h]

/-- Leading digits are characters of numbers, so what is left decides. -/
theorem all_of_digits? {cs rest : List Char} (h : digits? cs = some rest)
    (hrest : ∀ c ∈ rest, isNumberChar c = true) : ∀ c ∈ cs, isNumberChar c = true := by
  cases cs with
  | nil => cases h
  | cons d more =>
    rw [digits?, Option.ite_none_right_eq_some] at h
    obtain ⟨hd, heq⟩ := h
    obtain rfl := Option.some.inj heq
    intro c hc
    rcases List.mem_cons.mp hc with rfl | hc
    · exact isNumberChar_of_isDigit hd
    · rw [← List.takeWhile_append_dropWhile (p := Char.isDigit) (l := more), List.mem_append] at hc
      exact hc.elim (fun hc => isNumberChar_of_isDigit (List.mem_takeWhile_imp hc)) (hrest c)

theorem all_of_integer? {cs rest : List Char} (h : integer? cs = some rest)
    (hrest : ∀ c ∈ rest, isNumberChar c = true) : ∀ c ∈ cs, isNumberChar c = true := by
  unfold integer? at h
  split at h
  · obtain rfl := Option.some.inj h
    exact List.forall_mem_cons.mpr ⟨by decide, hrest⟩
  · exact all_of_digits? h hrest

theorem all_of_isExponent {cs : List Char} (h : isExponent cs = true) : ∀ c ∈ cs, isNumberChar c = true := by
  unfold isExponent at h
  split at h
  next => exact fun c hc => absurd hc List.not_mem_nil
  next mark rest =>
    split at h
    next hmark =>
      split at h
      next s more =>
        have hdigits := all_of_digits? (of_decide_eq_true h) fun c hc => absurd hc List.not_mem_nil
        refine List.forall_mem_cons.mpr ⟨?_, ?_⟩
        · rcases hmark with rfl | rfl <;> decide
        · split at hdigits
          next hsign =>
            refine List.forall_mem_cons.mpr ⟨?_, hdigits⟩
            rcases hsign with rfl | rfl <;> decide
          next => exact hdigits
      next => cases h
    next => cases h

/-- A number without a sign. -/
def isUnsigned (cs : List Char) : Bool :=
  match integer? cs with
  | none => false
  | some ('.' :: rest) =>
    match digits? rest with
    | none => false
    | some more => isExponent more
  | some rest => isExponent rest

theorem isNumber_dash (cs : List Char) : isNumber ('-' :: cs) = isUnsigned cs := rfl

theorem isNumber_of_ne_dash {cs : List Char} (h : ∀ rest, cs ≠ '-' :: rest) : isNumber cs = isUnsigned cs := by
  unfold isNumber
  split
  next rest => exact absurd rfl (h rest)
  next => rfl

theorem all_of_isUnsigned {cs : List Char} (h : isUnsigned cs = true) : ∀ c ∈ cs, isNumberChar c = true := by
  unfold isUnsigned at h
  split at h
  next => cases h
  next rest hinteger =>
    refine all_of_integer? hinteger (List.forall_mem_cons.mpr ⟨by decide, ?_⟩)
    split at h
    next => cases h
    next more hdigits => exact all_of_digits? hdigits (all_of_isExponent h)
  next rest _ hinteger => exact all_of_integer? hinteger (all_of_isExponent h)

theorem isDigit_of_isUnsigned {cs : List Char} (h : isUnsigned cs = true) :
    ∃ c rest, cs = c :: rest ∧ c.isDigit = true := by
  have hinteger : (integer? cs).isSome := by
    unfold isUnsigned at h
    split at h
    next => cases h
    next heq => rw [heq]; rfl
    next heq => rw [heq]; rfl
  unfold integer? at hinteger
  split at hinteger
  next rest => exact ⟨'0', rest, rfl, by decide⟩
  next =>
    unfold digits? at hinteger
    split at hinteger
    next c rest _ =>
      split at hinteger
      next hc => exact ⟨c, rest, rfl, hc⟩
      next => cases hinteger
    next => cases hinteger

/-- A number has only characters of numbers, and begins with a digit or a dash. -/
theorem all_of_isNumber {cs : List Char} (h : isNumber cs = true) :
    (∀ c ∈ cs, isNumberChar c = true) ∧ ∃ c rest, cs = c :: rest ∧ (c.isDigit = true ∨ c = '-') := by
  by_cases hdash : ∃ rest, cs = '-' :: rest
  · obtain ⟨rest, rfl⟩ := hdash
    rw [isNumber_dash] at h
    exact ⟨List.forall_mem_cons.mpr ⟨by decide, all_of_isUnsigned h⟩, '-', rest, rfl, .inr rfl⟩
  · rw [isNumber_of_ne_dash (not_exists.mp hdash)] at h
    obtain ⟨c, rest, heq, hc⟩ := isDigit_of_isUnsigned h
    exact ⟨all_of_isUnsigned h, c, rest, heq, .inl hc⟩

/-! ## Trees -/

mutual

/-- All numbers of a tree are written as numbers. -/
def IsProper : Json → Prop
  | number digits => isNumber digits.toList = true
  | array items => AreProper items
  | object fields => HasProper fields
  | _ => True

/-- All numbers of some trees are written as numbers. -/
def AreProper : List Json → Prop
  | [] => True
  | item :: rest => item.IsProper ∧ AreProper rest

/-- All numbers of some fields are written as numbers. -/
def HasProper : List (String × Json) → Prop
  | [] => True
  | (_, item) :: rest => item.IsProper ∧ HasProper rest

end

variable {frames : List Frame} {key? : Option (List (String × Json))} {read rest : List Char} {c : Char} {j : Json}

/-! ## Strings -/

theorem run_cons (s : State) (c : Char) (rest : List Char) : run s (c :: rest) = (step s c).bind (run · rest) := rfl

theorem hex?_hexDigit {n : Nat} (h : n < 16) : hex? (hexDigit n) = some n := by
  have hall : ∀ n < 16, hex? (hexDigit n) = some n := by decide
  exact hall n h

/-- A character is read from its escape. -/
theorem run_escape (frames : List Frame) (key? : Option (List (String × Json))) (read : List Char) (c : Char)
    (rest : List Char) :
    run ⟨frames, .string key? read⟩ (escape c ++ rest) = run ⟨frames, .string key? (c :: read)⟩ rest := by
  unfold escape
  split
  next h => rw [h]; rfl
  split
  next h => rw [h]; rfl
  split
  next h => rw [h]; rfl
  split
  next h => rw [h]; rfl
  split
  next h => rw [h]; rfl
  split
  next h => rw [h]; rfl
  split
  next h => rw [h]; rfl
  split
  next hcontrol =>
    have hhigh := hex?_hexDigit (n := c.toNat / 16) (by omega)
    have hlow := hex?_hexDigit (n := c.toNat % 16) (by omega)
    have hzero : hex? '0' = some 0 := rfl
    have hunit : endUnit key? read c.toNat none = .string key? (c :: read) := by
      unfold endUnit
      dsimp only
      rw [if_neg (by omega), if_neg (by omega), Char.ofNat_toNat]
    have hbits : (c.toNat / 16) * 16 + c.toNat % 16 = c.toNat := Nat.div_add_mod' ..
    simp [run_cons, step, inString, hzero, hhigh, hlow, hbits, hunit]
  next hquote hslash _ _ _ _ _ hcontrol =>
    have hstep : step ⟨frames, .string key? read⟩ c = some ⟨frames, .string key? (c :: read)⟩ := by
      simp [step, inString, hquote, hslash, hcontrol]
    rw [List.singleton_append, run_cons, hstep]
    rfl

/-- The characters of a string are read up to the quote behind them. -/
theorem run_escapes (frames : List Frame) (key? : Option (List (String × Json))) (read cs rest : List Char) :
    run ⟨frames, .string key? read⟩ (cs.flatMap escape ++ '\x22' :: rest)
      = run ⟨frames, endString key? (cs.reverse ++ read)⟩ rest := by
  induction cs generalizing read with
  | nil => rfl
  | cons c cs ih =>
    rw [List.flatMap_cons, List.append_assoc, run_escape, ih, List.reverse_cons, List.append_assoc,
      List.singleton_append]

/-- A string is read, be it a value or a key. -/
theorem run_quoted {s : State} (hquote : step s '\x22' = some ⟨frames, .string key? []⟩) (text : String)
    (rest : List Char) : run s (quoted text ++ rest) = run ⟨frames, endString key? text.toList.reverse⟩ rest := by
  rw [quoted, List.append_assoc, List.cons_append, run_cons, hquote, List.singleton_append]
  exact (run_escapes frames key? [] text.toList rest).trans (by rw [List.append_nil])

theorem endString_reverse (text : String) :
    endString key? text.toList.reverse = key?.elim (.after (.string text)) (.colon · text) := by
  cases key? <;> simp [endString]

/-- A key is read, and the colon behind it. -/
theorem run_key {s : State} {fields : List (String × Json)}
    (hquote : step s '\x22' = some ⟨frames, .string (some fields) []⟩) (key : String) (rest : List Char) :
    run s (quoted key ++ ':' :: rest) = run ⟨.object fields key :: frames, .value⟩ rest := by
  rw [run_quoted hquote, endString_reverse]
  rfl

/-! ## Behind a value -/

/-- The state behind a value. A number may go on. -/
def behind (frames : List Frame) : Json → State
  | number digits => ⟨frames, .number digits.toList.reverse⟩
  | j => ⟨frames, .after j⟩

/-- A character that cannot stand in a number follows the value. -/
theorem step_behind (hj : j.IsProper) (hc : isNumberChar c = false) :
    step (behind frames j) c = afterValue frames j c := by
  cases j with
  | number digits =>
    have hdigits : isNumber digits.toList = true := by rwa [IsProper] at hj
    simp [behind, step, hc, hdigits]
  | null | bool | string | array | object => rfl

theorem result_behind (hj : j.IsProper) : result (behind [] j) = some j := by
  cases j with
  | number digits =>
    have hdigits : isNumber digits.toList = true := by rwa [IsProper] at hj
    simp [behind, result, hdigits]
  | null | bool | string | array | object => rfl

theorem run_number (frames : List Frame) {cs : List Char} (hcs : ∀ c ∈ cs, isNumberChar c = true)
    (read rest : List Char) :
    run ⟨frames, .number read⟩ (cs ++ rest) = run ⟨frames, .number (cs.reverse ++ read)⟩ rest := by
  induction cs generalizing read with
  | nil => rfl
  | cons c cs ih =>
    obtain ⟨hc, hcs⟩ := List.forall_mem_cons.mp hcs
    have hstep : step ⟨frames, .number read⟩ c = some ⟨frames, .number (c :: read)⟩ := by simp [step, hc]
    rw [List.cons_append, run_cons, hstep, Option.bind_some, ih hcs, List.reverse_cons, List.append_assoc,
      List.singleton_append]

theorem ne_of_isDigit {d : Char} (hc : c.isDigit = true) (hd : d.isDigit = false) : c ≠ d := by
  rintro rfl
  rw [hc] at hd
  cases hd

theorem isSpace_of_isDigit (hc : c.isDigit = true) : isSpace c = false := by
  simp [isSpace, ne_of_isDigit hc (show ' '.isDigit = false by decide),
    ne_of_isDigit hc (show '\n'.isDigit = false by decide), ne_of_isDigit hc (show '\r'.isDigit = false by decide),
    ne_of_isDigit hc (show '\t'.isDigit = false by decide)]

theorem step_value_number (frames : List Frame) (hc : c.isDigit = true ∨ c = '-') :
    step ⟨frames, .value⟩ c = some ⟨frames, .number [c]⟩ := by
  rcases hc with hc | rfl
  · have hother : beginValue frames c = some ⟨frames, .number [c]⟩ := by
      unfold beginValue
      rw [if_neg (ne_of_isDigit hc (by decide)), if_neg (ne_of_isDigit hc (by decide)),
        if_neg (ne_of_isDigit hc (by decide)), if_neg (ne_of_isDigit hc (by decide)),
        if_neg (ne_of_isDigit hc (by decide)), if_neg (ne_of_isDigit hc (by decide)), if_pos (.inl hc)]
    simp [step, isSpace_of_isDigit hc, hother]
  · rfl

/-- No tree begins like a blank or like the end of an array. -/
theorem chars_eq_cons (hj : j.IsProper) : ∃ c cs, j.chars = c :: cs ∧ isSpace c = false ∧ c ≠ ']' := by
  cases j with
  | null => exact ⟨_, _, rfl, by decide, by decide⟩
  | bool b => cases b <;> exact ⟨_, _, rfl, by decide, by decide⟩
  | number digits =>
    rw [IsProper] at hj
    obtain ⟨-, c, rest, heq, hc⟩ := all_of_isNumber hj
    refine ⟨c, rest, by rw [chars, heq], ?_⟩
    rcases hc with hc | rfl
    · exact ⟨isSpace_of_isDigit hc, ne_of_isDigit hc (by decide)⟩
    · exact ⟨by decide, by decide⟩
  | string text => exact ⟨_, _, rfl, by decide, by decide⟩
  | array items =>
    cases items with
    | nil => exact ⟨'[', [']'], rfl, by decide, by decide⟩
    | cons item items => exact ⟨'[', _, by rw [chars, List.cons_append], by decide, by decide⟩
  | object fields =>
    cases fields with
    | nil => exact ⟨'\x7b', ['\x7d'], rfl, by decide, by decide⟩
    | cons field fields => exact ⟨'\x7b', _, by rw [chars]; rfl, by decide, by decide⟩

/-- The first item of an array is read like any value. -/
theorem run_firstItem (hj : j.IsProper) (frames : List Frame) (rest : List Char) :
    run ⟨frames, .firstItem⟩ (j.chars ++ rest) = run ⟨.array [] :: frames, .value⟩ (j.chars ++ rest) := by
  obtain ⟨c, cs, heq, hspace, hne⟩ := chars_eq_cons hj
  have hstep : step ⟨frames, .firstItem⟩ c = step ⟨.array [] :: frames, .value⟩ c := by simp [step, hspace, hne]
  rw [heq, List.cons_append, run_cons, run_cons, hstep]

/-! ## Trees -/

mutual

/-- A value is read, whatever is open around it. -/
theorem run_chars (j : Json) (hj : j.IsProper) (frames : List Frame) (rest : List Char) :
    run ⟨frames, .value⟩ (j.chars ++ rest) = run (behind frames j) rest := by
  match j with
  | .null => rfl
  | .bool true => rfl
  | .bool false => rfl
  | .number digits =>
    rw [IsProper] at hj
    obtain ⟨hall, c, cs, heq, hc⟩ := all_of_isNumber hj
    rw [heq] at hall
    rw [chars, heq, List.cons_append, run_cons, step_value_number frames hc, Option.bind_some,
      run_number frames (List.forall_mem_cons.mp hall).2, behind, heq, List.reverse_cons]
  | .string text =>
    have hquote : step ⟨frames, .value⟩ '\x22' = some ⟨frames, .string none []⟩ := rfl
    rw [chars, run_quoted hquote, endString_reverse]
    rfl
  | .array [] => rfl
  | .array (item :: items) =>
    rw [IsProper, AreProper] at hj
    have hopen : step ⟨frames, .value⟩ '[' = some ⟨frames, .firstItem⟩ := rfl
    rw [chars, List.cons_append, List.cons_append, run_cons, hopen, Option.bind_some, List.append_assoc,
      run_firstItem hj.1, run_chars item hj.1, run_itemChars items hj.2 hj.1]
    rfl
  | .object [] => rfl
  | .object ((key, item) :: fields) =>
    rw [IsProper, HasProper] at hj
    have hopen : step ⟨frames, .value⟩ '\x7b' = some ⟨frames, .firstKey []⟩ := rfl
    have hquote : step ⟨frames, .firstKey []⟩ '\x22' = some ⟨frames, .string (some []) []⟩ := rfl
    simp only [chars, List.cons_append, List.append_assoc]
    rw [run_cons, hopen, Option.bind_some, run_key hquote, run_chars item hj.1, run_fieldChars fields hj.2 key hj.1]
    rfl

/-- The rest of an array is read. -/
theorem run_itemChars (items : List Json) (hitems : AreProper items) {j : Json} (hj : j.IsProper)
    (frames : List Frame) (before : List Json) (rest : List Char) :
    run (behind (.array before :: frames) j) (itemChars items ++ rest)
      = run ⟨frames, .after (.array (before.reverse ++ j :: items))⟩ rest := by
  match items with
  | [] =>
    have hclose : afterValue (.array before :: frames) j ']'
        = some ⟨frames, .after (.array (j :: before).reverse)⟩ := rfl
    rw [itemChars, List.singleton_append, run_cons, step_behind hj (by decide), hclose, List.reverse_cons]
    rfl
  | item :: more =>
    rw [AreProper] at hitems
    have hcomma : afterValue (.array before :: frames) j ',' = some ⟨.array (j :: before) :: frames, .value⟩ := rfl
    rw [itemChars, List.cons_append, List.cons_append, run_cons, step_behind hj (by decide), hcomma, Option.bind_some,
      List.append_assoc, run_chars item hitems.1, run_itemChars more hitems.2 hitems.1, List.reverse_cons,
      List.append_assoc, List.singleton_append]

/-- The rest of an object is read. -/
theorem run_fieldChars (fields : List (String × Json)) (hfields : HasProper fields) (key : String) {j : Json}
    (hj : j.IsProper) (frames : List Frame) (before : List (String × Json)) (rest : List Char) :
    run (behind (.object before key :: frames) j) (fieldChars fields ++ rest)
      = run ⟨frames, .after (.object (before.reverse ++ (key, j) :: fields))⟩ rest := by
  match fields with
  | [] =>
    have hclose : afterValue (.object before key :: frames) j '\x7d'
        = some ⟨frames, .after (.object ((key, j) :: before).reverse)⟩ := rfl
    rw [fieldChars, List.singleton_append, run_cons, step_behind hj (by decide), hclose, List.reverse_cons]
    rfl
  | (name, item) :: more =>
    rw [HasProper] at hfields
    have hcomma : afterValue (.object before key :: frames) j ',' = some ⟨frames, .nextKey ((key, j) :: before)⟩ := rfl
    have hquote : step ⟨frames, .nextKey ((key, j) :: before)⟩ '\x22'
        = some ⟨frames, .string (some ((key, j) :: before)) []⟩ := rfl
    simp only [fieldChars, List.cons_append, List.append_assoc]
    rw [run_cons, step_behind hj (by decide), hcomma, Option.bind_some, run_key hquote, run_chars item hfields.1,
      run_fieldChars more hfields.2 name hfields.1, List.reverse_cons, List.append_assoc, List.singleton_append]

end

/-- A tree is read back from its line. -/
theorem read?_compact (hj : j.IsProper) : read? j.compact = some j := by
  have hrun := run_chars j hj [] []
  rw [List.append_nil] at hrun
  rw [read?, compact, String.toList_ofList, hrun]
  exact result_behind hj

/-! ## Lines -/

theorem newline_notMem_escape (c : Char) : '\n' ∉ escape c := by
  unfold escape
  split
  next => decide
  split
  next => decide
  split
  next => decide
  split
  next => decide
  split
  next => decide
  split
  next => decide
  split
  next => decide
  split
  next hcontrol =>
    have hdigit : ∀ n < 16, '\n' ≠ hexDigit n := by decide
    simp [hdigit (c.toNat / 16) (by omega), hdigit (c.toNat % 16) (by omega)]
  next hnewline _ _ _ =>
    rw [List.mem_singleton]
    exact Ne.symm hnewline

theorem newline_notMem_quoted (text : String) : '\n' ∉ quoted text := by
  simp only [quoted, List.cons_append, List.mem_cons, List.mem_append, List.mem_flatMap, List.not_mem_nil]
  rintro (h | ⟨c, -, hc⟩ | h | h)
  · exact absurd h (by decide)
  · exact newline_notMem_escape c hc
  · exact absurd h (by decide)
  · exact h

mutual

/-- The characters of a tree are all on one line. -/
theorem newline_notMem_chars (j : Json) (hj : j.IsProper) : '\n' ∉ j.chars := by
  match j with
  | .null | .bool true | .bool false | .array [] | .object [] =>
    rw [chars]
    decide
  | .number digits =>
    rw [IsProper] at hj
    rw [chars]
    intro h
    cases (all_of_isNumber hj).1 _ h
  | .string text =>
    rw [chars]
    exact newline_notMem_quoted text
  | .array (item :: items) =>
    rw [IsProper, AreProper] at hj
    simp [chars, newline_notMem_chars item hj.1, newline_notMem_itemChars items hj.2]
  | .object ((key, item) :: fields) =>
    rw [IsProper, HasProper] at hj
    simp [chars, newline_notMem_quoted key, newline_notMem_chars item hj.1, newline_notMem_fieldChars fields hj.2]

theorem newline_notMem_itemChars (items : List Json) (hitems : AreProper items) : '\n' ∉ itemChars items := by
  match items with
  | [] =>
    rw [itemChars]
    decide
  | item :: more =>
    rw [AreProper] at hitems
    simp [itemChars, newline_notMem_chars item hitems.1, newline_notMem_itemChars more hitems.2]

theorem newline_notMem_fieldChars (fields : List (String × Json)) (hfields : HasProper fields) :
    '\n' ∉ fieldChars fields := by
  match fields with
  | [] =>
    rw [fieldChars]
    decide
  | (key, item) :: more =>
    rw [HasProper] at hfields
    simp [fieldChars, newline_notMem_quoted key, newline_notMem_chars item hfields.1,
      newline_notMem_fieldChars more hfields.2]

end

theorem newline_notMem_compact (hj : j.IsProper) : '\n' ∉ j.compact.toList := by
  rw [compact, String.toList_ofList]
  exact newline_notMem_chars j hj

end Bailiff.Json

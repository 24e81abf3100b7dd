-- SUMMARY: Octets read as text: characters as they are encoded, and one replacement character for each ill-formed part.
import Bailiff.Text.Utf8
import Mathlib.Data.List.Infix

/-!
# Reading octets

Octets are shown as text piece by piece (`Utf8.Shows`): where the encoding of a character stands, the character is
shown, and otherwise a replacement character for the longest part that begins like a character, or for a single
octet that does not. A decoder inside a character knows just how the octets read so far go on to an encoding
(`Utf8.Awaits`), so it shows octets in this way and in no other (`Utf8.shows_iff`), and encoded text is read back
(`Utf8.decode_encode`).
-/

namespace Bailiff.Utf8

/-! ## Octets as text -/

/-- The octets are the beginning of the encoding of a character, or all of it. -/
def Begins (part : List UInt8) : Prop := ∃ c, part <+: String.utf8EncodeChar c

/-- An ill-formed part at the beginning of octets. No character stands there, and the part is the longest one that
begins like a character, or a single octet if none does. -/
structure IsIllFormed (part octets : List UInt8) : Prop where
  isThere : part <+: octets
  noChar : ∀ c, ¬String.utf8EncodeChar c <+: octets
  nonempty : part ≠ []
  begins : part.length = 1 ∨ Begins part
  longest : ∀ longer, longer <+: octets → Begins longer → longer.length ≤ part.length

/-- Octets and the characters that are shown for them. -/
inductive Shows : List UInt8 → List Char → Prop where
  | nil : Shows [] []
  | char {c : Char} {rest : List UInt8} {cs : List Char} (more : Shows rest cs) :
      Shows (String.utf8EncodeChar c ++ rest) (c :: cs)
  | illFormed {part rest : List UInt8} {cs : List Char} (illFormed : IsIllFormed part (part ++ rest))
      (more : Shows rest cs) : Shows (part ++ rest) (replacement :: cs)

variable {n m missing least greatest bits b : Nat} {read t : List Nat} {c : Char}

/-! ## Encodings -/

/-- The octets of a code point. -/
def codes (n : Nat) : List Nat :=
  if n ≤ 0x7F then [n]
  else if n ≤ 0x7FF then [0xC0 + n / 64, 0x80 + n % 64]
  else if n ≤ 0xFFFF then [0xE0 + n / 4096, 0x80 + n / 64 % 64, 0x80 + n % 64]
  else [0xF0 + n / 262144, 0x80 + n / 4096 % 64, 0x80 + n / 64 % 64, 0x80 + n % 64]

theorem toNat_encodeChar (c : Char) : (String.utf8EncodeChar c).map UInt8.toNat = codes c.toNat := by
  have hval : c.val.toNat = c.toNat := rfl
  have hlt : c.toNat < 0x110000 := by
    have := c.valid
    unfold UInt32.isValidChar Nat.isValidChar at this
    omega
  have hoctet (k : Nat) (hk : k < 256) : (UInt8.ofNat k).toNat = k := UInt8.toNat_ofNat_of_lt' hk
  unfold String.utf8EncodeChar codes
  simp only [hval]
  split
  · rw [List.map_singleton, hoctet _ (by omega)]
  split
  · simp only [List.map_cons, List.map_nil, List.cons.injEq, and_true]
    rw [hoctet _ (by omega), hoctet _ (by omega)]
    omega
  split
  · simp only [List.map_cons, List.map_nil, List.cons.injEq, and_true]
    rw [hoctet _ (by omega), hoctet _ (by omega), hoctet _ (by omega)]
    omega
  · simp only [List.map_cons, List.map_nil, List.cons.injEq, and_true]
    rw [hoctet _ (by omega), hoctet _ (by omega), hoctet _ (by omega), hoctet _ (by omega)]
    omega

/-- As many octets as are missing, the first of them within its range and the others continuing. -/
def Fits : Nat → Nat → Nat → List Nat → Prop
  | missing, _, _, [] => missing = 0
  | missing, least, greatest, b :: t => 0 < missing ∧ least ≤ b ∧ b ≤ greatest ∧ Fits (missing - 1) 0x80 0xBF t

/-- The bits read so far, and those of more octets. -/
def extend (bits : Nat) (t : List Nat) : Nat := t.foldl (fun n b => n * 64 + (b - 0x80)) bits

theorem extend_nil (bits : Nat) : extend bits [] = bits := rfl

theorem extend_cons (bits b : Nat) (t : List Nat) : extend bits (b :: t) = extend (bits * 64 + (b - 0x80)) t :=
  List.foldl_cons ..

/-- What a decoder inside a character knows: just the octets that fit complete those read so far to an encoding,
and it is that of their bits. -/
structure Awaits (read : List Nat) (missing least greatest bits : Nat) : Prop where
  codes_eq_iff : ∀ n t, n.isValidChar → (codes n = read ++ t ↔ Fits missing least greatest t ∧ n = extend bits t)
  valid : ∀ t, Fits missing least greatest t → (extend bits t).isValidChar
  pos : 0 < missing
  range : least ≤ greatest

/-- One more octet that fits is read. -/
theorem Awaits.next (h : Awaits read missing least greatest bits) (hmissing : 1 < missing) (hleast : least ≤ b)
    (hgreatest : b ≤ greatest) :
    Awaits (read ++ [b]) (missing - 1) 0x80 0xBF (bits * 64 + (b - 0x80)) := by
  have hfits (t : List Nat) (ht : Fits (missing - 1) 0x80 0xBF t) : Fits missing least greatest (b :: t) :=
    ⟨h.pos, hleast, hgreatest, ht⟩
  refine ⟨fun n t hn => ?_, fun t ht => extend_cons bits b t ▸ h.valid (b :: t) (hfits t ht), by omega, by decide⟩
  rw [List.append_assoc, List.singleton_append, h.codes_eq_iff n (b :: t) hn, extend_cons]
  exact ⟨fun ⟨hf, heq⟩ => ⟨hf.2.2.2, heq⟩, fun ⟨hf, heq⟩ => ⟨hfits t hf, heq⟩⟩

/-! ## First octets -/

theorem fits_zero : Fits 0 least greatest t ↔ t = [] := by
  cases t <;> simp [Fits]

theorem fits_succ :
    Fits (m + 1) least greatest t ↔ ∃ b t', t = b :: t' ∧ least ≤ b ∧ b ≤ greatest ∧ Fits m 0x80 0xBF t' := by
  cases t <;> simp [Fits]

theorem isValidChar_iff : n.isValidChar ↔ n < 0xD800 ∨ 0xDFFF < n ∧ n < 0x110000 := Iff.rfl

theorem awaits_two (hlow : 0xC2 ≤ b) (hhigh : b < 0xE0) : Awaits [b] 1 0x80 0xBF (b - 0xC0) := by
  have hfits (t : List Nat) : Fits 1 0x80 0xBF t ↔ ∃ d, t = [d] ∧ 0x80 ≤ d ∧ d ≤ 0xBF := by
    simp [fits_succ, fits_zero]
  constructor
  · intro n t _
    rw [hfits]
    constructor
    · intro h
      unfold codes at h
      split_ifs at h <;> simp only [List.singleton_append, List.cons.injEq] at h
      · omega
      · obtain ⟨rfl, rfl⟩ := h
        refine ⟨⟨_, rfl, by omega, by omega⟩, ?_⟩
        rw [extend_cons, extend_nil]
        omega
      · omega
      · omega
    · rintro ⟨⟨d, rfl, hd⟩, heq⟩
      rw [extend_cons, extend_nil] at heq
      unfold codes
      rw [if_neg (by omega), if_pos (by omega), List.singleton_append, List.cons.injEq, List.cons.injEq]
      exact ⟨by omega, by omega, rfl⟩
  · intro t ht
    obtain ⟨d, rfl, hd⟩ := (hfits t).mp ht
    rw [isValidChar_iff, extend_cons, extend_nil]
    omega
  · decide
  · decide

theorem awaits_three (hlow : 0xE0 ≤ b) (hhigh : b < 0xF0) (hleast : least = if b = 0xE0 then 0xA0 else 0x80)
    (hgreatest : greatest = if b = 0xED then 0x9F else 0xBF) : Awaits [b] 2 least greatest (b - 0xE0) := by
  have hfits (t : List Nat) : Fits 2 least greatest t
      ↔ ∃ d e, t = [d, e] ∧ least ≤ d ∧ d ≤ greatest ∧ 0x80 ≤ e ∧ e ≤ 0xBF := by
    constructor
    · intro h
      obtain ⟨d, _, rfl, hd, hd', h⟩ := fits_succ.mp h
      obtain ⟨e, _, rfl, he, he', h⟩ := fits_succ.mp h
      obtain rfl := fits_zero.mp h
      exact ⟨d, e, rfl, hd, hd', he, he'⟩
    · rintro ⟨d, e, rfl, hd, hd', he, he'⟩
      exact fits_succ.mpr ⟨d, _, rfl, hd, hd', fits_succ.mpr ⟨e, _, rfl, he, he', fits_zero.mpr rfl⟩⟩
  constructor
  · intro n t hn
    rw [isValidChar_iff] at hn
    rw [hfits]
    constructor
    · intro h
      unfold codes at h
      split_ifs at h <;> simp only [List.singleton_append, List.cons.injEq] at h
      · omega
      · omega
      · obtain ⟨rfl, rfl⟩ := h
        refine ⟨⟨_, _, rfl, ?_⟩, ?_⟩
        · split_ifs at hleast hgreatest <;> omega
        · rw [extend_cons, extend_cons, extend_nil]
          omega
      · omega
    · rintro ⟨⟨d, e, rfl, hd, hd', he⟩, heq⟩
      rw [extend_cons, extend_cons, extend_nil] at heq
      have hrange : 0x80 ≤ d ∧ d ≤ 0xBF ∧ (b = 0xE0 → 0xA0 ≤ d) := by
        split_ifs at hleast hgreatest <;> omega
      unfold codes
      rw [if_neg (by omega), if_neg (by omega), if_pos (by omega), List.singleton_append, List.cons.injEq,
        List.cons.injEq, List.cons.injEq]
      exact ⟨by omega, by omega, by omega, rfl⟩
  · intro t ht
    obtain ⟨d, e, rfl, hd, hd', he⟩ := (hfits t).mp ht
    rw [isValidChar_iff, extend_cons, extend_cons, extend_nil]
    split_ifs at hleast hgreatest <;> omega
  · decide
  · split_ifs at hleast hgreatest <;> omega

theorem awaits_four (hlow : 0xF0 ≤ b) (hhigh : b ≤ 0xF4) (hleast : least = if b = 0xF0 then 0x90 else 0x80)
    (hgreatest : greatest = if b = 0xF4 then 0x8F else 0xBF) : Awaits [b] 3 least greatest (b - 0xF0) := by
  have hfits (t : List Nat) : Fits 3 least greatest t
      ↔ ∃ d e f, t = [d, e, f] ∧ least ≤ d ∧ d ≤ greatest ∧ 0x80 ≤ e ∧ e ≤ 0xBF ∧ 0x80 ≤ f ∧ f ≤ 0xBF := by
    constructor
    · intro h
      obtain ⟨d, _, rfl, hd, hd', h⟩ := fits_succ.mp h
      obtain ⟨e, _, rfl, he, he', h⟩ := fits_succ.mp h
      obtain ⟨f, _, rfl, hf, hf', h⟩ := fits_succ.mp h
      obtain rfl := fits_zero.mp h
      exact ⟨d, e, f, rfl, hd, hd', he, he', hf, hf'⟩
    · rintro ⟨d, e, f, rfl, hd, hd', he, he', hf, hf'⟩
      exact fits_succ.mpr ⟨d, _, rfl, hd, hd', fits_succ.mpr ⟨e, _, rfl, he, he',
        fits_succ.mpr ⟨f, _, rfl, hf, hf', fits_zero.mpr rfl⟩⟩⟩
  constructor
  · intro n t hn
    rw [isValidChar_iff] at hn
    rw [hfits]
    constructor
    · intro h
      unfold codes at h
      split_ifs at h <;> simp only [List.singleton_append, List.cons.injEq] at h
      · omega
      · omega
      · omega
      · obtain ⟨rfl, rfl⟩ := h
        refine ⟨⟨_, _, _, rfl, ?_⟩, ?_⟩
        · split_ifs at hleast hgreatest <;> omega
        · rw [extend_cons, extend_cons, extend_cons, extend_nil]
          omega
    · rintro ⟨⟨d, e, f, rfl, hd, hd', he⟩, heq⟩
      rw [extend_cons, extend_cons, extend_cons, extend_nil] at heq
      have hrange : 0x80 ≤ d ∧ d ≤ 0xBF ∧ (b = 0xF0 → 0x90 ≤ d) := by
        split_ifs at hleast hgreatest <;> omega
      unfold codes
      rw [if_neg (by omega), if_neg (by omega), if_neg (by omega), List.singleton_append, List.cons.injEq,
        List.cons.injEq, List.cons.injEq, List.cons.injEq]
      exact ⟨by omega, by omega, by omega, by omega, rfl⟩
  · intro t ht
    obtain ⟨d, e, f, rfl, hd, hd', he⟩ := (hfits t).mp ht
    rw [isValidChar_iff, extend_cons, extend_cons, extend_cons, extend_nil]
    split_ifs at hleast hgreatest <;> omega
  · decide
  · split_ifs at hleast hgreatest <;> omega

/-- What the first octet of a character tells. -/
inductive Starts (b : Nat) : Prop where
  | char (start_eq : start b = ([Char.ofNat b], .between)) (valid : b.isValidChar)
      (codes_iff : ∀ n t, n.isValidChar → (codes n = b :: t ↔ n = b ∧ t = []))
  | inside (missing least greatest bits : Nat) (start_eq : start b = ([], .inside missing least greatest bits))
      (awaits : Awaits [b] missing least greatest bits)
  | never (start_eq : start b = ([replacement], .between)) (never : ∀ n t, n.isValidChar → codes n ≠ b :: t)

theorem starts_char (h : b < 0x80) : Starts b := by
  refine .char (if_pos h) (.inl (by omega)) fun n t _ => ?_
  unfold codes
  split_ifs <;> simp only [List.cons.injEq, @eq_comm _ [] t] <;> omega

/-- Octets that continue a character, and those that no character has. -/
theorem starts_never (h : 0x80 ≤ b ∧ b < 0xC2 ∨ 0xF4 < b) : Starts b := by
  refine .never ?_ fun n t hn => ?_
  · unfold start
    split_ifs <;> first | rfl | omega
  · rw [isValidChar_iff] at hn
    unfold codes
    split_ifs <;> simp only [ne_eq, List.cons.injEq] <;> omega

theorem starts (b : Nat) : Starts b := by
  have hstart : start b = start b := rfl
  conv at hstart => rhs; unfold start
  split_ifs at hstart
  · exact starts_char (by omega)
  · exact starts_never (by omega)
  · exact .inside _ _ _ _ hstart (awaits_two (by omega) (by omega))
  · refine .inside _ _ _ _ hstart (awaits_three (by omega) (by omega) ?_ ?_) <;> simp [*]
  · refine .inside _ _ _ _ hstart (awaits_three (by omega) (by omega) ?_ ?_) <;> simp [*]
  · refine .inside _ _ _ _ hstart (awaits_three (by omega) (by omega) ?_ ?_) <;> simp [*]
  · refine .inside _ _ _ _ hstart (awaits_four (by omega) (by omega) ?_ ?_) <;> simp [*]
  · refine .inside _ _ _ _ hstart (awaits_four (by omega) (by omega) ?_ ?_) <;> simp [*]
    omega
  · refine .inside _ _ _ _ hstart (awaits_four (by omega) (by omega) ?_ ?_) <;> simp [*]
  · exact starts_never (by omega)

/-! ## Reading encodings -/

variable {octets rest part : List UInt8} {octet : UInt8}

theorem run_between_cons (octet : UInt8) (rest : List UInt8) :
    run .between (octet :: rest) = (start octet.toNat).1 ++ run (start octet.toNat).2 rest := rfl

/-- The last octet of a character. -/
theorem run_last (hrange : least ≤ octet.toNat ∧ octet.toNat ≤ greatest) (hmissing : missing ≤ 1) (bits : Nat)
    (rest : List UInt8) : run (.inside missing least greatest bits) (octet :: rest)
      = Char.ofNat (bits * 64 + (octet.toNat - 0x80)) :: run .between rest := by
  rw [run, step, if_pos hrange]
  dsimp only
  rw [if_pos hmissing]
  rfl

theorem run_more (hrange : least ≤ octet.toNat ∧ octet.toNat ≤ greatest) (hmissing : 1 < missing) (bits : Nat)
    (rest : List UInt8) : run (.inside missing least greatest bits) (octet :: rest)
      = run (.inside (missing - 1) 0x80 0xBF (bits * 64 + (octet.toNat - 0x80))) rest := by
  rw [run, step, if_pos hrange]
  dsimp only
  rw [if_neg (by omega)]
  rfl

/-- An octet that does not go on with a character is read afresh. -/
theorem run_refused (hrange : ¬(least ≤ octet.toNat ∧ octet.toNat ≤ greatest)) (missing bits : Nat)
    (rest : List UInt8) : run (.inside missing least greatest bits) (octet :: rest)
      = replacement :: run .between (octet :: rest) := by
  rw [run, step, if_neg hrange]
  rfl

/-- Octets that fit are read to the end of their character. -/
theorem run_fits (hmissing : 0 < missing) (hfits : Fits missing least greatest (part.map UInt8.toNat))
    (rest : List UInt8) : run (.inside missing least greatest bits) (part ++ rest)
      = Char.ofNat (extend bits (part.map UInt8.toNat)) :: run .between rest := by
  induction part generalizing missing least greatest bits with
  | nil =>
    have hnone : missing = 0 := hfits
    omega
  | cons octet part ih =>
    obtain ⟨-, hleast, hgreatest, hmore⟩ := hfits
    rw [List.cons_append, List.map_cons, extend_cons]
    by_cases hlast : missing ≤ 1
    · obtain rfl : missing = 1 := by omega
      obtain rfl := List.map_eq_nil_iff.mp (fits_zero.mp hmore)
      exact run_last ⟨hleast, hgreatest⟩ (Nat.le_refl 1) bits rest
    · rw [run_more ⟨hleast, hgreatest⟩ (by omega)]
      exact ih (by omega) hmore

theorem isValidChar_toNat (c : Char) : c.toNat.isValidChar := c.valid

/-- The encoding of a character is read as that character. -/
theorem run_encodeChar (c : Char) (rest : List UInt8) :
    run .between (String.utf8EncodeChar c ++ rest) = c :: run .between rest := by
  have hcodes := toNat_encodeChar c
  cases hoctets : String.utf8EncodeChar c with
  | nil => exact absurd hoctets String.utf8EncodeChar_ne_nil
  | cons octet part =>
    rw [hoctets, List.map_cons] at hcodes
    rw [List.cons_append, run_between_cons]
    cases starts octet.toNat with
    | char start_eq valid codes_iff =>
      obtain ⟨heq, hpart⟩ := (codes_iff _ _ (isValidChar_toNat c)).mp hcodes.symm
      obtain rfl := List.map_eq_nil_iff.mp hpart
      rw [start_eq, ← heq, Char.ofNat_toNat]
      rfl
    | inside missing least greatest bits start_eq awaits =>
      obtain ⟨hfits, heq⟩ := (awaits.codes_eq_iff _ _ (isValidChar_toNat c)).mp hcodes.symm
      rw [start_eq, List.nil_append, run_fits awaits.pos hfits, ← heq, Char.ofNat_toNat]
    | never _ never => exact absurd hcodes.symm (never _ _ (isValidChar_toNat c))

/-- Which character begins octets, and what follows it. -/
theorem encodeChar_append_inj {d : Char} {xs ys : List UInt8}
    (h : String.utf8EncodeChar c ++ xs = String.utf8EncodeChar d ++ ys) : c = d ∧ xs = ys := by
  have hrun := congrArg (run .between) h
  rw [run_encodeChar, run_encodeChar] at hrun
  obtain rfl := (List.cons.inj hrun).1
  exact ⟨rfl, List.append_cancel_left h⟩

theorem toList_loop (bytes : ByteArray) (i : Nat) (r : List UInt8) :
    ByteArray.toList.loop bytes i r = r.reverse ++ bytes.data.toList.drop i := by
  fun_induction ByteArray.toList.loop bytes i r with
  | case1 i r h ih =>
    have hlt : i < bytes.data.toList.length := h
    rw [ih, List.drop_eq_getElem_cons hlt, List.reverse_cons, List.append_assoc, List.singleton_append,
      ByteArray.get!, getElem!_pos bytes.data i h, Array.getElem_toList]
  | case2 i r h =>
    have hge : bytes.data.toList.length ≤ i := Nat.le_of_not_lt h
    rw [List.drop_eq_nil_of_le hge, List.append_nil]

theorem toUTF8_toList (s : String) : s.toUTF8.toList = s.toList.flatMap String.utf8EncodeChar := by
  conv => lhs; rw [← String.ofList_toList (s := s)]
  rw [String.toUTF8_eq_toByteArray, ByteArray.toList, toList_loop]
  exact List.toList_data_toByteArray

/-- Encoded text is read back. -/
theorem decode_encode (s : String) : decode (encode s) = s := by
  have hrun (cs : List Char) : run .between (cs.flatMap String.utf8EncodeChar) = cs := by
    induction cs with
    | nil => rfl
    | cons c cs ih => rw [List.flatMap_cons, run_encodeChar, ih]
  rw [decode, encode, toUTF8_toList, hrun, String.ofList_toList]

/-! ## Octets are shown in one way -/

theorem toNat_map_inj {xs ys : List UInt8} (h : xs.map UInt8.toNat = ys.map UInt8.toNat) : xs = ys :=
  List.map_injective_iff.mpr (fun _ _ => UInt8.toNat_inj.mp) h

/-- The encoding of a valid code point. -/
theorem toNat_encodeChar_ofNat (hn : n.isValidChar) :
    (String.utf8EncodeChar (Char.ofNat n)).map UInt8.toNat = codes n := by
  rw [toNat_encodeChar, Char.ofNat, dif_pos hn]
  rfl

theorem exists_fits (missing : Nat) (hrange : least ≤ greatest) : ∃ t, Fits missing least greatest t := by
  induction missing generalizing least greatest with
  | zero => exact ⟨[], fits_zero.mpr rfl⟩
  | succ m ih =>
    obtain ⟨t, ht⟩ := ih (show 0x80 ≤ 0xBF by decide)
    exact ⟨least :: t, fits_succ.mpr ⟨least, t, rfl, Nat.le_refl _, hrange, ht⟩⟩

/-- Octets after which a decoder waits for more begin like a character. -/
theorem Awaits.begins (h : Awaits (part.map UInt8.toNat) missing least greatest bits) : Begins part := by
  obtain ⟨t, ht⟩ := exists_fits missing h.range
  have hvalid := h.valid t ht
  refine ⟨Char.ofNat (extend bits t), (List.prefix_map_iff_of_injective fun _ _ => UInt8.toNat_inj.mp).mp ?_⟩
  rw [toNat_encodeChar_ofNat hvalid]
  exact ⟨t, ((h.codes_eq_iff _ t hvalid).mpr ⟨ht, rfl⟩).symm⟩

/-- A character that begins with the octets read goes on with octets that fit. -/
theorem Awaits.fits_of_encodeChar (h : Awaits (part.map UInt8.toNat) missing least greatest bits)
    (heq : String.utf8EncodeChar c = part ++ rest) : Fits missing least greatest (rest.map UInt8.toNat) := by
  have hcodes := toNat_encodeChar c
  rw [heq, List.map_append] at hcodes
  exact ((h.codes_eq_iff _ _ (isValidChar_toNat c)).mp hcodes.symm).1

/-- Octets after which a decoder waits for more are ill-formed if no octet that fits comes next. -/
theorem Awaits.isIllFormed (h : Awaits (part.map UInt8.toNat) missing least greatest bits) (hpart : part ≠ [])
    (hrefused : ∀ b ∈ octets.head?, ¬(least ≤ b.toNat ∧ b.toNat ≤ greatest)) :
    IsIllFormed part (part ++ octets) := by
  -- No octets that are there fit.
  have hnone (more rest : List UInt8) (hmore : more <+: octets)
      (hfits : Fits missing least greatest ((more ++ rest).map UInt8.toNat)) : more = [] := by
    cases more with
    | nil => rfl
    | cons b more =>
      obtain ⟨_, rfl⟩ := hmore
      exact absurd ⟨hfits.2.1, hfits.2.2.1⟩ (hrefused b rfl)
  refine ⟨List.prefix_append .., ?_, hpart, .inr h.begins, ?_⟩
  · intro c hc
    -- The character is not a proper beginning of the part, for the part begins like one.
    have hprefix : part <+: String.utf8EncodeChar c := by
      refine (List.prefix_or_prefix_of_prefix (List.prefix_append ..) hc).elim id fun ⟨more, hmore⟩ => ?_
      obtain ⟨d, rest, hd⟩ := h.begins
      rw [← hmore, List.append_assoc] at hd
      obtain ⟨-, hrest⟩ := encodeChar_append_inj (hd.trans (List.append_nil _).symm)
      rw [(List.append_eq_nil_iff.mp hrest).1, List.append_nil] at hmore
      rw [hmore]
    obtain ⟨more, hmore⟩ := hprefix
    have hfits := h.fits_of_encodeChar hmore.symm
    rw [← hmore] at hc
    obtain rfl := hnone more [] ((List.prefix_append_right_inj _).mp hc) (by rwa [List.append_nil])
    exact absurd hfits h.pos.ne'
  · rintro longer hlonger ⟨c, rest, hc⟩
    refine Nat.le_of_not_lt fun hlength => ?_
    obtain ⟨more, rfl⟩ := List.prefix_of_prefix_length_le (List.prefix_append part octets) hlonger hlength.le
    rw [List.append_assoc] at hc
    obtain rfl := hnone more rest ((List.prefix_append_right_inj _).mp hlonger) (h.fits_of_encodeChar hc.symm)
    rw [List.append_nil] at hlength
    exact Nat.lt_irrefl _ hlength

/-- An octet that no character begins with is ill-formed. -/
theorem isIllFormed_never (never : ∀ n t, n.isValidChar → codes n ≠ octet.toNat :: t) (rest : List UInt8) :
    IsIllFormed [octet] (octet :: rest) := by
  have hnone (c : Char) (t : List UInt8) : String.utf8EncodeChar c ≠ octet :: t := fun heq =>
    never c.toNat (t.map UInt8.toNat) (isValidChar_toNat c) (by rw [← toNat_encodeChar, heq, List.map_cons])
  refine ⟨⟨rest, rfl⟩, ?_, List.cons_ne_nil _ _, .inl rfl, ?_⟩
  · intro c hc
    cases hoctets : String.utf8EncodeChar c with
    | nil => exact absurd hoctets String.utf8EncodeChar_ne_nil
    | cons b t =>
      rw [hoctets] at hc
      obtain rfl := (List.cons_prefix_cons.mp hc).1
      exact hnone c t hoctets
  · rintro longer hlonger ⟨c, more, hc⟩
    cases longer with
    | nil => exact Nat.zero_le _
    | cons b t =>
      obtain rfl := (List.cons_prefix_cons.mp hlonger).1
      exact absurd hc.symm (hnone c (t ++ more))

/-- The decoder shows octets piece by piece. Inside a character, it shows the octets of that character with the
others. -/
theorem shows_run (octets : List UInt8) : Shows octets (run .between octets)
    ∧ ∀ part missing least greatest bits, part ≠ [] → Awaits (part.map UInt8.toNat) missing least greatest bits →
      Shows (part ++ octets) (run (.inside missing least greatest bits) octets) := by
  induction octets with
  | nil => exact ⟨.nil, fun part _ _ _ _ hpart h => .illFormed (h.isIllFormed hpart fun _ hb => nomatch hb) .nil⟩
  | cons octet octets ih =>
    obtain ⟨ih, ih_inside⟩ := ih
    have hbetween : Shows (octet :: octets) (run .between (octet :: octets)) := by
      rw [run_between_cons]
      cases starts octet.toNat with
      | char start_eq valid codes_iff =>
        have hencode : String.utf8EncodeChar (Char.ofNat octet.toNat) = [octet] := by
          refine toNat_map_inj ?_
          rw [toNat_encodeChar_ofNat valid]
          exact (codes_iff _ [] valid).mpr ⟨rfl, rfl⟩
        rw [start_eq, ← List.singleton_append, ← hencode]
        exact .char ih
      | inside missing least greatest bits start_eq awaits =>
        rw [start_eq]
        exact ih_inside [octet] missing least greatest bits (List.cons_ne_nil _ _) awaits
      | never start_eq never =>
        rw [start_eq]
        exact @Shows.illFormed [octet] _ _ (isIllFormed_never never octets) ih
    refine ⟨hbetween, fun part missing least greatest bits hpart h => ?_⟩
    by_cases hrange : least ≤ octet.toNat ∧ octet.toNat ≤ greatest
    · rw [List.append_cons]
      by_cases hlast : missing ≤ 1
      · have hfits : Fits missing least greatest [octet.toNat] :=
          ⟨h.pos, hrange.1, hrange.2, Nat.sub_eq_zero_of_le hlast⟩
        have hextend : extend bits [octet.toNat] = bits * 64 + (octet.toNat - 0x80) := by
          rw [extend_cons, extend_nil]
        have hvalid := hextend ▸ h.valid _ hfits
        have hencode : String.utf8EncodeChar (Char.ofNat (bits * 64 + (octet.toNat - 0x80))) = part ++ [octet] := by
          refine toNat_map_inj ?_
          rw [toNat_encodeChar_ofNat hvalid, List.map_append]
          exact (h.codes_eq_iff _ _ hvalid).mpr ⟨hfits, hextend.symm⟩
        rw [run_last hrange hlast, ← hencode]
        exact .char ih
      · rw [run_more hrange (by omega)]
        refine ih_inside (part ++ [octet]) _ _ _ _ (List.append_ne_nil_of_left_ne_nil hpart _) ?_
        rw [List.map_append]
        exact h.next (by omega) hrange.1 hrange.2
    · rw [run_refused hrange]
      exact .illFormed (h.isIllFormed hpart fun b hb => Option.some.inj hb ▸ hrange) hbetween

/-- Ill-formed parts at the beginning of the same octets are the same. -/
theorem IsIllFormed.unique {part' : List UInt8} (h : IsIllFormed part octets) (h' : IsIllFormed part' octets) :
    part = part' := by
  have hle {p q : List UInt8} (hp : IsIllFormed p octets) (hq : IsIllFormed q octets) : p.length ≤ q.length := by
    refine hp.begins.elim (fun hone => ?_) (hq.longest p hp.isThere)
    exact hone ▸ List.length_pos_of_ne_nil hq.nonempty
  have hprefix := List.prefix_of_prefix_length_le h.isThere h'.isThere (hle h h')
  exact hprefix.eq_of_length (Nat.le_antisymm (hle h h') (hle h' h))

/-- Octets are shown in one way only. -/
theorem Shows.unique {cs ds : List Char} (h : Shows octets cs) (h' : Shows octets ds) : cs = ds := by
  induction h generalizing ds with
  | nil =>
    generalize hoctets : ([] : List UInt8) = octets at h'
    cases h' with
    | nil => rfl
    | char _ => exact absurd (List.append_eq_nil_iff.mp hoctets.symm).1 String.utf8EncodeChar_ne_nil
    | illFormed hpart _ => exact absurd (List.append_eq_nil_iff.mp hoctets.symm).1 hpart.nonempty
  | @char c rest cs _ ih =>
    generalize hoctets : String.utf8EncodeChar c ++ rest = octets at h'
    cases h' with
    | nil => exact absurd (List.append_eq_nil_iff.mp hoctets).1 String.utf8EncodeChar_ne_nil
    | char more =>
      obtain ⟨rfl, rfl⟩ := encodeChar_append_inj hoctets
      rw [ih more]
    | illFormed hpart _ => exact absurd ⟨rest, hoctets⟩ (hpart.noChar c)
  | @illFormed part rest cs hpart _ ih =>
    generalize hoctets : part ++ rest = octets at h'
    cases h' with
    | nil => exact absurd (List.append_eq_nil_iff.mp hoctets).1 hpart.nonempty
    | @char d rest' _ _ => exact absurd ⟨rest', hoctets.symm⟩ (hpart.noChar d)
    | illFormed hpart' more =>
      obtain rfl := hpart.unique (hoctets ▸ hpart')
      rw [ih (List.append_cancel_left hoctets ▸ more)]

/-- The decoder shows octets in the one way there is. -/
theorem shows_iff {cs : List Char} : Shows octets cs ↔ decode octets = String.ofList cs := by
  rw [decode, String.ofList_inj]
  exact ⟨fun h => (shows_run octets).1.unique h, fun h => h ▸ (shows_run octets).1⟩

end Bailiff.Utf8

-- SUMMARY: The tree of a value has numbers that are written as numbers, and shows the value.
import Bailiff.Proofs.Json.RoundTrip
import Bailiff.Proofs.Number.Text
import Bailiff.Value

/-!
# Trees of values

A numeral is a JSON number (`IsNumeral.isNumber`), and finite numbers are written as numerals with a sign perhaps
(`Binary64.isNumber_text`). So the tree of any value is proper (`Value.isProper_toJson?`). What a tree tells of the
values that JSON knows is `Value.Shows`, and the tree of such a value shows it (`Value.shows_toJson?`).
-/

namespace Bailiff

variable {cs : List Char} {d : Decimal}

/-! ## Numerals -/

theorem digits?_append {ds rest : List Char} (hne : ds ≠ []) (hds : AreDigits ds) (hrest : StopsDigits rest) :
    Json.digits? (ds ++ rest) = some rest := by
  cases ds with
  | nil => exact absurd rfl hne
  | cons c ds =>
    obtain ⟨hc, hds⟩ := List.forall_mem_cons.mp hds
    rw [List.cons_append, Json.digits?, if_pos hc, (takeWhile_digits hds hrest).2]

theorem integer?_append {whole rest : List Char} (hwhole : IsWhole whole) (hrest : StopsDigits rest) :
    Json.integer? (whole ++ rest) = some rest := by
  rcases hwhole with rfl | ⟨c, ds, rfl, hc, hdigits⟩
  · rfl
  · rw [← digits?_append (List.cons_ne_nil c ds) hdigits hrest, List.cons_append, Json.integer?]
    rintro _ heq
    exact hc (List.cons.inj heq).1

theorem isExponent_mark {mark : List Char} {e : Int} (h : IsMark mark e) : Json.isExponent mark = true := by
  have hend {ds : List Char} (hne : ds ≠ []) (hds : AreDigits ds) : Json.digits? ds = some [] := by
    have h := digits?_append hne hds stopsDigits_nil
    rwa [List.append_nil] at h
  cases h with
  | none => rfl
  | up ne_nil digits => simp [Json.isExponent, hend ne_nil digits]
  | down ne_nil digits => simp [Json.isExponent, hend ne_nil digits]

theorem IsNumeral.isUnsigned (h : IsNumeral cs d) : Json.isUnsigned cs = true := by
  cases h with
  | @intro whole part mark e hwhole hpart hmark =>
    have hexponent := isExponent_mark hmark
    unfold Json.isUnsigned
    rw [integer?_append hwhole (hmark.stopsDigits_fraction part)]
    cases part with
    | nil => cases hmark <;> exact hexponent
    | cons c rest =>
      rw [fraction_of_ne_nil (List.cons_ne_nil c rest), List.cons_append]
      simp only [digits?_append (List.cons_ne_nil c rest) hpart hmark.stopsDigits, hexponent]

/-- A numeral is a number, with a sign and without. -/
theorem IsNumeral.isNumber (h : IsNumeral cs d) : Json.isNumber cs = true ∧ Json.isNumber ('-' :: cs) = true := by
  refine ⟨?_, h.isUnsigned⟩
  have hunsigned := h.isUnsigned
  rwa [Json.isNumber_of_ne_dash]
  rintro rest rfl
  cases hunsigned

/-! ## Finite numbers -/

namespace Binary64

theorem isNumber_signed {text : String} (h : IsNumeral text.toList d) (negative : Bool) :
    Json.isNumber (if negative then "-" ++ text else text).toList = true := by
  cases negative with
  | false => exact h.isNumber.1
  | true =>
    rw [if_pos rfl, String.toList_append]
    exact h.isNumber.2

theorem isNumber_integerText (n : Int) : Json.isNumber (integerText n).toList = true := by
  have hsigned := isNumber_signed (isNumeral_natural n.natAbs) (n < 0)
  rw [integerText]
  simpa only [decide_eq_true_eq] using hsigned

/-- A finite number is written as a number. -/
theorem isNumber_text {x : Binary64} (hx : x.isFinite = true) : Json.isNumber x.text.toList = true := by
  cases x with
  | nan | infinite => cases hx
  | finite s m q =>
    obtain ⟨d', hlayout⟩ := isNumeral_of_isWritten (isWritten_shortest s m q)
    have hsigned := isNumber_signed hlayout s
    rw [text]
    split
    next n _ =>
      split
      next => exact isNumber_integerText n
      next => exact hsigned
    next => exact hsigned

end Binary64

/-! ## Trees -/

namespace Value

theorem isProper_numberToJson (x : Binary64) : (numberToJson x).IsProper := by
  unfold numberToJson
  split
  next hx =>
    rw [Json.IsProper]
    exact Binary64.isNumber_text hx
  next => trivial

theorem hasProper_indexedOctets (bytes : List UInt8) : Json.HasProper (indexedOctets bytes) := by
  unfold indexedOctets
  induction bytes.zipIdx with
  | nil => trivial
  | cons octet rest ih =>
    refine ⟨?_, ih⟩
    rw [Json.IsProper]
    exact Binary64.isNumber_integerText _

mutual

/-- The tree of a value has numbers that are written as numbers. -/
theorem isProper_toJson? (v : Value) {j : Json} (h : v.toJson? = some j) : j.IsProper := by
  match v with
  | .absent => cases h
  | .null | .bool b | .text s =>
    obtain rfl := Option.some.inj h
    trivial
  | .number x =>
    obtain rfl := Option.some.inj h
    exact isProper_numberToJson x
  | .octets bytes =>
    obtain rfl := Option.some.inj h
    exact hasProper_indexedOctets bytes
  | .date ms =>
    obtain rfl := Option.some.inj h
    cases Instant.ofNumber? ms <;> trivial
  | .list items =>
    obtain rfl := Option.some.inj h
    exact areProper_listToJson items
  | .record fields =>
    obtain rfl := Option.some.inj h
    exact hasProper_fieldsToJson fields

theorem areProper_listToJson (items : List Value) : Json.AreProper (listToJson items) := by
  match items with
  | [] => trivial
  | item :: rest =>
    refine ⟨?_, areProper_listToJson rest⟩
    cases hitem : item.toJson? with
    | none => trivial
    | some j => exact isProper_toJson? item hitem

theorem hasProper_fieldsToJson (fields : List (String × Value)) : Json.HasProper (fieldsToJson fields) := by
  match fields with
  | [] => trivial
  | (key, item) :: rest =>
    rw [fieldsToJson]
    split
    next j hitem => exact ⟨isProper_toJson? item hitem, hasProper_fieldsToJson rest⟩
    next => exact hasProper_fieldsToJson rest

end

/-! ## What a tree shows -/

mutual

/-- A value that JSON knows. -/
def IsJson : Value → Prop
  | null | bool _ | number _ | text _ => True
  | list items => AreJson items
  | record fields => HasJson fields
  | absent | octets _ | date _ => False

def AreJson : List Value → Prop
  | [] => True
  | item :: rest => item.IsJson ∧ AreJson rest

def HasJson : List (String × Value) → Prop
  | [] => True
  | (_, item) :: rest => item.IsJson ∧ HasJson rest

end

mutual

/-- A tree shows a value. A number has digits that are read as it, and is `null` if it is not finite. -/
inductive Shows : Value → Json → Prop where
  | null : Shows .null .null
  | bool (b : Bool) : Shows (.bool b) (.bool b)
  | number {x : Binary64} {digits : String} (finite : x.isFinite = true)
      (reads : x.IsDouble → (Binary64.ofText digits).same x = true) : Shows (.number x) (.number digits)
  | nonFinite {x : Binary64} (nonFinite : x.isFinite = false) : Shows (.number x) .null
  | text (s : String) : Shows (.text s) (.string s)
  | list {items : List Value} {trees : List Json} (items_show : ShowsItems items trees) :
      Shows (.list items) (.array trees)
  | record {fields : List (String × Value)} {trees : List (String × Json)} (fields_show : ShowsFields fields trees) :
      Shows (.record fields) (.object trees)

/-- Trees show values one by one. -/
inductive ShowsItems : List Value → List Json → Prop where
  | nil : ShowsItems [] []
  | cons {v : Value} {j : Json} {items : List Value} {trees : List Json} (shows : Shows v j)
      (rest : ShowsItems items trees) : ShowsItems (v :: items) (j :: trees)

/-- The fields of an object show those of a record, in the same order and under the same keys. -/
inductive ShowsFields : List (String × Value) → List (String × Json) → Prop where
  | nil : ShowsFields [] []
  | cons {key : String} {v : Value} {j : Json} {fields : List (String × Value)} {trees : List (String × Json)}
      (shows : Shows v j) (rest : ShowsFields fields trees) : ShowsFields ((key, v) :: fields) ((key, j) :: trees)

end

theorem shows_numberToJson (x : Binary64) : Shows (number x) (numberToJson x) := by
  unfold numberToJson
  split
  next hfinite => exact .number hfinite (Binary64.same_ofText_text hfinite)
  next hfinite => exact .nonFinite (Bool.not_eq_true _ ▸ hfinite)

mutual

/-- The tree of a value shows it. -/
theorem shows_toJson? (v : Value) (hv : v.IsJson) : ∃ j, v.toJson? = some j ∧ v.Shows j := by
  match v with
  | .null => exact ⟨_, rfl, .null⟩
  | .bool b => exact ⟨_, rfl, .bool b⟩
  | .number x => exact ⟨_, rfl, shows_numberToJson x⟩
  | .text s => exact ⟨_, rfl, .text s⟩
  | .list items => exact ⟨_, rfl, .list (showsItems_listToJson items hv)⟩
  | .record fields => exact ⟨_, rfl, .record (showsFields_fieldsToJson fields hv)⟩

theorem showsItems_listToJson (items : List Value) (hitems : AreJson items) : ShowsItems items (listToJson items) := by
  match items with
  | [] => exact .nil
  | item :: rest =>
    obtain ⟨hitem, hrest⟩ := hitems
    obtain ⟨j, hj, hshows⟩ := shows_toJson? item hitem
    rw [listToJson, hj]
    exact .cons hshows (showsItems_listToJson rest hrest)

theorem showsFields_fieldsToJson (fields : List (String × Value)) (hfields : HasJson fields) :
    ShowsFields fields (fieldsToJson fields) := by
  match fields with
  | [] => exact .nil
  | (key, item) :: rest =>
    obtain ⟨hitem, hrest⟩ := hfields
    obtain ⟨j, hj, hshows⟩ := shows_toJson? item hitem
    rw [fieldsToJson, hj]
    exact .cons hshows (showsFields_fieldsToJson rest hrest)

end

end Value

end Bailiff

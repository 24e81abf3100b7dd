-- SUMMARY: Loosely typed values: what options, payloads and thrown things may hold.
import Bailiff.Json.Basic
import Bailiff.Number.Reading
import Bailiff.Time.Calendar

/-!
# Values

A value is anything that can stand in a log payload, an option or a cell. `Value.describe` is its
plain text and `Value.toJson?` its JSON tree.
-/

namespace Bailiff

inductive Value where
  | absent
  | null
  | bool (b : Bool)
  | number (x : Binary64)
  | text (s : String)
  | octets (bytes : List UInt8)
  | date (ms : Binary64)
  | list (items : List Value)
  | record (fields : List (String × Value))
  deriving Repr, Inhabited

namespace Value

/-! ## Building -/

def nat (n : Nat) : Value := number (.ofNat n)

def int (n : Int) : Value := number (.ofInt n)

def texts (items : List String) : Value := list (items.map text)

/-- The value, or `absent`. -/
def ofOption {α : Type} (f : α → Value) : Option α → Value
  | some a => f a
  | none => absent

/-- The value, or `null`. -/
def orNull {α : Type} (f : α → Value) : Option α → Value
  | some a => f a
  | none => null

/-! ## Access -/

/-- The value of a field; `absent` when there is none. -/
def field (v : Value) (key : String) : Value :=
  match v with
  | record fields => ((fields.find? (fun f => f.1 = key)).map (·.2)).getD absent
  | _ => absent

def isAbsent : Value → Bool
  | absent => true
  | _ => false

/-- Neither absent nor null. -/
def isPresent : Value → Bool
  | absent => false
  | null => false
  | _ => true

def text? : Value → Option String
  | text s => some s
  | _ => none

def number? : Value → Option Binary64
  | number x => some x
  | _ => none

def bool? : Value → Option Bool
  | bool b => some b
  | _ => none

def items : Value → List Value
  | list items => items
  | _ => []

/-! ## Plain text -/

mutual

/-- The plain text of a value: lists are joined by commas, and what is missing in them is empty. -/
def describe : Value → String
  | absent => "undefined"
  | null => "null"
  | bool b => if b then "true" else "false"
  | number x => x.text
  | text s => s
  | octets bytes => ",".intercalate (bytes.map fun b => Binary64.integerText b.toNat)
  | date ms => match Instant.ofNumber? ms with
    | some t => t.long
    | none => "Invalid Date"
  | list items => ",".intercalate (describeItems items)
  | record _ => "[object Object]"

/-- The plain texts of the items of a list. -/
def describeItems : List Value → List String
  | [] => []
  | absent :: rest => "" :: describeItems rest
  | null :: rest => "" :: describeItems rest
  | item :: rest => describe item :: describeItems rest

end

/-! ## JSON -/

/-- The JSON tree of a number. What is not finite has none and becomes `null`. -/
def numberToJson (x : Binary64) : Json := if x.isFinite then .number x.text else .null

/-- An octet under its index. -/
def indexedOctets (bytes : List UInt8) : List (String × Json) :=
  bytes.zipIdx.map fun (b, i) =>
    (Binary64.integerText i, .number (Binary64.integerText b.toNat))

mutual

/-- The JSON tree of a value. An absent value has none: as a field it is left out, in a list it is
`null`. -/
def toJson? : Value → Option Json
  | absent => none
  | null => some .null
  | bool b => some (.bool b)
  | number x => some (numberToJson x)
  | text s => some (.string s)
  | octets bytes => some (.object (indexedOctets bytes))
  | date ms => some ((Instant.ofNumber? ms).elim .null fun t => .string t.iso)
  | list items => some (.array (listToJson items))
  | record fields => some (.object (fieldsToJson fields))

/-- The JSON trees of the items of a list. -/
def listToJson : List Value → List Json
  | [] => []
  | item :: rest => (toJson? item).getD .null :: listToJson rest

/-- The fields that have a JSON tree. -/
def fieldsToJson : List (String × Value) → List (String × Json)
  | [] => []
  | (key, item) :: rest =>
    match toJson? item with
    | some j => (key, j) :: fieldsToJson rest
    | none => fieldsToJson rest

end

/-- The JSON tree of a value, `null` for an absent one. -/
def toJson (v : Value) : Json := v.toJson?.getD .null

mutual

/-- The value of a JSON tree. -/
def ofJson : Json → Value
  | .null => null
  | .bool b => bool b
  | .number digits => number (.ofText digits)
  | .string s => text s
  | .array items => list (ofJsonItems items)
  | .object fields => record (ofJsonFields fields)

/-- The values of JSON trees. -/
def ofJsonItems : List Json → List Value
  | [] => []
  | j :: rest => ofJson j :: ofJsonItems rest

/-- The fields of a JSON object as values. -/
def ofJsonFields : List (String × Json) → List (String × Value)
  | [] => []
  | (key, j) :: rest => (key, ofJson j) :: ofJsonFields rest

end

end Value

end Bailiff

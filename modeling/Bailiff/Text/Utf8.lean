-- SUMMARY: Decoding of arbitrary octets as UTF-8, with a replacement character for each ill-formed part.

/-!
# UTF-8 with replacement

`Utf8.decode` reads any list of octets. Every maximal beginning of a character that cannot be
continued becomes one `U+FFFD`, and the octet that broke it off is read afresh.
-/

namespace Bailiff.Utf8

/-- Where a decoder stands: between two characters, or inside one, with the number of octets still
missing, the range that the next one must be in, and the bits read so far. -/
inductive State where
  | between
  | inside (missing : Nat) (least greatest : Nat) (bits : Nat)
  deriving DecidableEq, Repr

/-- The replacement character. -/
def replacement : Char := Char.ofNat 0xFFFD

/-- Reads the first octet of a character. -/
def start (b : Nat) : List Char × State :=
  if b < 0x80 then ([Char.ofNat b], .between)
  else if b < 0xC2 then ([replacement], .between)
  else if b < 0xE0 then ([], .inside 1 0x80 0xBF (b - 0xC0))
  else if b = 0xE0 then ([], .inside 2 0xA0 0xBF (b - 0xE0))
  else if b = 0xED then ([], .inside 2 0x80 0x9F (b - 0xE0))
  else if b < 0xF0 then ([], .inside 2 0x80 0xBF (b - 0xE0))
  else if b = 0xF0 then ([], .inside 3 0x90 0xBF (b - 0xF0))
  else if b < 0xF4 then ([], .inside 3 0x80 0xBF (b - 0xF0))
  else if b = 0xF4 then ([], .inside 3 0x80 0x8F (b - 0xF0))
  else ([replacement], .between)

/-- Reads one octet. -/
def step (state : State) (b : Nat) : List Char × State :=
  match state with
  | .between => start b
  | .inside missing least greatest bits =>
    if least ≤ b ∧ b ≤ greatest then
      let bits := bits * 64 + (b - 0x80)
      if missing ≤ 1 then ([Char.ofNat bits], .between)
      else ([], .inside (missing - 1) 0x80 0xBF bits)
    else
      let (read, next) := start b
      (replacement :: read, next)

/-- Reads octets to their end, where an unfinished character is ill-formed. -/
def run : State → List UInt8 → List Char
  | .between, [] => []
  | .inside .., [] => [replacement]
  | state, b :: rest =>
    let (read, next) := step state b.toNat
    read ++ run next rest

/-- The text of octets. -/
def decode (octets : List UInt8) : String := String.ofList (run .between octets)

/-- The octets of a text. -/
def encode (s : String) : List UInt8 := s.toUTF8.toList

end Bailiff.Utf8

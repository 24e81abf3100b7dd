-- SUMMARY: Reading the many ways in which instants are written.
import Bailiff.Text.Basic
import Bailiff.Time.Calendar

/-!
# Reading instants

The text is cut into tokens. It is read as an ISO 8601 date or date and time first; where that stops,
a lenient reading goes on with what is left: month names, clock times with AM and PM, zone names and
offsets, and numbers in the order of month, day and year. Local time is UTC.
-/

namespace Bailiff

namespace DateText

/-! ## Tokens -/

inductive Token where
  | number (value length : Nat)
  | symbol (c : Char)
  /-- The first three letters of a word, in lower case, and its length. -/
  | word (letters : List Char) (length : Nat)
  | blank
  | other
  deriving DecidableEq, Repr

/-- More digits than this do not count. -/
def maxDigits : Nat := 9

/-- The value of digits, leading zeros aside. -/
def digitsValue (digits : List Char) : Nat :=
  ((digits.dropWhile (· = '0')).take maxDigits).foldl (fun n c => 10 * n + (c.toNat - '0'.toNat)) 0

def isWordChar (c : Char) : Bool := 'A' ≤ c && !isBlank c

/-- What follows a parenthesis and all that it encloses. -/
def afterParentheses : Nat → List Char → List Char
  | _, [] => []
  | depth, c :: rest =>
    if c = '(' then afterParentheses (depth + 1) rest
    else if c = ')' then if depth ≤ 1 then rest else afterParentheses (depth - 1) rest
    else afterParentheses depth rest

/-- The tokens of a text, at most the given number. -/
def tokens : Nat → List Char → List Token
  | 0, _ => []
  | _, [] => []
  | n + 1, c :: rest =>
    if c.isDigit then
      let digits := c :: rest.takeWhile Char.isDigit
      .number (digitsValue digits) digits.length :: tokens n (rest.dropWhile Char.isDigit)
    else if [':', '-', '+', '.', ')'].contains c then .symbol c :: tokens n rest
    else if isWordChar c then
      let word := c :: rest.takeWhile isWordChar
      .word ((word.take 3).map Char.toLower) word.length :: tokens n (rest.dropWhile isWordChar)
    else if isBlank c then .blank :: tokens n rest
    else if c = '(' then .other :: tokens n (afterParentheses 0 (c :: rest))
    else .other :: tokens n rest

/-! ## Words -/

/-- What a word means in a date. -/
inductive Meaning where
  | month (n : Nat)
  /-- The hours that a half of the day adds. -/
  | half (hours : Nat)
  | zone (hours : Int)
  | timeMark
  | nothing
  deriving DecidableEq, Repr

def monthNames : List String :=
  ["jan", "feb", "mar", "apr", "may", "jun", "jul", "aug", "sep", "oct", "nov", "dec"]

def zones : List (String × Int) :=
  [("ut", 0), ("utc", 0), ("z", 0), ("gmt", 0), ("est", -5), ("edt", -4), ("cst", -6), ("cdt", -5),
    ("mst", -7), ("mdt", -6), ("pst", -8), ("pdt", -7)]

/-- The meaning of a word. Only the names of months may be longer than three letters. -/
def meaning (letters : List Char) (length : Nat) : Meaning :=
  let name := String.ofList letters
  match monthNames.findIdx? (· = name) with
  | some i => .month (i + 1)
  | none =>
    if 3 < length then .nothing
    else if name = "am" then .half 0
    else if name = "pm" then .half 12
    else if name = "t" then .timeMark
    else (zones.lookup name).elim .nothing .zone

/-! ## Parts of a date -/

structure Parts where
  /-- Up to three numbers of the day. -/
  day : List Int := []
  namedMonth : Option Nat := none
  isIso : Bool := false
  /-- Hours, minutes, seconds and milliseconds, as far as they have been read. -/
  time : List Nat := []
  half : Option Nat := none
  sign : Option Int := none
  zoneHours : Option Nat := none
  zoneMinutes : Option Nat := none
  deriving DecidableEq, Repr

namespace Parts

def isMinute (n : Nat) : Bool := n < 60

/-- Whether a number fits as the next part of a time that has begun. -/
def expectsTime (p : Parts) (n : Nat) : Bool :=
  match p.time.length with
  | 1 => isMinute n
  | 2 => isMinute n
  | 3 => n < 1000
  | _ => false

def expectsZone (p : Parts) (n : Nat) : Bool :=
  p.zoneHours.isSome && p.zoneMinutes.isNone && isMinute n

def isUtc (p : Parts) : Bool := p.zoneHours = some 0 && p.zoneMinutes = some 0

def addDay (p : Parts) (n : Int) : Option Parts :=
  if p.day.length < 3 then some { p with day := p.day ++ [n] } else none

def addTime (p : Parts) (n : Nat) : Option Parts :=
  if p.time.length < 4 then some { p with time := p.time ++ [n] } else none

/-- The last part of a time: the others are zero. -/
def endTime (p : Parts) (n : Nat) : Parts :=
  { p with time := ((p.time ++ [n]) ++ [0, 0, 0, 0]).take 4 }

def setZone (p : Parts) (hours : Int) : Parts :=
  { p with
    sign := some (if hours < 0 then -1 else 1)
    zoneHours := some hours.natAbs
    zoneMinutes := some 0 }

/-- The milliseconds that digits after a point mean. -/
def milliseconds (value length : Nat) : Nat :=
  if length = 1 then value * 100
  else if length = 2 then value * 10
  else value / Nat.pow 10 (min length maxDigits - 3)

def inDay (n : Int) : Bool := 1 ≤ n && n ≤ 31

/-- Year, month and day. Years of up to two digits belong to the years from 1950 to 2049. -/
def date? (p : Parts) : Option (Int × Int × Int) :=
  match p.day with
  | [] => none
  | _ =>
    match p.day ++ [1, 1] with
    | a :: b :: c :: _ =>
      let (year, month, day) : Int × Int × Int :=
        match p.namedMonth with
        | none => if p.isIso || !inDay a then (a, b, c) else (c, a, b)
        | some m => if inDay a then (b, m, a) else (a, m, b)
      let year :=
        if p.isIso then year
        else if 0 ≤ year ∧ year ≤ 49 then year + 2000
        else if 50 ≤ year ∧ year ≤ 99 then year + 1900
        else year
      if 1 ≤ month ∧ month ≤ 12 ∧ inDay day then some (year, month, day) else none
    | _ => none

/-- The milliseconds from midnight. The last midnight of a day counts as the hour 24. -/
def time? (p : Parts) : Option Int :=
  match p.time ++ [0, 0, 0, 0] with
  | h :: m :: s :: ms :: _ =>
    let hour? : Option Nat := match p.half with
      | none => some h
      | some half => if h ≤ 12 then some (h % 12 + half) else none
    match hour? with
    | none => none
    | some h =>
      if (h < 24 ∧ isMinute m ∧ isMinute s ∧ ms < 1000) ∨ (h = 24 ∧ m = 0 ∧ s = 0 ∧ ms = 0) then
        some (((h * 60 + m) * 60 + s) * 1000 + ms : Nat)
      else none
  | _ => none

/-- The milliseconds by which the written time is ahead of UTC. -/
def offset (p : Parts) : Int :=
  match p.sign with
  | some sign => sign * (((p.zoneHours.getD 0) * 60 + p.zoneMinutes.getD 0) * 60000 : Nat)
  | none => 0

def instant? (p : Parts) : Option Instant :=
  match p.date?, p.time? with
  | some (year, month, day), some time =>
    let ms := dayNumber year month day * Instant.msPerDay + time - p.offset
    if ms.natAbs ≤ Instant.maxMs.natAbs then some ⟨ms⟩ else none
  | _, _ => none

end Parts

/-! ## ISO 8601 -/

/-- Where the strict reading ends: at the end of the text, in something that cannot be read, or
before tokens that the lenient reading takes over. -/
inductive Verdict where
  | complete (p : Parts)
  | invalid
  | left (p : Parts) (rest : List Token)
  deriving Repr

/-- A zone after a time, up to the end of the text. -/
def isoZone (p : Parts) : List Token → Verdict
  | [] => .complete { p with isIso := true }
  | [.word ['z'] _] => .complete { p.setZone 0 with isIso := true }
  | [.symbol c, .number n 4] =>
    if (c = '+' ∨ c = '-') ∧ n / 100 < 24 ∧ n % 100 < 60 then
      .complete
        { p with
          isIso := true
          sign := some (if c = '+' then 1 else -1)
          zoneHours := some (n / 100)
          zoneMinutes := some (n % 100) }
    else .invalid
  | [.symbol c, .number h 2, .symbol ':', .number m 2] =>
    if (c = '+' ∨ c = '-') ∧ h < 24 ∧ m < 60 then
      .complete
        { p with
          isIso := true
          sign := some (if c = '+' then 1 else -1)
          zoneHours := some h
          zoneMinutes := some m }
    else .invalid
  | _ => .invalid

/-- A time after its mark. Midnight may be written as the hour 24. -/
def isoTime (p : Parts) : List Token → Verdict
  | .number h 2 :: .symbol ':' :: .number m 2 :: rest =>
    let fits (n : Nat) : Bool := n < 60 && (h < 24 || n = 0)
    if h ≤ 24 ∧ fits m then
      match rest with
      | .symbol ':' :: .number s 2 :: rest =>
        if fits s then
          match rest with
          | .symbol '.' :: .number f length :: rest =>
            if h = 24 ∧ 0 < f then .invalid
            else isoZone { p with time := [h, m, s, Parts.milliseconds f length] } rest
          | .symbol '.' :: _ => .invalid
          | _ => isoZone { p with time := [h, m, s] } rest
        else .invalid
      | .symbol ':' :: _ => .invalid
      | _ => isoZone { p with time := [h, m] } rest
    else .invalid
  | _ => .invalid

/-- What may follow a date: the mark of a time, or the end. -/
def isoAfterDate (p : Parts) : List Token → Verdict
  | [] => .complete { p.setZone 0 with isIso := true }
  | .word ['t'] _ :: rest => isoTime p rest
  | rest => .left p rest

/-- Month and day after a year. -/
def isoAfterYear (p : Parts) : List Token → Verdict
  | .symbol '-' :: rest =>
    match rest with
    | .number m 2 :: more =>
      if 1 ≤ m ∧ m ≤ 12 then
        let p := { p with day := p.day ++ [(m : Int)] }
        match more with
        | .symbol '-' :: rest =>
          match rest with
          | .number d 2 :: more =>
            if Parts.inDay d then isoAfterDate { p with day := p.day ++ [(d : Int)] } more
            else .left p rest
          | _ => .left p rest
        | _ => isoAfterDate p more
      else .left p rest
    | _ => .left p rest
  | rest => isoAfterDate p rest

def iso (ts : List Token) : Verdict :=
  match ts with
  | .number n 4 :: rest => isoAfterYear { day := [(n : Int)] } rest
  | .symbol c :: .number n 6 :: rest =>
    if c = '+' then isoAfterYear { day := [(n : Int)] } rest
    else if c = '-' then
      if n = 0 then .left {} (.symbol c :: rest) else isoAfterYear { day := [-(n : Int)] } rest
    else .left {} ts
  | _ => .left {} ts

/-! ## Lenient reading -/

/-- The tokens after one that may be skipped. -/
def skip (c : Char) : List Token → List Token
  | .symbol s :: rest => if s = c then rest else .symbol s :: rest
  | ts => ts

/-- Whether a time may end before this. -/
def endsTime : List Token → Bool
  | [] => true
  | .blank :: _ => true
  | .word ['z'] _ :: _ => true
  | .symbol '+' :: _ => true
  | .symbol '-' :: _ => true
  | _ => false

/-- What is there after a token: the parts, whether there was a number, and the other tokens. -/
abbrev Reading := Option (Parts × Bool × List Token)

def takeNumber (p : Parts) (n : Nat) (rest : List Token) : Reading :=
  match rest with
  | .symbol ':' :: .symbol ':' :: rest =>
    if p.time.isEmpty then some ({ p with time := [n, 0] }, true, rest) else none
  | .symbol ':' :: rest => (p.addTime n).map fun p => (p, true, skip '.' rest)
  | _ =>
    let pointed := rest.head? = some (.symbol '.')
    let rest := skip '.' rest
    if pointed && p.expectsTime n then
      match rest with
      | .number f length :: rest =>
        some ({ p with time := p.time ++ [n] }.endTime (Parts.milliseconds f length), true, rest)
      | _ => none
    else if p.expectsZone n then some ({ p with zoneMinutes := some n }, true, rest)
    else if p.expectsTime n then
      if endsTime rest then some (p.endTime n, true, rest) else none
    else (p.addDay n).map fun p => (p, true, skip '-' rest)

def takeWord (p : Parts) (numbered : Bool) (m : Meaning) (rest : List Token) : Reading :=
  let garbage : Reading :=
    if numbered then none
    else match rest with
      | .number .. :: _ => none
      | _ => some (p, numbered, rest)
  match m with
  | .half hours => if p.time.isEmpty then garbage else some ({ p with half := some hours }, numbered, rest)
  | .month n => some ({ p with namedMonth := some n }, numbered, skip '-' rest)
  | .zone hours => if numbered then some (p.setZone hours, numbered, rest) else garbage
  | _ => garbage

/-- An offset from UTC after its sign. -/
def takeOffset (p : Parts) (sign : Int) (rest : List Token) : Reading :=
  let (n, length, rest) : Nat × Nat × List Token := match rest with
    | .number n length :: rest => (n, length, rest)
    | _ => (0, 0, rest)
  let p := { p with sign := some sign }
  if rest.head? = some (.symbol ':') then
    some ({ p with zoneHours := some n, zoneMinutes := none }, true, rest)
  else if length = 1 ∨ length = 2 then
    some ({ p with zoneHours := some n, zoneMinutes := some 0 }, true, rest)
  else if length = 3 ∨ length = 4 then
    some ({ p with zoneHours := some (n / 100), zoneMinutes := some (n % 100) }, true, rest)
  else none

def takeSymbol (p : Parts) (numbered : Bool) (c : Char) (rest : List Token) : Reading :=
  let isSign := c = '+' ∨ c = '-'
  if isSign ∧ (p.isUtc ∨ ¬p.time.isEmpty) then takeOffset p (if c = '+' then 1 else -1) rest
  else if (isSign ∨ c = ')') ∧ numbered then none
  else some (p, numbered, rest)

/-- Goes through the tokens, at most the given number of steps. -/
def lenient : Nat → Parts → Bool → List Token → Option Parts
  | 0, _, _, _ => none
  | _, p, _, [] => some p
  | n + 1, p, numbered, t :: rest =>
    let reading := match t with
      | .number v _ => takeNumber p v rest
      | .word letters length => takeWord p numbered (meaning letters length) rest
      | .symbol c => takeSymbol p numbered c rest
      | _ => some (p, numbered, rest)
    match reading with
    | none => none
    | some (p, numbered, rest) => lenient n p numbered rest

end DateText

/-- The instant that a text means, if it means one. -/
def Instant.read? (text : String) : Option Instant :=
  let cs := text.toList
  match DateText.iso (DateText.tokens (cs.length + 1) cs) with
  | .complete p => p.instant?
  | .invalid => none
  | .left p rest => (DateText.lenient (rest.length + 1) p (!p.day.isEmpty) rest).bind (·.instant?)

end Bailiff

-- SUMMARY: Instants as milliseconds, and their texts: by ISO 8601, and with the names of weekday and month.
import Bailiff.Number.Shortest

/-!
# Calendar

An instant is a whole number of milliseconds from the start of 1970 in UTC, at most a hundred
million days away from it. `Instant.iso` writes it with the proleptic Gregorian calendar.
-/

namespace Bailiff

/-! ## Days -/

/-- The days from 1970-01-01 to the first of March that begins the year `y` counted from March. -/
def daysBeforeMarch (y : Int) : Int := 365 * y + y.fdiv 4 - y.fdiv 100 + y.fdiv 400 - 719468

/-- The days from 1970-01-01 to a date. Months beyond the twelve carry over into the years. -/
def dayNumber (year month day : Int) : Int :=
  let months := year * 12 + (month - 1) - 2
  let m := months.fmod 12
  daysBeforeMarch (months.fdiv 12) + (153 * m + 2).fdiv 5 + day - 1

structure CalendarDate where
  year : Int
  month : Nat
  day : Nat
  deriving DecidableEq, Repr

/-- The date of a day counted from 1970-01-01. -/
def CalendarDate.ofDayNumber (days : Int) : CalendarDate :=
  let z := days + 719468
  let era := z.fdiv 146097
  let doe := (z.fmod 146097).toNat
  let yoe := (doe - doe / 1460 + doe / 36524 - doe / 146096) / 365
  let doy := doe - (365 * yoe + yoe / 4 - yoe / 100)
  let mp := (5 * doy + 2) / 153
  let month := if mp < 10 then mp + 3 else mp - 9
  let year : Int := yoe + era * 400
  ⟨if month ≤ 2 then year + 1 else year, month, doy - (153 * mp + 2) / 5 + 1⟩

/-! ## Instants -/

/-- Milliseconds from the start of 1970. -/
structure Instant where
  ms : Int
  deriving DecidableEq, Repr

namespace Instant

def msPerDay : Int := 86400000

/-- A hundred million days either way. -/
def maxMs : Int := 8640000000000000

/-- The instant of a number of milliseconds, any fraction dropped, if it is within range. -/
def ofNumber? (x : Binary64) : Option Instant :=
  match x.truncate? with
  | some n => if n.natAbs ≤ maxMs.natAbs then some ⟨n⟩ else none
  | none => none

/-- A natural number in decimal digits, with leading zeros up to a width. -/
def zeroPadded (w n : Nat) : List Char :=
  let digits := Nat.toDigits 10 n
  List.replicate (w - digits.length) '0' ++ digits

/-- Four digits, or a sign and six digits outside of the years 0 to 9999. -/
def yearText (year : Int) : List Char :=
  if 0 ≤ year ∧ year ≤ 9999 then zeroPadded 4 year.natAbs
  else (if year < 0 then '-' else '+') :: zeroPadded 6 year.natAbs

/-- The date part and the time part of an instant; the time has seconds, and milliseconds on
demand. -/
def isoParts (t : Instant) : List Char × List Char × List Char :=
  let date := CalendarDate.ofDayNumber (t.ms.fdiv msPerDay)
  let ms := (t.ms.fmod msPerDay).toNat
  (yearText date.year ++ '-' :: zeroPadded 2 date.month ++ '-' :: zeroPadded 2 date.day,
    zeroPadded 2 (ms / 3600000) ++ ':' :: zeroPadded 2 (ms / 60000 % 60)
      ++ ':' :: zeroPadded 2 (ms / 1000 % 60),
    zeroPadded 3 (ms % 1000))

/-- `2024-05-06T07:08:09.123Z`. -/
def iso (t : Instant) : String :=
  let (date, time, fraction) := t.isoParts
  String.ofList (date ++ 'T' :: time ++ '.' :: fraction ++ ['Z'])

/-- `2024-05-06 07:08:09Z`. -/
def plain (t : Instant) : String :=
  let (date, time, _) := t.isoParts
  String.ofList (date ++ ' ' :: time ++ ['Z'])

/-- The days of the week. The first one is that of 1970-01-01. -/
def weekdays : List String := ["Thu", "Fri", "Sat", "Sun", "Mon", "Tue", "Wed"]

def months : List String :=
  ["Jan", "Feb", "Mar", "Apr", "May", "Jun", "Jul", "Aug", "Sep", "Oct", "Nov", "Dec"]

/-- `Mon May 06 2024 07:08:09 GMT+0000 (Coordinated Universal Time)`. A year has four digits or more. -/
def long (t : Instant) : String :=
  let days := t.ms.fdiv msPerDay
  let date := CalendarDate.ofDayNumber days
  let sign := if date.year < 0 then ['-'] else []
  let year := String.ofList (sign ++ zeroPadded 4 date.year.natAbs)
  weekdays.getD (days.fmod 7).toNat "" ++ " " ++ months.getD (date.month - 1) "" ++ " "
    ++ String.ofList (zeroPadded 2 date.day) ++ " " ++ year ++ " " ++ String.ofList t.isoParts.2.1
    ++ " GMT+0000 (Coordinated Universal Time)"

end Instant

end Bailiff

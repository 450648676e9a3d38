/-!
# Instants

A deploy time is a number of milliseconds since 1970-01-01T00:00:00Z, shown as a date of the
proleptic Gregorian calendar.  The calendar ends with the year 262142.
-/

namespace Rollout

/-- A date and a time of day. -/
structure Instant where
  year : Nat
  month : Nat
  day : Nat
  millisOfDay : Nat
deriving Repr, DecidableEq

namespace Instant

/-- The last year of the calendar. -/
def lastYear : Nat := 262142

/-- The date that lies a number of days behind 1970-01-01.  Years are counted from March, so that
the leap day ends them, and by eras of 400 years, which are all of one length. -/
def ofDays (days millisOfDay : Nat) : Instant :=
  let shifted := days + 719468
  let era := shifted / 146097
  let dayOfEra := shifted % 146097
  let yearOfEra := (dayOfEra - dayOfEra / 1460 + dayOfEra / 36524 - dayOfEra / 146096) / 365
  let dayOfYear := dayOfEra - (365 * yearOfEra + yearOfEra / 4 - yearOfEra / 100)
  let monthFromMarch := (5 * dayOfYear + 2) / 153
  let day := dayOfYear - (153 * monthFromMarch + 2) / 5 + 1
  let month := if monthFromMarch < 10 then monthFromMarch + 3 else monthFromMarch - 9
  let year := era * 400 + yearOfEra + if month ≤ 2 then 1 else 0
  ⟨year, month, day, millisOfDay⟩

/-- The instant of a number of milliseconds, within the calendar. -/
def ofMillis? (millis : Nat) : Option Instant :=
  let t := ofDays (millis / 86400000) (millis % 86400000)
  if t.year ≤ lastYear then some t else none

/-- A number with leading zeros up to a width. -/
def padded (width n : Nat) : List Char :=
  let digits := Nat.toDigits 10 n
  List.replicate (width - digits.length) '0' ++ digits

/-- The text `YYYY-MM-DDTHH:MM:SS.mmmZ`; years of more than four digits carry a plus sign. -/
def text (t : Instant) : String :=
  String.ofList <|
    (if t.year ≤ 9999 then padded 4 t.year else '+' :: Nat.toDigits 10 t.year) ++
    '-' :: padded 2 t.month ++ '-' :: padded 2 t.day ++
    'T' :: padded 2 (t.millisOfDay / 3600000) ++
    ':' :: padded 2 (t.millisOfDay / 60000 % 60) ++
    ':' :: padded 2 (t.millisOfDay / 1000 % 60) ++
    '.' :: padded 3 (t.millisOfDay % 1000) ++ ['Z']

example : (ofMillis? 951782400000).map text = some "2000-02-29T00:00:00.000Z" := by decide +kernel

end Instant

end Rollout

import GradleScript.Text.Basic

namespace GradleScript.Log

/-!
# Times

The time of a log record is written in universal time, with the date, the time of day and six
decimal places of the second.  The date is counted in years that begin in March, so that the day
that leap years add is the last one of its year.
-/

/-- A date of the common calendar. -/
structure Date where
  year : Nat
  month : Nat
  day : Nat
  deriving Repr, DecidableEq

namespace Date

/-- The days from the first of March of the year zero to the first day of 1970. -/
def daysBeforeEpoch : Nat :=
  719468

/-- The date a number of days after the first day of 1970. -/
def ofDays (days : Nat) : Date :=
  let shifted := days + daysBeforeEpoch
  let era := shifted / 146097
  let dayOfEra := shifted % 146097
  let yearOfEra := (dayOfEra - dayOfEra / 1460 + dayOfEra / 36524 - dayOfEra / 146096) / 365
  let dayOfYear := dayOfEra - (365 * yearOfEra + yearOfEra / 4 - yearOfEra / 100)
  let monthFromMarch := (5 * dayOfYear + 2) / 153
  let day := dayOfYear - (153 * monthFromMarch + 2) / 5 + 1
  let month := if monthFromMarch < 10 then monthFromMarch + 3 else monthFromMarch - 9
  let year := yearOfEra + era * 400
  ⟨if month ≤ 2 then year + 1 else year, month, day⟩

end Date

/-- A number with zeros in front of it, up to a width. -/
def zeroPadded (width number : Nat) : Text :=
  let digits := Nat.toDigits 10 number
  List.replicate (width - digits.length) '0' ++ digits

/-- The time a number of microseconds after the beginning of 1970. -/
def isoTime (microseconds : Nat) : Text :=
  let seconds := microseconds / 1000000
  let date := Date.ofDays (seconds / 86400)
  let ofDay := seconds % 86400
  zeroPadded 4 date.year ++ ['-'] ++ zeroPadded 2 date.month ++ ['-'] ++ zeroPadded 2 date.day ++
    ['T'] ++ zeroPadded 2 (ofDay / 3600) ++ [':'] ++ zeroPadded 2 (ofDay / 60 % 60) ++ [':'] ++
    zeroPadded 2 (ofDay % 60) ++ ['.'] ++ zeroPadded 6 (microseconds % 1000000) ++ ['Z']

end GradleScript.Log

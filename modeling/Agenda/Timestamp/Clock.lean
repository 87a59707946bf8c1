/-
Agenda/Timestamp/Clock.lean

The instant that a clock shows which counts seconds from the start of 1970.

Days are counted from the first of March of the year 0 here, so that a leap
day is the last day of its year; 400 years have 146097 days.
-/
import Agenda.Timestamp

namespace Agenda

/-- The day that comes so many days after the first of March of the year 0. -/
def Date.ofDaysFromMarch? (days : Nat) : Option Date :=
  let era := days / 146097
  let day := days % 146097
  let year := (day - day / 1460 + day / 36524 - day / 146096) / 365
  let dayOfYear := day - (365 * year + year / 4 - year / 100)
  let month := (5 * dayOfYear + 2) / 153
  let dayOfMonth := dayOfYear - (153 * month + 2) / 5 + 1
  if month < 10 then Date.of? (year + era * 400) (month + 3) dayOfMonth
  else Date.of? (year + era * 400 + 1) (month - 9) dayOfMonth

/-- The instant so many seconds and nanoseconds after the start of 1970. -/
def Timestamp.ofClock? (seconds nanosecond : Nat) : Option Timestamp :=
  (Date.ofDaysFromMarch? (seconds / 86400 + 719468)).bind fun date =>
    Timestamp.of? date (seconds % 86400) nanosecond

/-- The start of 1970. -/
def Timestamp.epoch : Timestamp where
  date := { year := 1970, month := 1, day := 1, valid := by decide }
  second := 0
  nanosecond := 0
  second_lt := by decide
  nanosecond_lt := by decide

example : Timestamp.ofClock? 0 0 = some Timestamp.epoch := by decide

end Agenda

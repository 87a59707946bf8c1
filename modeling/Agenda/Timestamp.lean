/-
Agenda/Timestamp.lean

Instants in universal time, on the proleptic Gregorian calendar, with
nanoseconds.  A leap second is the last second of its minute that goes on for
a second more: its nanoseconds run past a billion.

The written form is `2024-05-01T12:30:00.250Z`, with the fewest of 0, 3, 6
and 9 fractional digits that hold the nanoseconds.  What is read is wider:
blanks may stand around numbers, a date may be parted from the time by a
blank, and the time may be given with any offset below a day.
-/
import Agenda.Text.Blank
import Agenda.Text.Digits
import Agenda.Text.LowerCase

namespace Agenda

open Text

/-! ### Dates -/

/-- The year has a 29th of February. -/
def isLeapYear (year : Int) : Bool :=
  year % 4 = 0 && (year % 100 != 0 || year % 400 = 0)

/-- The number of days of a month. -/
def daysInMonth (year : Int) (month : Nat) : Nat :=
  if month = 2 then (if isLeapYear year then 29 else 28)
  else if month = 4 ∨ month = 6 ∨ month = 9 ∨ month = 11 then 30
  else 31

/-- A day of the calendar. -/
structure Date where
  /-- The year; the year before 1 is 0. -/
  year : Int
  /-- The month, from 1. -/
  month : Nat
  /-- The day of the month, from 1. -/
  day : Nat
  /-- The month exists, and it has such a day. -/
  valid : 1 ≤ month ∧ month ≤ 12 ∧ 1 ≤ day ∧ day ≤ daysInMonth year month
deriving DecidableEq, Repr

/-- Years that can be represented. -/
def yearInRange (year : Int) : Bool :=
  -262143 ≤ year && year ≤ 262142

/-- The date with these parts, if there is one. -/
def Date.of? (year : Int) (month day : Nat) : Option Date :=
  if h : 1 ≤ month ∧ month ≤ 12 ∧ 1 ≤ day ∧ day ≤ daysInMonth year month then
    if yearInRange year then some { year, month, day, valid := h } else none
  else none

/-- The day after, if its year can be represented. -/
def Date.next? (d : Date) : Option Date :=
  (Date.of? d.year d.month (d.day + 1)).or
    (if d.month = 12 then Date.of? (d.year + 1) 1 1 else Date.of? d.year (d.month + 1) 1)

/-- The day before, if its year can be represented. -/
def Date.previous? (d : Date) : Option Date :=
  if d.day = 1 then
    if d.month = 1 then Date.of? (d.year - 1) 12 31
    else Date.of? d.year (d.month - 1) (daysInMonth d.year (d.month - 1))
  else Date.of? d.year d.month (d.day - 1)

/-! ### Instants -/

/-- An instant in universal time. -/
structure Timestamp where
  /-- The day. -/
  date : Date
  /-- The second of the day. -/
  second : Nat
  /-- The nanosecond of the second. -/
  nanosecond : Nat
  /-- A day has 86400 seconds. -/
  second_lt : second < 86400
  /-- Only the last second of a minute can be a leap second. -/
  nanosecond_lt : nanosecond < if second % 60 = 59 then 2000000000 else 1000000000
deriving DecidableEq, Repr

/-- The instant with these parts, if there is one. -/
def Timestamp.of? (date : Date) (second nanosecond : Nat) : Option Timestamp :=
  if h : second < 86400 ∧ nanosecond < if second % 60 = 59 then 2000000000 else 1000000000 then
    some { date, second, nanosecond, second_lt := h.1, nanosecond_lt := h.2 }
  else none

/-- The instant that has these parts on clocks that are `offset` seconds ahead of universal time;
offsets are less than a day. -/
def Timestamp.ofLocal? (date : Date) (second nanosecond : Nat) (offset : Int) : Option Timestamp :=
  let shifted : Int := second - offset
  if shifted < 0 then
    date.previous?.bind fun d => Timestamp.of? d (shifted + 86400).toNat nanosecond
  else if 86400 ≤ shifted then
    date.next?.bind fun d => Timestamp.of? d (shifted - 86400).toNat nanosecond
  else Timestamp.of? date shifted.toNat nanosecond

/-! ### The written form -/

/-- The last `width` decimal digits of a number. -/
def paddedDigits : (width : Nat) → Nat → List Char
  | 0, _ => []
  | width + 1, n => paddedDigits width (n / 10) ++ [Nat.digitChar (n % 10)]

/-- A year: four digits, or a sign and at least four digits if there would have to be more. -/
def yearDigits (year : Int) : List Char :=
  if 0 ≤ year ∧ year ≤ 9999 then paddedDigits 4 year.toNat
  else
    (if year < 0 then '-' else '+') ::
      (if year.natAbs ≤ 9999 then paddedDigits 4 year.natAbs else Nat.toDigits 10 year.natAbs)

/-- A date as `2024-05-01`. -/
def Date.render (d : Date) : List Char :=
  yearDigits d.year ++ '-' :: paddedDigits 2 d.month ++ '-' :: paddedDigits 2 d.day

/-- Hour and minute as `12:30`. -/
def Timestamp.renderMinute (t : Timestamp) : List Char :=
  paddedDigits 2 (t.second / 3600) ++ ':' :: paddedDigits 2 (t.second / 60 % 60)

/-- The fraction of a second, in the fewest of 0, 3, 6 and 9 digits. -/
def fractionDigits (nanosecond : Nat) : List Char :=
  if nanosecond = 0 then []
  else if nanosecond % 1000000 = 0 then '.' :: paddedDigits 3 (nanosecond / 1000000)
  else if nanosecond % 1000 = 0 then '.' :: paddedDigits 6 (nanosecond / 1000)
  else '.' :: paddedDigits 9 nanosecond

/-- The written form of an instant, a leap second as the second 60. -/
def Timestamp.renderList (t : Timestamp) : List Char :=
  t.date.render ++ 'T' :: t.renderMinute ++
    ':' :: paddedDigits 2 (t.second % 60 + t.nanosecond / 1000000000) ++
    fractionDigits (t.nanosecond % 1000000000) ++ ['Z']

/-- The written form of an instant. -/
def Timestamp.render (t : Timestamp) : String :=
  String.ofList t.renderList

/-- The instant for people, to the minute: `2024-05-01 12:30`. -/
def Timestamp.renderShort (t : Timestamp) : String :=
  String.ofList (t.date.render ++ ' ' :: t.renderMinute)

/-! ### Reading

Each step takes the text that is left and returns what it found with the rest
of the text. -/

/-- Digits after blanks, one at least and `width` at most; all of them if there is no width. -/
def digitRun (width : Option Nat) (input : List Char) : Option (List Char × List Char) :=
  let digits := input.takeWhile Char.isDigit
  let digits := match width with
    | some w => digits.take w
    | none => digits
  if digits.isEmpty then none else some (digits, input.drop digits.length)

/-- A number of at most `width` digits between these bounds, after blanks. -/
def boundedNumber (width low high : Nat) (input : List Char) : Option (Nat × List Char) := do
  let (digits, rest) ← digitRun (some width) (dropBlanks input)
  let n := decimalValue digits
  if low ≤ n ∧ n ≤ high then return (n, rest) else none

/-- A year, after blanks: four digits at most, or any number of them after a sign. -/
def yearNumber (input : List Char) : Option (Int × List Char) :=
  match dropBlanks input with
  | '-' :: cs => (digitRun none cs).map fun r => (-(decimalValue r.1 : Int), r.2)
  | '+' :: cs => (digitRun none cs).map fun r => (decimalValue r.1, r.2)
  | cs => (digitRun (some 4) cs).map fun r => (decimalValue r.1, r.2)

/-- A mark between two numbers, after blanks. -/
def mark (c : Char) (input : List Char) : Option (List Char) :=
  match dropBlanks input with
  | d :: rest => if c = d then some rest else none
  | [] => none

/-- The nanoseconds of a fraction, if there is one; digits past the ninth are ignored. -/
def nanoseconds (input : List Char) : Option (Nat × List Char) :=
  match input with
  | '.' :: cs => do
    let (digits, rest) ← digitRun (some 9) cs
    return (decimalValue digits * Nat.pow 10 (9 - digits.length), rest.dropWhile Char.isDigit)
  | cs => some (0, cs)

/-- A date. -/
def dateOf? (input : List Char) : Option (Date × List Char) := do
  let (year, rest) ← yearNumber input
  let rest ← mark '-' rest
  let (month, rest) ← boundedNumber 2 1 12 rest
  let rest ← mark '-' rest
  let (day, rest) ← boundedNumber 2 1 31 rest
  let date ← Date.of? year month day
  return (date, rest)

/-- The second of the day and the nanosecond of a time of day.  The second 60 of any minute is a
leap second. -/
def timeOf? (input : List Char) : Option (Nat × Nat × List Char) := do
  let (hour, rest) ← boundedNumber 2 0 23 input
  let rest ← mark ':' rest
  let (minute, rest) ← boundedNumber 2 0 59 rest
  let rest ← mark ':' rest
  let (second, rest) ← boundedNumber 2 0 60 rest
  let (nanosecond, rest) ← nanoseconds rest
  let start := hour * 3600 + minute * 60
  if second = 60 then return (start + 59, nanosecond + 1000000000, rest)
  else return (start + second, nanosecond, rest)

/-- Two digits, the first at most `top`. -/
def twoDigits (top : Char) (input : List Char) : Option (Nat × List Char) :=
  match input with
  | a :: b :: rest =>
    if '0' ≤ a ∧ a ≤ top ∧ b.isDigit then some (decimalValue [a, b], rest) else none
  | _ => none

/-- An offset: hours and minutes after a sign, with colons or blanks between them. -/
def signedOffset? (input : List Char) : Option (Int × List Char) := do
  let (negative, rest) ← match input with
    | '+' :: rest => some (false, rest)
    | '-' :: rest => some (true, rest)
    | '−' :: rest => some (true, rest)
    | _ => none
  let (hours, rest) ← twoDigits '9' rest
  let (minutes, rest) ← twoDigits '5' (rest.dropWhile fun c => c = ':' || isBlank c)
  let seconds : Int := hours * 3600 + minutes * 60
  if seconds < 86400 then return (if negative then -seconds else seconds, rest) else none

/-- An offset from universal time, or a name of universal time. -/
def offset? (input : List Char) : Option (Int × List Char) :=
  if sameIgnoringAsciiCase (input.take 3) ['u', 't', 'c'] then some (0, input.drop 3)
  else match input with
    | 'Z' :: rest => some (0, rest)
    | 'z' :: rest => some (0, rest)
    | _ => signedOffset? input

/-- The sign between date and time. -/
def dateEnd? (input : List Char) : Option (List Char) :=
  match input with
  | c :: rest => if c = 'T' ∨ c = 't' ∨ c = ' ' then some rest else none
  | [] => none

/-- Reads an instant; nothing but blanks may follow it. -/
def Timestamp.read? (s : String) : Option Timestamp := do
  let (date, rest) ← dateOf? s.toList
  let rest ← dateEnd? rest
  let (second, nanosecond, rest) ← timeOf? rest
  let (offset, rest) ← offset? (dropBlanks rest)
  if (dropBlanks rest).isEmpty then Timestamp.ofLocal? date second nanosecond offset else none

end Agenda

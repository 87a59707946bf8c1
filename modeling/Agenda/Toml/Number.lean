/-
Agenda/Toml/Number.lean

Numbers, dates and times in TOML documents.  Integers have 64 bits; they may
be written to the bases 2, 8, 10 and 16, and underscores may stand between
digits.
-/
import Agenda.Json.Scanner
import Agenda.Timestamp
import Agenda.Toml.Value

namespace Agenda.Toml

open Json Text

/-! ### Digits -/

/-- Digits with single underscores between them, and what follows. -/
def digitRun (isDigit : Char → Bool) : List Char → List Char × List Char
  | [] => ([], [])
  | c :: cs =>
    if isDigit c then
      let (digits, rest) := digitRun isDigit cs
      (c :: digits, rest)
    else
      match cs with
      | d :: _ =>
        if c = '_' ∧ isDigit d then digitRun isDigit cs
        else ([], c :: cs)
      | [] => ([], c :: cs)

/-- Digits that begin with a digit. -/
def digits? (isDigit : Char → Bool) (input : List Char) : Option (List Char × List Char) :=
  match input with
  | c :: _ => if isDigit c then some (digitRun isDigit input) else none
  | [] => none

/-- A sign, if there is one: whether it is a minus. -/
def sign (input : List Char) : Bool × List Char :=
  match input with
  | '-' :: cs => (true, cs)
  | '+' :: cs => (false, cs)
  | cs => (false, cs)

/-- The digits of a decimal number: a single zero, or digits that begin with another one. -/
def decimal? (input : List Char) : Option (List Char × List Char) :=
  match input with
  | '0' :: cs => some (['0'], cs)
  | cs => digits? Char.isDigit cs

/-! ### Numbers -/

/-- The integer, if it has 64 bits. -/
def integerOf? (n : Int) : Option Value :=
  if Int64.minValue.toInt ≤ n ∧ n ≤ Int64.maxValue.toInt then some (.integer (.ofInt n)) else none

/-- The number written to a base. -/
def baseValue (base : Nat) (digits : List Char) : Nat :=
  digits.foldl (fun n c => base * n + (hexValue? c).getD 0) 0

/-- An integer to a base that is named by its first two characters. -/
def based? (base : Nat) (input : List Char) : Option (Value × List Char) := do
  let isDigit (c : Char) : Bool := (hexValue? c).any (· < base)
  let (digits, rest) ← digits? isDigit input
  return (← integerOf? (baseValue base digits), rest)

/-- An integer. -/
def integer? (input : List Char) : Option (Value × List Char) :=
  match input with
  | '0' :: 'x' :: cs => based? 16 cs
  | '0' :: 'o' :: cs => based? 8 cs
  | '0' :: 'b' :: cs => based? 2 cs
  | _ => do
    let (negative, rest) := sign input
    let (digits, rest) ← decimal? rest
    let n : Int := baseValue 10 digits
    return (← integerOf? (if negative then -n else n), rest)

/-- An exponent. -/
def exponent? (input : List Char) : Option ((Bool × List Char) × List Char) :=
  match input with
  | c :: cs =>
    if c = 'e' ∨ c = 'E' then
      let (negative, rest) := sign cs
      (digits? Char.isDigit rest).map fun (digits, rest) => ((negative, digits), rest)
    else none
  | [] => none

/-- A number with a fraction or an exponent.  A positive one must not be too large. -/
def fractional? (input : List Char) : Option (Value × List Char) := do
  let (negative, rest) := sign input
  let (whole, rest) ← decimal? rest
  let (fraction, rest) ← match rest with
    | '.' :: cs => (digits? Char.isDigit cs).map fun (digits, rest) => (some digits, rest)
    | rest => some (none, rest)
  let (exponent, rest) := match exponent? rest with
    | some (e, rest) => (some e, rest)
    | none => (none, rest)
  let numeral : Numeral := { negative, whole, fraction, exponent }
  if (fraction.isNone && exponent.isNone) || (!negative && numeral.overflows) then none
  else return (.float, rest)

/-- An infinity or no number, in letters. -/
def named? (input : List Char) : Option (Value × List Char) :=
  match (sign input).2 with
  | 'i' :: 'n' :: 'f' :: rest => some (.float, rest)
  | 'n' :: 'a' :: 'n' :: rest => some (.float, rest)
  | _ => none

/-! ### Dates and times -/

/-- Two digits for a number between these bounds. -/
def pair? (low high : Nat) (input : List Char) : Option (Nat × List Char) :=
  match input with
  | a :: b :: rest =>
    let n := decimalValue [a, b]
    if a.isDigit ∧ b.isDigit ∧ low ≤ n ∧ n ≤ high then some (n, rest) else none
  | _ => none

/-- What follows a mark. -/
def after? (mark : Char) (input : List Char) : Option (List Char) :=
  match input with
  | c :: rest => if c = mark then some rest else none
  | [] => none

/-- A day of the calendar; returns what follows it. -/
def date? (input : List Char) : Option (List Char) := do
  let year := input.take 4
  if year.length = 4 ∧ year.all Char.isDigit then
    let rest ← after? '-' (input.drop 4)
    let (month, rest) ← pair? 1 12 rest
    let rest ← after? '-' rest
    let (_, rest) ← pair? 1 (daysInMonth (decimalValue year) month) rest
    return rest
  else none

/-- A time of day; returns what follows it. -/
def time? (input : List Char) : Option (List Char) := do
  let (_, rest) ← pair? 0 23 input
  let rest ← after? ':' rest
  let (_, rest) ← pair? 0 59 rest
  let rest ← after? ':' rest
  let (_, rest) ← pair? 0 60 rest
  match rest with
  | '.' :: c :: cs => if c.isDigit then return cs.dropWhile Char.isDigit else return rest
  | _ => return rest

/-- An offset from universal time; returns what follows it. -/
def zone? (input : List Char) : Option (List Char) :=
  match input with
  | [] => none
  | c :: cs =>
    if c = 'Z' ∨ c = 'z' then some cs
    else if c = '+' ∨ c = '-' then do
      let (_, rest) ← pair? 0 23 cs
      let rest ← after? ':' rest
      let (_, rest) ← pair? 0 59 rest
      return rest
    else none

/-- A time of day after a date, with or without an offset. -/
def timeAfterDate? (input : List Char) : Option (List Char) :=
  match input with
  | c :: cs =>
    if c = 'T' ∨ c = 't' ∨ c = ' ' then (time? cs).map fun rest => (zone? rest).getD rest else none
  | [] => none

/-- A date, a time, or both. -/
def moment? (input : List Char) : Option (Value × List Char) :=
  ((date? input).map fun rest => (timeAfterDate? rest).getD rest).or (time? input)
    |>.map fun rest => (.moment, rest)

/-- A number, a date or a time. -/
def number? (input : List Char) : Option (Value × List Char) :=
  (((moment? input).or (fractional? input)).or (named? input)).or (integer? input)

end Agenda.Toml

/-
Agenda/Json/Scanner.lean

Reading JSON text from left to right: blanks, strings, numbers, words.  The
first problem met ends the reading, and only its kind is kept.

A value is read in one of two ways.  Where it is *wanted*, its content must
make sense: surrogate escapes come in pairs, and a number must not be too
large for a double.  Where it is *skipped*, its form is enough.
-/
import Agenda.Text.Numeral
import Agenda.Text.Reading

namespace Agenda.Json

open Text

/-- The kind of problem that ends the reading of a JSON text. -/
inductive Fault where
  /-- The text ends too early. -/
  | incomplete
  /-- The text is not JSON. -/
  | malformed
  /-- The text is JSON, but not of the form that is read. -/
  | mismatch
deriving DecidableEq, Repr

/-- The name of a kind of problem. -/
def Fault.category : Fault → String
  | .incomplete => "eof"
  | .malformed => "syntax"
  | .mismatch => "data"

/-- The problem in words. -/
def Fault.message : Fault → String
  | .incomplete => "the text ends too early"
  | .malformed => "the text is not JSON"
  | .mismatch => "the text has another form than expected"

/-- A reader of values of type `α`. -/
abbrev Reader (α : Type) := (input : List Char) → Except Fault (Reading α input)

/-! ### Blanks and words -/

/-- Blank, tab, line feed and carriage return may stand between the parts of a text. -/
def isGap (c : Char) : Bool :=
  c = ' ' || c = '\t' || c = '\n' || c = '\r'

/-- The text from its first character that is not a gap. -/
def skipGaps (input : List Char) : List Char :=
  input.dropWhile isGap

theorem length_skipGaps_le (input : List Char) : (skipGaps input).length ≤ input.length :=
  (List.dropWhile_suffix isGap).length_le

theorem length_lt_of_skipGaps {input cs : List Char} {c : Char} (h : skipGaps input = c :: cs) :
    cs.length < input.length := by
  have := length_skipGaps_le input
  rw [h, List.length_cons] at this
  omega

/-- A reading that starts after the gaps of `input`. -/
def afterGaps {α : Type} {input : List Char} (r : Reading α (skipGaps input)) :
    Reading α input where
  value := r.value
  rest := r.rest
  rest_lt := Nat.lt_of_lt_of_le r.rest_lt (length_skipGaps_le input)

/-- What follows the letters `word` at the start of a text. -/
def expectWord : List Char → (input : List Char) →
    Except Fault { rest : List Char // rest.length ≤ input.length }
  | [], input => .ok ⟨input, Nat.le_refl _⟩
  | _ :: _, [] => .error .incomplete
  | c :: word, d :: input =>
    if c = d then (expectWord word input).map fun r => ⟨r.1, Nat.le_succ_of_le r.2⟩
    else .error .malformed

/-- Reads the rest of a word whose first character is known. -/
def literal (word : List Char) : Reader Unit
  | [] => .error .incomplete
  | _ :: input =>
    (expectWord word input).map fun r =>
      { value := (), rest := r.1, rest_lt := Nat.lt_succ_of_le r.2 }

/-! ### Strings -/

/-- The value of a hexadecimal digit. -/
def hexValue? (c : Char) : Option Nat :=
  if '0' ≤ c ∧ c ≤ '9' then some (c.toNat - '0'.toNat)
  else if 'a' ≤ c ∧ c ≤ 'f' then some (c.toNat - 'a'.toNat + 10)
  else if 'A' ≤ c ∧ c ≤ 'F' then some (c.toNat - 'A'.toNat + 10)
  else none

/-- The number written by four hexadecimal digits. -/
def hexValue4? (a b c d : Char) : Option Nat := do
  return ((← hexValue? a) * 16 + (← hexValue? b)) * 256 + (← hexValue? c) * 16 + (← hexValue? d)

/-- The problem with a text that does not go on with four hexadecimal digits: it has fewer than
four bytes left, or others. -/
def hexFault (input : List Char) : Fault :=
  if (String.ofList input).utf8ByteSize < 4 then .incomplete else .malformed

/-- The four digits of an escape. -/
def hex4 : Reader Nat
  | a :: b :: c :: d :: rest =>
    match hexValue4? a b c d with
    | some n => .ok { value := n, rest, rest_lt := by simp only [List.length_cons]; omega }
    | none => .error (hexFault (a :: b :: c :: d :: rest))
  | input => .error (hexFault input)

/-- The unit is the first half of a surrogate pair. -/
def isHighSurrogate (n : Nat) : Bool := 0xD800 ≤ n && n ≤ 0xDBFF

/-- The unit is the second half of a surrogate pair. -/
def isLowSurrogate (n : Nat) : Bool := 0xDC00 ≤ n && n ≤ 0xDFFF

/-- The character written by a surrogate pair. -/
def joinSurrogates (high low : Nat) : Char :=
  Char.ofNat ((high - 0xD800) * 0x400 + (low - 0xDC00) + 0x10000)

/-- The second half of a surrogate pair. -/
def lowSurrogate (high : Nat) : Reader Char
  | [] => .error .incomplete
  | '\\' :: [] => .error .incomplete
  | '\\' :: 'u' :: input => do
    let r ← hex4 input
    if isLowSurrogate r.value then
      return ((r.map (joinSurrogates high)).cons 'u').cons '\\'
    else .error .malformed
  | _ :: _ => .error .malformed

/-- A character written by digits, the half of a pair only together with its other half. -/
def unicodeEscape (input : List Char) : Except Fault (Reading Char input) := do
  let r ← hex4 input
  if isLowSurrogate r.value then .error .malformed
  else if isHighSurrogate r.value then do
    let s ← lowSurrogate r.value r.rest
    return r.andThen s
  else return r.map Char.ofNat

/-- The character that a single letter stands for after a backslash. -/
def shortEscape? (c : Char) : Option Char :=
  if c = '"' then some '"'
  else if c = '\\' then some '\\'
  else if c = '/' then some '/'
  else if c = 'b' then some '\u0008'
  else if c = 'f' then some '\u000c'
  else if c = 'n' then some '\n'
  else if c = 'r' then some '\r'
  else if c = 't' then some '\t'
  else none

/-- The character after a backslash. -/
def escape : Reader Char
  | [] => .error .incomplete
  | c :: input =>
    match shortEscape? c with
    | some d => .ok { value := d, rest := input, rest_lt := by simp }
    | none => if c = 'u' then (unicodeEscape input).map (·.cons c) else .error .malformed

/-- The rest of a wanted string, after its first quote. -/
def stringBody (input : List Char) : Except Fault (Reading (List Char) input) :=
  match h : input with
  | [] => .error .incomplete
  | c :: cs =>
    if c = '"' then .ok { value := [], rest := cs, rest_lt := by simp }
    else if c = '\\' then
      match escape cs with
      | .error fault => .error fault
      | .ok r =>
        have : r.rest.length < input.length := by
          have := r.rest_lt; simp only [h, List.length_cons]; omega
        (stringBody r.rest).map fun s => (r.andThen (s.map (r.value :: ·))).cons c
    else if c.toNat < 32 then .error .malformed
    else (stringBody cs).map fun s => (s.map (c :: ·)).cons c
termination_by input.length
decreasing_by
  · subst h; exact this
  · subst h; simp

/-- The rest of a skipped string, after its first quote. -/
def skipStringBody : Reader Unit
  | [] => .error .incomplete
  | '\\' :: 'u' :: a :: b :: c :: d :: cs =>
    match hexValue4? a b c d with
    | some _ =>
      (skipStringBody cs).map fun s => (((((s.cons d).cons c).cons b).cons a).cons 'u').cons '\\'
    | none => .error (hexFault (a :: b :: c :: d :: cs))
  | '\\' :: c :: cs =>
    if c = 'u' then .error (hexFault cs)
    else if (shortEscape? c).isSome then (skipStringBody cs).map fun s => (s.cons c).cons '\\'
    else .error .malformed
  | c :: cs =>
    if c = '"' then .ok { value := (), rest := cs, rest_lt := by simp }
    else if c = '\\' then .error .incomplete
    else if c.toNat < 32 then .error .malformed
    else (skipStringBody cs).map (·.cons c)

/-! ### Numbers -/

/-- One digit or more; the text must not end before the first. -/
def digits1 (input : List Char) : Except Fault (Reading (List Char) input) :=
  if h : 0 < (input.takeWhile Char.isDigit).length then
    .ok { value := input.takeWhile Char.isDigit
          rest := input.drop (input.takeWhile Char.isDigit).length
          rest_lt := by
            have := (List.takeWhile_prefix (l := input) Char.isDigit).length_le
            simp only [List.length_drop]; omega }
  else .error (if input.isEmpty then .incomplete else .malformed)

/-- The digits before the point: a single zero, or digits that start with another one. -/
def wholeDigits (input : List Char) : Except Fault (Reading (List Char) input) := do
  let r ← digits1 input
  if r.value.head? = some '0' ∧ r.value.length ≠ 1 then .error .malformed else return r

/-- The point and the digits after it, if the text goes on with a point. -/
def fractionPart (input : List Char) : Except Fault (Option (Reading (List Char) input)) :=
  match input with
  | '.' :: cs => (digits1 cs).map fun r => some (r.cons '.')
  | _ => .ok none

/-- The exponent, if the text goes on with one. -/
def exponentPart (input : List Char) : Except Fault (Option (Reading (Bool × List Char) input)) :=
  match input with
  | c :: cs =>
    if c = 'e' ∨ c = 'E' then
      match cs with
      | '-' :: ds => (digits1 ds).map fun r => some (((r.map (true, ·)).cons '-').cons c)
      | '+' :: ds => (digits1 ds).map fun r => some (((r.map (false, ·)).cons '+').cons c)
      | ds => (digits1 ds).map fun r => some ((r.map (false, ·)).cons c)
    else .ok none
  | [] => .ok none

/-- A number after its sign. -/
def unsigned (negative : Bool) (input : List Char) : Except Fault (Reading Numeral input) := do
  let whole ← wholeDigits input
  match ← fractionPart whole.rest with
  | none =>
    match ← exponentPart whole.rest with
    | none => return whole.map fun ds => ⟨negative, ds, none, none⟩
    | some e => return whole.andThen (e.map fun e => ⟨negative, whole.value, none, some e⟩)
  | some fraction =>
    match ← exponentPart fraction.rest with
    | none =>
      return whole.andThen (fraction.map fun fs => ⟨negative, whole.value, some fs, none⟩)
    | some e =>
      return whole.andThen (fraction.andThen
        (e.map fun e => ⟨negative, whole.value, some fraction.value, some e⟩))

/-- A number as it is written. -/
def numeral (input : List Char) : Except Fault (Reading Numeral input) :=
  match input with
  | '-' :: cs => (unsigned true cs).map (·.cons '-')
  | cs => unsigned false cs

/-- A wanted number.  Reckoned in steps, it has to stay in the range of doubles. -/
def number (input : List Char) : Except Fault (Reading Numeral input) := do
  let r ← numeral input
  if r.value.overflowsInSteps then .error .malformed else return r

/-- A skipped number.  It is malformed also if the text ends within it. -/
def skipNumber (input : List Char) : Except Fault (Reading Unit input) :=
  match numeral input with
  | .ok r => .ok (r.map fun _ => ())
  | .error _ => .error .malformed

end Agenda.Json

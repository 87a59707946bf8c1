/-
Agenda/Toml/Text.lean

Texts in TOML documents: basic ones between double quotes, with escapes, and
literal ones between single quotes, without.  Three quotes open a text of
several lines; a line end just after them is not part of it.
-/
import Agenda.Json.Scanner

namespace Agenda.Toml

open Text Json

/-! ### Characters -/

/-- Blank or tab. -/
def isSpace (c : Char) : Bool :=
  c = ' ' || c = '\t'

/-- The character may stand for itself in texts and comments. -/
def isPlain (c : Char) : Bool :=
  c = '\t' || (32 ≤ c.toNat && c.toNat ≠ 127)

/-- What follows a line end at the start of a text. -/
def lineEnd? (input : List Char) : Option (List Char) :=
  match input with
  | '\n' :: cs => some cs
  | '\r' :: '\n' :: cs => some cs
  | _ => none

/-- The character with this number; the halves of surrogate pairs are none. -/
def charOf? (n : Nat) : Option Char :=
  if n.isValidChar then some (Char.ofNat n) else none

/-- The number written by hexadecimal digits. -/
def hexNumber? (digits : List Char) : Option Nat :=
  digits.foldlM (fun n c => (hexValue? c).map fun d => 16 * n + d) 0

/-- The character that the letters after a backslash stand for. -/
def escape? (input : List Char) : Option (Reading Char input) := do
  let (c, rest) ← match input with
    | 'b' :: cs => some ('\u0008', cs)
    | 't' :: cs => some ('\t', cs)
    | 'n' :: cs => some ('\n', cs)
    | 'f' :: cs => some ('\u000c', cs)
    | 'r' :: cs => some ('\r', cs)
    | '"' :: cs => some ('"', cs)
    | '\\' :: cs => some ('\\', cs)
    | 'u' :: cs => (numbered 4 cs).map (·, cs.drop 4)
    | 'U' :: cs => (numbered 8 cs).map (·, cs.drop 8)
    | _ => none
  Reading.of? c rest
where
  /-- The character numbered by so many digits. -/
  numbered (width : Nat) (cs : List Char) : Option Char :=
    if (cs.take width).length = width then (hexNumber? (cs.take width)).bind charOf? else none

/-! ### One line -/

/-- The rest of a basic text, after its first quote. -/
def basicBody (input : List Char) : Option (List Char × List Char) :=
  match input with
  | [] => none
  | c :: cs =>
    if c = '"' then some ([], cs)
    else if c = '\\' then do
      let r ← escape? cs
      have := r.rest_lt
      let (text, rest) ← basicBody r.rest
      return (r.value :: text, rest)
    else if isPlain c then (basicBody cs).map fun (text, rest) => (c :: text, rest)
    else none
termination_by input.length
decreasing_by all_goals (simp only [List.length_cons]; omega)

/-- The rest of a literal text, after its first quote. -/
def literalBody : List Char → Option (List Char × List Char)
  | [] => none
  | c :: cs =>
    if c = '\'' then some ([], cs)
    else if isPlain c then (literalBody cs).map fun (text, rest) => (c :: text, rest)
    else none

/-! ### Several lines -/

/-- The end of a text of several lines: three quotes, or up to two more that belong to it. -/
def closing? (quote : Char) (input : List Char) : Option (List Char × List Char) :=
  match (input.takeWhile (· = quote)).length with
  | 0 | 1 | 2 => none
  | 3 => some ([], input.drop 3)
  | 4 => some ([quote], input.drop 4)
  | _ => some ([quote, quote], input.drop 5)

/-- The line goes on after a backslash: there is nothing but blanks up to its end. -/
def breaksLine (input : List Char) : Bool :=
  (lineEnd? (input.dropWhile isSpace)).isSome

/-- The rest of a basic text of several lines.  While it is `trimming`, after a backslash at the
end of a line, blanks and line ends are left out. -/
def basicLines (trimming : Bool) (input : List Char) : Option (List Char × List Char) :=
  match closing? '"' input with
  | some done => some done
  | none =>
    match input with
    | [] => none
    | '\r' :: '\n' :: cs =>
      (basicLines trimming cs).map fun (text, rest) =>
        (if trimming then text else '\n' :: text, rest)
    | c :: cs =>
      if c = '\n' ∨ isSpace c then
        (basicLines trimming cs).map fun (text, rest) =>
          (if trimming then text else c :: text, rest)
      else if c = '\\' then
        if breaksLine cs then basicLines true cs
        else do
          let r ← escape? cs
          have := r.rest_lt
          let (text, rest) ← basicLines false r.rest
          return (r.value :: text, rest)
      else if isPlain c then (basicLines false cs).map fun (text, rest) => (c :: text, rest)
      else none
termination_by input.length
decreasing_by all_goals (simp only [List.length_cons]; omega)

/-- The rest of a literal text of several lines. -/
def literalLines (input : List Char) : Option (List Char × List Char) :=
  match closing? '\'' input with
  | some done => some done
  | none =>
    match input with
    | [] => none
    | '\r' :: '\n' :: cs => (literalLines cs).map fun (text, rest) => ('\n' :: text, rest)
    | c :: cs =>
      if c = '\n' ∨ isPlain c then (literalLines cs).map fun (text, rest) => (c :: text, rest)
      else none
termination_by input.length

/-- The text without a line end at its start. -/
def dropLineEnd (input : List Char) : List Char :=
  (lineEnd? input).getD input

/-! ### Texts -/

/-- A text of one line. -/
def line? (input : List Char) : Option (List Char × List Char) :=
  match input with
  | '"' :: cs => basicBody cs
  | '\'' :: cs => literalBody cs
  | _ => none

/-- A text. -/
def text? (input : List Char) : Option (List Char × List Char) :=
  match input with
  | '"' :: '"' :: '"' :: cs => basicLines false (dropLineEnd cs)
  | '\'' :: '\'' :: '\'' :: cs => literalLines (dropLineEnd cs)
  | _ => line? input

end Agenda.Toml

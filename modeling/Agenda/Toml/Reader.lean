/-
Agenda/Toml/Reader.lean

Reading TOML documents.  A document either stands for a table or it is
refused as a whole.  Arrays and tables between braces are nested less than
eighty deep, and so are dotted keys.
-/
import Agenda.Toml.Number
import Agenda.Toml.Text

namespace Agenda.Toml

open Text

/-- Values and keys are nested less deep than this. -/
def maxDepth : Nat := 80

/-! ### Gaps -/

/-- The text from its first character that is neither blank nor tab. -/
def skipSpaces (input : List Char) : List Char :=
  input.dropWhile isSpace

/-- The text without a comment at its start. -/
def skipComment (input : List Char) : List Char :=
  match input with
  | '#' :: cs => cs.dropWhile isPlain
  | cs => cs

/-- What follows the end of a line, or of the document, with a comment before it. -/
def endOfLine? (input : List Char) : Option (List Char) :=
  match skipComment (skipSpaces input) with
  | [] => some []
  | cs => lineEnd? cs

/-- The text after blanks, line ends and comments. -/
def skipLines (input : List Char) : List Char :=
  match skipSpaces input with
  | [] => []
  | c :: cs =>
    if c = '#' ∨ c = '\n' ∨ c = '\r' then
      match lineEnd? (skipComment (c :: cs)) with
      | some rest => if rest.length < input.length then skipLines rest else rest
      | none => c :: cs
    else c :: cs
termination_by input.length

/-! ### Keys -/

/-- The character may stand in a key without quotes. -/
def isBare (c : Char) : Bool :=
  c.isAlphanum || c = '_' || c = '-'

/-- One key, with the blanks around it. -/
def key? (input : List Char) : Option (Reading String input) :=
  let start := skipSpaces input
  let found := match start.head? with
    | some '"' | some '\'' => line? start
    | _ =>
      let bare := start.takeWhile isBare
      if bare.isEmpty then none else some (bare, start.drop bare.length)
  found.bind fun (key, rest) => Reading.of? (String.ofList key) (skipSpaces rest)

/-- Keys with dots between them: all but the last one, and the last one. -/
def keys? (input : List Char) : Option (Reading (List String × String) input) := do
  let first ← key? input
  match h : first.rest with
  | '.' :: cs =>
    have : cs.length < input.length := by
      have := first.rest_lt
      simp only [h, List.length_cons] at this
      omega
    let others ← keys? cs
    Reading.of? (first.value :: others.value.1, others.value.2) others.rest
  | _ => Reading.of? ([], first.value) first.rest
termination_by input.length

/-- Keys with dots between them, not too many. -/
def path? (input : List Char) : Option (Reading (List String × String) input) :=
  (keys? input).filter fun r => r.value.1.length + 1 < maxDepth

/-! ### Values -/

/-- The mark before the entries of a table. -/
def openBrace : Char := Char.ofNat 0x7B

/-- The mark after the entries of a table. -/
def closeBrace : Char := Char.ofNat 0x7D

/-- A reader of values. -/
abbrev ValueReader := (input : List Char) → Option (Reading Value input)

/-- A word in letters. -/
def word? (input : List Char) : Option (Value × List Char) :=
  match input with
  | 't' :: 'r' :: 'u' :: 'e' :: rest => some (.truth true, rest)
  | 'f' :: 'a' :: 'l' :: 's' :: 'e' :: rest => some (.truth false, rest)
  | _ => none

/-- A value that is not made of others. -/
def scalar? (input : List Char) : Option (Value × List Char) :=
  (((text? input).map fun (s, rest) => (Value.text (String.ofList s), rest)).or
    (word? input)).or (number? input)

/-- The elements of an array, after its opening bracket, up to the closing one. -/
def elements? (value? : ValueReader) (input : List Char) : Option (List Value × List Char) :=
  match skipLines input with
  | ']' :: rest => some ([], rest)
  | start => do
    let v ← value? start
    match skipLines v.rest with
    | ']' :: rest => some ([v.value], rest)
    | ',' :: rest =>
      if rest.length < input.length then do
        let (others, rest) ← elements? value? rest
        return (v.value :: others, rest)
      else none
    | _ => none
termination_by input.length

/-- A key and its value: the keys, an equals sign and the value. -/
def pair (value? : ValueReader) (input : List Char) :
    Option ((List String × String × Value) × List Char) := do
  let keys ← path? input
  let rest ← after? '=' keys.rest
  let v ← value? (skipSpaces rest)
  return ((keys.value.1, keys.value.2, v.value), v.rest)

/-- The entries of a table between braces, up to the closing brace. -/
def pairs? (value? : ValueReader) (input : List Char) :
    Option (List (List String × String × Value) × List Char) := do
  let (first, rest) ← pair value? input
  match skipSpaces rest with
  | c :: rest =>
    if c = closeBrace then some ([first], rest)
    else if c = ',' ∧ rest.length < input.length then do
      let (others, rest) ← pairs? value? rest
      return (first :: others, rest)
    else none
  | [] => none
termination_by input.length

/-- A table between braces, after the opening one. -/
def braces? (value? : ValueReader) (input : List Char) : Option (Value × List Char) :=
  match after? closeBrace (skipSpaces input) with
  | some rest => some (.table .inline [], rest)
  | none => do
    let (pairs, rest) ← pairs? value? input
    return (.table .inline (← inlineEntries pairs), rest)

/-- A value; `inner?` reads the values within it. -/
def anyValue? (inner? : ValueReader) (input : List Char) : Option (Value × List Char) :=
  match input with
  | [] => none
  | c :: cs =>
    if c = '[' then (elements? inner? cs).map fun (vs, rest) => (.array vs, rest)
    else if c = openBrace then braces? inner? cs
    else scalar? input

/-- A value that is nested at most so deep. -/
def value? : Nat → ValueReader
  | 0, input => (scalar? input).bind fun (v, rest) => Reading.of? v rest
  | depth + 1, input => (anyValue? (value? depth) input).bind fun (v, rest) => Reading.of? v rest

/-! ### Documents -/

/-- A statement with the end of its line. -/
def statement? (input : List Char) : Option (Statement × List Char) :=
  match input with
  | '[' :: '[' :: cs => do
    let keys ← path? cs
    let rest ← after? ']' keys.rest
    let rest ← after? ']' rest
    return (.element keys.value.1 keys.value.2, ← endOfLine? rest)
  | '[' :: cs => do
    let keys ← path? cs
    let rest ← after? ']' keys.rest
    return (.header keys.value.1 keys.value.2, ← endOfLine? rest)
  | cs => do
    let ((path, key, v), rest) ← pair (value? (maxDepth - 1)) cs
    return (.assign path key v, ← endOfLine? rest)

/-- The statements of a document. -/
def statements? (input : List Char) : Option (List Statement) :=
  match skipSpaces input with
  | [] => some []
  | c :: cs =>
    if c = '#' ∨ c = '\n' ∨ c = '\r' then
      (endOfLine? (c :: cs)).bind fun rest =>
        if rest.length < input.length then statements? rest else none
    else do
      let (statement, rest) ← statement? (c :: cs)
      if rest.length < input.length then return statement :: (← statements? rest) else none
termination_by input.length

/-- The entries of a document.  A mark of the byte order may stand before it. -/
def read? (s : String) : Option Entries :=
  let input := match s.toList with
    | '\ufeff' :: cs => cs
    | cs => cs
  (statements? input).bind entriesOf

end Agenda.Toml

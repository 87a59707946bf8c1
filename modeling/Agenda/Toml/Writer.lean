/-
Agenda/Toml/Writer.lean

The written form of texts in TOML documents.  Of the ways to write a text the
first one that needs no escapes is taken: basic, literal, basic in several
lines, literal in several lines.  If all of them need escapes, the text is
written as a basic one, in several lines if it has line ends.
-/
import Agenda.Json.Value

namespace Agenda.Toml

/-! ### What a text contains -/

/-- A control character that has to be escaped. -/
def isControl (c : Char) : Bool :=
  c != '\t' && c != '\n' && (c.toNat < 32 || c.toNat = 127)

/-- The length of the longest run of a character. -/
def longestRun (quote : Char) : (current : Nat) → List Char → Nat
  | current, [] => current
  | current, c :: cs =>
    if c = quote then longestRun quote (current + 1) cs
    else max current (longestRun quote 0 cs)

/-! ### Escapes -/

/-- Four hexadecimal digits, in upper case. -/
def fourDigits (n : Nat) : List Char :=
  let digits := (Nat.toDigits 16 n).map Char.toUpper
  List.replicate (4 - digits.length) '0' ++ digits

/-- How a character that is not a quote stands in a basic text. -/
def writeChar (lines : Bool) (c : Char) : List Char :=
  if c = '\u0008' then ['\\', 'b']
  else if c = '\t' then ['\\', 't']
  else if c = '\n' then (if lines then ['\n'] else ['\\', 'n'])
  else if c = '\u000c' then ['\\', 'f']
  else if c = '\r' then ['\\', 'r']
  else if c = '\\' then ['\\', '\\']
  else if c.toNat < 32 ∨ c.toNat = 127 then ['\\', 'u'] ++ fourDigits c.toNat
  else [c]

/-- The inside of a basic text.  In several lines, up to two quotes in a row stand for
themselves; `quotes` of them came just before. -/
def writeBasic (lines : Bool) : (quotes : Nat) → List Char → List Char
  | _, [] => []
  | quotes, c :: cs =>
    if c = '"' then
      if lines ∧ quotes < 2 then '"' :: writeBasic lines (quotes + 1) cs
      else ['\\', '"'] ++ writeBasic lines 0 cs
    else writeChar lines c ++ writeBasic lines 0 cs

/-! ### Texts -/

/-- A text between quotes. -/
def writeText (s : String) : List Char :=
  let cs := s.toList
  let broken := cs.contains '\n'
  let escapes := cs.any isControl
  let backslash := cs.contains '\\'
  let doubles := longestRun '"' 0 cs
  let singles := longestRun '\'' 0 cs
  let quote3 := ['"', '"', '"'] ++ if broken then ['\n'] else []
  let single3 := ['\'', '\'', '\''] ++ if broken then ['\n'] else []
  if !escapes && !backslash && doubles = 0 && !broken then '"' :: writeBasic false 0 cs ++ ['"']
  else if !escapes && singles = 0 && !broken then '\'' :: cs ++ ['\'']
  else if !escapes && !backslash && doubles ≤ 2 then
    quote3 ++ writeBasic true 0 cs ++ ['"', '"', '"']
  else if !escapes && singles ≤ 2 then single3 ++ cs ++ ['\'', '\'', '\'']
  else if broken then quote3 ++ writeBasic true 0 cs ++ ['"', '"', '"']
  else '"' :: writeBasic false 0 cs ++ ['"']

/-! ### Lines -/

/-- The line of an entry, if there is a value. -/
def entryLine (key : String) : Option (List Char) → List Char
  | some value => key.toList ++ [' ', '=', ' '] ++ value ++ ['\n']
  | none => []

/-- The header of a table, with an empty line before it. -/
def headerLine (key : String) : List Char :=
  '\n' :: '[' :: key.toList ++ [']', '\n']

end Agenda.Toml

/-
Agenda/Json/Value.lean

JSON values as this library writes them, and their two written forms:
compact, and pretty with an indentation of two blanks.  Numbers are integers,
members keep their order, and empty containers take no line of their own.
-/

namespace Agenda.Json

/-- A JSON value. -/
inductive Value where
  /-- The value `null`. -/
  | null
  /-- A truth value. -/
  | bool (b : Bool)
  /-- An integer. -/
  | int (n : Int)
  /-- A text. -/
  | str (s : String)
  /-- A sequence of values. -/
  | arr (elements : List Value)
  /-- Members, each with its name. -/
  | obj (members : List (String × Value))

/-! ### Strings -/

/-- The two last digits of a four-digit escape, for a code point below 32. -/
def controlDigits (n : Nat) : List Char :=
  (if n < 16 then ['0'] else ['1']) ++ Nat.toDigits 16 (n % 16)

/-- How one character stands in a string: quotes, backslashes and controls are escaped, and
everything else stands for itself. -/
def escapeChar (c : Char) : List Char :=
  if c = '"' then ['\\', '"']
  else if c = '\\' then ['\\', '\\']
  else if c = '\u0008' then ['\\', 'b']
  else if c = '\t' then ['\\', 't']
  else if c = '\n' then ['\\', 'n']
  else if c = '\u000c' then ['\\', 'f']
  else if c = '\r' then ['\\', 'r']
  else if c.toNat < 32 then ['\\', 'u', '0', '0'] ++ controlDigits c.toNat
  else [c]

/-- A string with its quotes. -/
def string (s : String) : List Char :=
  '"' :: s.toList.flatMap escapeChar ++ ['"']

/-! ### Scalars -/

/-- An integer in decimal digits. -/
def integer (n : Int) : List Char :=
  (if n < 0 then ['-'] else []) ++ Nat.toDigits 10 n.natAbs

/-- A truth value. -/
def boolean (b : Bool) : List Char :=
  if b then ['t', 'r', 'u', 'e'] else ['f', 'a', 'l', 's', 'e']

/-! ### Values -/

/-- A new line, indented to this depth. -/
def newLine (depth : Nat) : List Char :=
  '\n' :: List.replicate (2 * depth) ' '

mutual

/-- The compact form. -/
def Value.compactList : Value → List Char
  | .null => ['n', 'u', 'l', 'l']
  | .bool b => boolean b
  | .int n => integer n
  | .str s => string s
  | .arr elements => '[' :: compactElements elements ++ [']']
  | .obj members => Char.ofNat 0x7B :: compactMembers members ++ [Char.ofNat 0x7D]

/-- The elements of an array, with commas between them. -/
def compactElements : List Value → List Char
  | [] => []
  | [v] => v.compactList
  | v :: vs => v.compactList ++ ',' :: compactElements vs

/-- The members of an object, with commas between them. -/
def compactMembers : List (String × Value) → List Char
  | [] => []
  | [(name, v)] => string name ++ ':' :: v.compactList
  | (name, v) :: rest => string name ++ ':' :: v.compactList ++ ',' :: compactMembers rest

end

mutual

/-- The pretty form of a value that stands at this depth. -/
def Value.prettyList (depth : Nat) : Value → List Char
  | .null => ['n', 'u', 'l', 'l']
  | .bool b => boolean b
  | .int n => integer n
  | .str s => string s
  | .arr [] => ['[', ']']
  | .arr elements => '[' :: prettyElements (depth + 1) elements ++ newLine depth ++ [']']
  | .obj [] => [Char.ofNat 0x7B, Char.ofNat 0x7D]
  | .obj members =>
    Char.ofNat 0x7B :: prettyMembers (depth + 1) members ++ newLine depth ++ [Char.ofNat 0x7D]

/-- The elements of an array, each on a line of its own. -/
def prettyElements (depth : Nat) : List Value → List Char
  | [] => []
  | [v] => newLine depth ++ v.prettyList depth
  | v :: vs => newLine depth ++ v.prettyList depth ++ ',' :: prettyElements depth vs

/-- The members of an object, each on a line of its own. -/
def prettyMembers (depth : Nat) : List (String × Value) → List Char
  | [] => []
  | [(name, v)] => newLine depth ++ string name ++ ':' :: ' ' :: v.prettyList depth
  | (name, v) :: rest =>
    newLine depth ++ string name ++ ':' :: ' ' :: v.prettyList depth ++ ',' ::
      prettyMembers depth rest

end

/-- The compact form. -/
def Value.compact (v : Value) : String :=
  String.ofList v.compactList

/-- The pretty form. -/
def Value.pretty (v : Value) : String :=
  String.ofList (v.prettyList 0)

end Agenda.Json

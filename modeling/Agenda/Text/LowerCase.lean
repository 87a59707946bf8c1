/-
Agenda/Text/LowerCase.lean

Lower case of whole texts.  Every character has a mapping of its own, with
two exceptions:

* `İ` becomes two characters, `i` and a combining dot above;
* `Σ` becomes `ς` at the end of a word and `σ` elsewhere.  A sigma ends a
  word when a cased character stands before it and none after it, characters
  of the property Case_Ignorable being looked through on both sides.
-/
import Agenda.Text.LowerCaseTable

namespace Agenda.Text

/-! ### Single characters -/

/-- The lower case of one character, regardless of its neighbours. -/
def lowerChar (c : Char) : List Char :=
  if c.toNat < 128 then [c.toLower]
  else if c = 'İ' then ['i', '\u0307']
  else match lowerCaseRuns.find? (·.covers c) with
    | some run => [run.image c]
    | none => [c]

/-- The first character that is not looked through has a case. -/
def casedAhead (cs : List Char) : Bool :=
  match cs.dropWhile caseIgnorable.includes with
  | [] => false
  | c :: _ => casedRanges.includes c

/-! ### Whole texts -/

/-- The lower case of `cs`, where `before` holds the characters that precede it, the nearest one
first. -/
def lowerAfter (before : List Char) : List Char → List Char
  | [] => []
  | c :: cs =>
    (if c = 'Σ' then [if casedAhead before && !casedAhead cs then 'ς' else 'σ'] else lowerChar c)
      ++ lowerAfter (c :: before) cs

/-- The lower case of a text. -/
def lowerList (cs : List Char) : List Char :=
  lowerAfter [] cs

/-- The lower case of a text. -/
def lower (s : String) : String :=
  String.ofList (lowerList s.toList)

@[simp] theorem toList_lower (s : String) : (lower s).toList = lowerList s.toList := by
  simp [lower]

/-- Two texts agree when the case of ASCII letters is ignored. -/
def sameIgnoringAsciiCase (s t : List Char) : Bool :=
  s.map Char.toLower == t.map Char.toLower

end Agenda.Text

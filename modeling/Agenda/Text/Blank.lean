/-
Agenda/Text/Blank.lean

Blank characters and trimming.  A character is blank when it has the Unicode
property White_Space: 25 characters in ten ranges.  Trimming takes blanks off
both ends of a text and never touches its inside.
-/
import Agenda.Text.CharacterRanges

namespace Agenda.Text

/-- The characters with the property White_Space. -/
def blankRanges : CharacterRanges :=
  [(0x09, 0x0D), (0x20, 0x20), (0x85, 0x85), (0xA0, 0xA0), (0x1680, 0x1680), (0x2000, 0x200A),
   (0x2028, 0x2029), (0x202F, 0x202F), (0x205F, 0x205F), (0x3000, 0x3000)]

/-- A blank character. -/
def isBlank (c : Char) : Bool :=
  blankRanges.includes c

/-- The text without the blanks at its start. -/
def dropBlanks (cs : List Char) : List Char :=
  cs.dropWhile isBlank

/-- The text without the blanks at either end. -/
def trimList (cs : List Char) : List Char :=
  (dropBlanks (dropBlanks cs).reverse).reverse

/-- The text without the blanks at either end. -/
def trim (s : String) : String :=
  String.ofList (trimList s.toList)

@[simp] theorem toList_trim (s : String) : (trim s).toList = trimList s.toList := by
  simp [trim]

end Agenda.Text

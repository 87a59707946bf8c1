/-
Agenda/Text/Digits.lean

Natural numbers in decimal digits, the most significant digit first.
-/

namespace Agenda.Text

/-- The value of decimal digits. -/
def decimalValue (digits : List Char) : Nat :=
  digits.foldl (fun n c => 10 * n + (c.toNat - '0'.toNat)) 0

/-- The number written by digits, one at least, perhaps after a plus. -/
def natural? (input : List Char) : Option Nat :=
  let digits := match input with
    | '+' :: cs => cs
    | cs => cs
  if digits.isEmpty ∨ !digits.all Char.isDigit then none else some (decimalValue digits)

@[simp] theorem decimalValue_nil : decimalValue [] = 0 := rfl

theorem decimalValue_concat (digits : List Char) (c : Char) :
    decimalValue (digits ++ [c]) = 10 * decimalValue digits + (c.toNat - '0'.toNat) := by
  simp [decimalValue]

end Agenda.Text

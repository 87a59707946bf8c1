/-
Agenda/Text/EditDistance.lean

The edit distance of two texts: the least number of insertions, deletions
and replacements of single characters that turn one into the other.  It is
computed row by row; the row of a prefix `t` of the first text holds the
distances from `t` to every prefix of the second text.
-/

namespace Agenda.Text

/-- The rest of a row, from the row above it and the entry to the left: `diagonal` is the entry
above `left`, and `above` is the remainder of the row above. -/
def distanceRow (c : Char) (left diagonal : Nat) : List Char → List Nat → List Nat
  | d :: ds, up :: above =>
    let here := min (min (up + 1) (left + 1)) (diagonal + if c = d then 0 else 1)
    here :: distanceRow c here up ds above
  | _, _ => []

/-- The row below `row` for a further character `c` of the first text. -/
def nextDistanceRow (c : Char) (t : List Char) : List Nat → List Nat
  | [] => []
  | diagonal :: above => (diagonal + 1) :: distanceRow c (diagonal + 1) diagonal t above

/-- The least number of single-character edits between two texts. -/
def editDistanceList (s t : List Char) : Nat :=
  (s.foldl (fun row c => nextDistanceRow c t row) (List.range (t.length + 1))).getLastD 0

/-- The least number of single-character edits between two texts. -/
def editDistance (s t : String) : Nat :=
  editDistanceList s.toList t.toList

end Agenda.Text

/-
Agenda/Text/CharacterRanges.lean

Sets of characters given by closed ranges of code points, in ascending order,
and runs of code points that share one case mapping.  The tables of the
character properties are values of these two types, so one look-up serves
them all.
-/

namespace Agenda.Text

/-- A set of characters: closed ranges of code points, ascending and apart. -/
abbrev CharacterRanges := List (Nat × Nat)

/-- Membership of a character in a set of ranges. -/
def CharacterRanges.includes (ranges : CharacterRanges) (c : Char) : Bool :=
  ranges.any fun range => range.1 ≤ c.toNat && c.toNat ≤ range.2

/-- Code points `first, first + stride, …, last`, each mapped to itself plus `offset`. -/
structure CaseRun where
  /-- The first code point of the run. -/
  first : Nat
  /-- The last code point of the run. -/
  last : Nat
  /-- The distance of consecutive members: one, or two where the cases alternate. -/
  stride : Nat
  /-- What a member's code point and its image differ by. -/
  offset : Int

/-- The run covers this character. -/
def CaseRun.covers (run : CaseRun) (c : Char) : Bool :=
  run.first ≤ c.toNat && c.toNat ≤ run.last && (c.toNat - run.first) % run.stride == 0

/-- The image of a covered character. -/
def CaseRun.image (run : CaseRun) (c : Char) : Char :=
  Char.ofNat (c.toNat + run.offset).toNat

end Agenda.Text

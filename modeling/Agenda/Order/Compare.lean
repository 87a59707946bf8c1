/-
Agenda/Order/Compare.lean

Display order: by precedence, and by id where precedences are equal.  Ids
are ordered by their characters' code points.  Sorting keeps the order of
items that compare equal.
-/
import Agenda.Item

namespace Agenda

/-- Compares two items: by precedence, then by id. -/
def Item.compare (a b : Item) : Ordering :=
  (Ord.compare a.precedence b.precedence).then (Ord.compare a.id b.id)

/-- The item `a` may stand before `b`. -/
def Item.precedes (a b : Item) : Bool :=
  (a.compare b).isLE

/-- The items in display order. -/
def sortItems (items : List Item) : List Item :=
  items.mergeSort Item.precedes

end Agenda

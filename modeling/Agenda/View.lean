/-
Agenda/View.lean

The view of a list: its items that a search admits, in display order.  A view
that is to be written back remembers the position of each item in storage.
-/
import Agenda.Order.Compare
import Agenda.Search.Query

namespace Agenda

open Search

/-- The items of a list that the search text admits, in display order. -/
def viewOf (items : List Item) (listId search : String) : List Item :=
  sortItems (items.filter ((Query.parse search).admits listId))

/-- The view of a list, each item with its position among `items`. -/
def slotsOf (items : List Item) (listId search : String) : List (Item × Nat) :=
  (items.zipIdx.filter fun slot => (Query.parse search).admits listId slot.1).mergeSort
    fun a b => a.1.precedes b.1

/-- Puts the items of a view back to their positions. -/
def writeBack (items : List Item) (positions : List Nat) (view : List Item) : List Item :=
  items.mapIdx fun i item => ((positions.zip view).lookup i).getD item

end Agenda

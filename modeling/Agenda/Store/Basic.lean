/-
Agenda/Store/Basic.lean

The store: all lists and all items, in the order of their creation, and the
spacing used when items are placed.
-/
import Agenda.Item
import Agenda.Order.Spacing
import Agenda.Timestamp

namespace Agenda

/-- All lists and items. -/
structure Store where
  /-- The time of the last save. -/
  savedAt : Option Timestamp := none
  /-- All lists, in the order of their creation. -/
  lists : List TodoList := []
  /-- The items of all lists, in the order of their creation. -/
  items : List Item := []
  /-- The spacing used when items are placed or moved. -/
  spacing : Spacing := Spacing.default
deriving DecidableEq, Repr

namespace Store

/-- The store with an inbox and nothing in it. -/
def initial : Store where
  lists := [TodoList.inbox]

/-- There is a list with this id. -/
def hasList (store : Store) (id : String) : Bool :=
  store.lists.any fun list => list.id = id

/-- The store with an inbox: one is put before the other lists if there is none. -/
def withInbox (store : Store) : Store :=
  if store.hasList inboxId then store
  else { store with lists := TodoList.inbox :: store.lists }

/-- The store holds no items. -/
def isEmpty (store : Store) : Bool :=
  store.items.isEmpty

/-- How many items a list has, and how many of them are done. -/
def counts (store : Store) (listId : String) : Nat × Nat :=
  let items := store.items.filter fun item => item.listId = listId
  (items.length, items.countP Item.isComplete)

/-- The store as saved at this time. -/
def stamped (store : Store) (now : Timestamp) : Store :=
  { store with savedAt := some now }

end Store

end Agenda

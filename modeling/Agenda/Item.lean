/-
Agenda/Item.lean

Items and the lists that hold them.  An item names its list by the list's id
and has a precedence, a signed 64-bit number: items with lower precedence
come first.  Every collection starts with one list, the inbox.
-/

namespace Agenda

/-- A single thing to do. -/
structure Item where
  /-- The identifier, meant to be unique. -/
  id : String
  /-- The id of the list that the item belongs to. -/
  listId : String
  /-- The text shown for the item. -/
  summary : String := ""
  /-- Whether the item is done. -/
  isComplete : Bool := false
  /-- The sort key within the list; the lowest comes first. -/
  precedence : Int64 := 0
deriving DecidableEq, Repr

/-- A named collection of items. -/
structure TodoList where
  /-- The identifier, meant to be unique. -/
  id : String
  /-- The name shown for the list. -/
  name : String := ""
deriving DecidableEq, Repr

/-- The id of the list that every store starts with. -/
def inboxId : String := "inbox"

/-- The list that every store starts with. -/
def TodoList.inbox : TodoList where
  id := inboxId
  name := "Inbox"

end Agenda

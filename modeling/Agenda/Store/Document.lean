/-
Agenda/Store/Document.lean

The JSON form of a store: the time of the last save, the lists and the items.
The spacing is not part of it.  Members that have a default may be left out
when a store is read, and members with other names are skipped.
-/
import Agenda.Json.Reader
import Agenda.Json.Value
import Agenda.Store.Basic

namespace Agenda

open Json

/-! ### Writing -/

/-- An item as a JSON value. -/
def Item.toJson (item : Item) : Value :=
  .obj [("id", .str item.id), ("listId", .str item.listId), ("summary", .str item.summary),
    ("isComplete", .bool item.isComplete), ("precedence", .int item.precedence.toInt)]

/-- A list as a JSON value. -/
def TodoList.toJson (list : TodoList) : Value :=
  .obj [("id", .str list.id), ("name", .str list.name)]

/-- A store as a JSON value; a store that was never saved has no time. -/
def Store.toJson (store : Store) : Value :=
  .obj ((store.savedAt.toList.map fun t => ("savedAt", .str t.render)) ++
    [("lists", .arr (store.lists.map TodoList.toJson)),
      ("items", .arr (store.items.map Item.toJson))])

/-- The text that is saved for a store. -/
def Store.document (store : Store) : String :=
  store.toJson.pretty

/-! ### Reading -/

/-- The fields of an item read so far. -/
structure ItemDraft where
  /-- The id. -/
  id : Option String := none
  /-- The id of the list. -/
  listId : Option String := none
  /-- The summary. -/
  summary : Option String := none
  /-- The completion flag. -/
  isComplete : Option Bool := none
  /-- The precedence. -/
  precedence : Option Int64 := none
deriving DecidableEq, Repr

/-- The fields of a list read so far. -/
structure TodoListDraft where
  /-- The id. -/
  id : Option String := none
  /-- The name. -/
  name : Option String := none
deriving DecidableEq, Repr

/-- The fields of a store read so far. -/
structure StoreDraft where
  /-- The time of the last save, itself optional. -/
  savedAt : Option (Option Timestamp) := none
  /-- The lists. -/
  lists : Option (List TodoList) := none
  /-- The items. -/
  items : Option (List Item) := none
deriving DecidableEq, Repr

/-- A value that is read into a draft. -/
def readInto {α δ : Type} (reader : Reader α) (f : α → δ) : Reader δ := fun input =>
  (reader input).map (·.map f)

/-- How items are read. -/
def itemFields : Fields ItemDraft Item where
  blank := {}
  names := ["id", "listId", "summary", "isComplete", "precedence"]
  isSet name draft :=
    if name = "id" then draft.id.isSome
    else if name = "listId" then draft.listId.isSome
    else if name = "summary" then draft.summary.isSome
    else if name = "isComplete" then draft.isComplete.isSome
    else draft.precedence.isSome
  read name draft :=
    if name = "id" then readInto text fun v => { draft with id := some v }
    else if name = "listId" then readInto text fun v => { draft with listId := some v }
    else if name = "summary" then readInto text fun v => { draft with summary := some v }
    else if name = "isComplete" then readInto truth fun v => { draft with isComplete := some v }
    else readInto int64 fun v => { draft with precedence := some v }
  finish draft := do
    return {
      id := ← draft.id
      listId := ← draft.listId
      summary := draft.summary.getD ""
      isComplete := draft.isComplete.getD false
      precedence := draft.precedence.getD 0 }

/-- How lists are read. -/
def listFields : Fields TodoListDraft TodoList where
  blank := {}
  names := ["id", "name"]
  isSet name draft := if name = "id" then draft.id.isSome else draft.name.isSome
  read name draft :=
    if name = "id" then readInto text fun v => { draft with id := some v }
    else readInto text fun v => { draft with name := some v }
  finish draft := do
    return { id := ← draft.id, name := draft.name.getD "" }

/-- How stores are read. -/
def storeFields : Fields StoreDraft Store where
  blank := {}
  names := ["savedAt", "lists", "items"]
  isSet name draft :=
    if name = "savedAt" then draft.savedAt.isSome
    else if name = "lists" then draft.lists.isSome
    else draft.items.isSome
  read name draft :=
    if name = "savedAt" then
      readInto (nullable (textAs Timestamp.read?)) fun v => { draft with savedAt := some v }
    else if name = "lists" then
      readInto (array (record listFields)) fun v => { draft with lists := some v }
    else readInto (array (record itemFields)) fun v => { draft with items := some v }
  finish draft :=
    some { savedAt := draft.savedAt.getD none
           lists := draft.lists.getD []
           items := draft.items.getD [] }

/-- The store that a text describes, with the usual spacing. -/
def Store.ofDocument (text : String) : Except Fault Store :=
  readWhole (record storeFields) text

end Agenda

/-
Agenda/Store/Action.lean

Actions on the store.  Each one either fails, and then there is no new store,
or returns the new store with what it did.  Views are computed afresh; nothing
is remembered between actions.  Ids of new items and lists are given by the
caller.  Agenda.Store.InPlace has the actions as programs that change the store
step by step.
-/
import Agenda.Store.Basic
import Agenda.Store.Error
import Agenda.Order.Placement
import Agenda.Selection
import Agenda.View

namespace Agenda.Store

open Text

/-! ### Looking up by id -/

/-- The first item with this id. -/
def item? (store : Store) (id : String) : Option Item :=
  store.items.find? fun item => item.id = id

/-- The first item with this id changed by `f`. -/
def updateFirst (id : String) (f : Item → Item) : List Item → List Item
  | [] => []
  | item :: items => if item.id = id then f item :: items else item :: updateFirst id f items

/-- The items of a list that a search admits, in display order. -/
def view (store : Store) (listId search : String) : List Item :=
  viewOf store.items listId search

/-! ### Items -/

/-- Creates an item in a list, just after the selected position of the list's view or at its
end. -/
def addItem (store : Store) (listId summary : String) (after : Selection) (newId : String) :
    Except StoreError (Store × Item × Placement) :=
  if store.hasList listId then
    let slots := slotsOf store.items listId ""
    let fresh : Item := { id := newId, listId, summary := trim summary }
    let (placement, item, view) :=
      store.spacing.insertAt (slots.map Prod.fst) fresh (after.insertionIndex slots.length)
    let items := writeBack store.items (slots.map Prod.snd) view
    .ok ({ store with items := items ++ [item] }, item, placement)
  else .error (.listNotFound listId none)

/-- Moves an item to a position of the view of a list that is filtered by a search.  Items that
the search hides keep their precedence. -/
def moveItem (store : Store) (listId search id : String) (target : Nat) :
    Except StoreError (Store × Placement) :=
  match store.item? id with
  | none => .error (.itemNotFound id)
  | some _ =>
    let slots := slotsOf store.items listId search
    match store.spacing.reorder (slots.map Prod.fst) id target with
    | none => .error (.notInView id)
    | some (placement, view) =>
      .ok ({ store with items := writeBack store.items (slots.map Prod.snd) view }, placement)

/-- Changes the first item with an id. -/
def updateItem (store : Store) (id : String) (f : Item → Item) :
    Except StoreError (Store × Item) :=
  match store.item? id with
  | none => .error (.itemNotFound id)
  | some item => .ok ({ store with items := updateFirst id f store.items }, f item)

/-- Sets the completion flag of an item. -/
def setComplete (store : Store) (id : String) (isComplete : Bool) :
    Except StoreError (Store × Item) :=
  store.updateItem id fun item => { item with isComplete }

/-- Flips the completion flag of an item. -/
def toggleComplete (store : Store) (id : String) : Except StoreError (Store × Item) :=
  store.updateItem id fun item => { item with isComplete := !item.isComplete }

/-- Replaces the summary of an item. -/
def setSummary (store : Store) (id summary : String) : Except StoreError (Store × Item) :=
  store.updateItem id fun item => { item with summary := trim summary }

/-- Removes an item and returns it. -/
def removeItem (store : Store) (id : String) : Except StoreError (Store × Item) :=
  match store.item? id with
  | none => .error (.itemNotFound id)
  | some item =>
    .ok ({ store with items := store.items.eraseP fun item => item.id = id }, item)

/-! ### Lists -/

/-- Creates a list. -/
def addList (store : Store) (name newId : String) : Except StoreError (Store × TodoList) :=
  (checkListName name).map fun name =>
    let list : TodoList := { id := newId, name }
    ({ store with lists := store.lists ++ [list] }, list)

/-- The first list with this id renamed. -/
def renameFirst (id name : String) : List TodoList → List TodoList
  | [] => []
  | list :: lists =>
    if list.id = id then { list with name } :: lists else list :: renameFirst id name lists

/-- Renames a list. -/
def renameList (store : Store) (id name : String) : Except StoreError (Store × TodoList) :=
  (checkListName name).bind fun name =>
    match store.lists.find? fun list => list.id = id with
    | none => .error (.listNotFound id none)
    | some list =>
      .ok ({ store with lists := renameFirst id name store.lists }, { list with name })

/-- Removes a list and every item in it.  Returns the list and how many items it had. -/
def removeList (store : Store) (id : String) : Except StoreError (Store × TodoList × Nat) :=
  match store.lists.find? fun list => list.id = id with
  | none => .error (.listNotFound id none)
  | some list =>
    if id = inboxId then .error (.protectedList list.name)
    else
      let kept := store.items.filter fun item => !decide (item.listId = id)
      .ok
        ({ store with
            items := kept
            lists := store.lists.eraseP fun list => list.id = id },
          list, store.items.length - kept.length)

end Agenda.Store

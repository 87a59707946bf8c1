/-
Agenda/Store/InPlace.lean

The actions on the store as programs that change it in place: check after
check and write after write, in the order in which they are made.  A program
that fails leaves the store as its last write left it, so what a failure does
to the store is a question about the order of checks and writes, and not a
matter of definition.

A view that is to be changed is the list of the positions at which its items
stand in storage; an item is read and written where it stands.
-/
import Agenda.Store.Action

namespace Agenda

/-- A program on a store.  Where it fails it still leaves a store. -/
abbrev InPlace := EStateM StoreError Store

namespace InPlace

open Text

/-! ### Looking up by id -/

/-- The first entry with this id, and its position. -/
def slot? {α : Type} (idOf : α → String) (id : String) (entries : List α) : Option (α × Nat) :=
  entries.zipIdx.find? fun slot => idOf slot.1 = id

/-- Finds the first entry with this id, and its position, or fails. -/
def find {α : Type} (idOf : α → String) (entriesOf : Store → List α) (fault : StoreError)
    (id : String) : InPlace (α × Nat) := do
  match slot? idOf id (entriesOf (← get)) with
  | some slot => return slot
  | none => throw fault

/-- The first item with this id, and its position. -/
def findItem (id : String) : InPlace (Item × Nat) :=
  find Item.id Store.items (.itemNotFound id) id

/-- The first list with this id, and its position. -/
def findList (id : String) : InPlace (TodoList × Nat) :=
  find TodoList.id Store.lists (.listNotFound id none) id

/-- Fails unless there is a list with this id. -/
def requireList (id : String) : InPlace Unit := do
  if !(← get).hasList id then
    throw (.listNotFound id none)

/-! ### Views -/

/-- The positions in storage of the items of a view, in display order. -/
def positionsOf (items : List Item) (listId search : String) : List Nat :=
  (slotsOf items listId search).map Prod.snd

/-- The items at some positions. -/
def itemsAt (items : List Item) (view : List Nat) : List Item :=
  view.filterMap fun position => items[position]?

/-- The precedence of the item at an index of a view, or `fallback` without an index. -/
def readRank (view : List Nat) (index : Option Nat) (fallback : Int64) : InPlace Int64 := do
  return rankAt ((itemsAt (← get).items view).map Item.precedence) index fallback

/-- Gives the item at a position a precedence. -/
def writeRank (position : Nat) (precedence : Int64) : InPlace Unit :=
  modify fun store =>
    { store with items := store.items.modify position fun item => { item with precedence } }

/-- Gives the item at an index of a view a precedence. -/
def writeRankAt (view : List Nat) (index : Nat) (precedence : Int64) : InPlace Unit :=
  match view[index]? with
  | some position => writeRank position precedence
  | none => return ()

/-! ### Placing -/

/-- Numbers the items of a view from `index` on, starting with `value`: the slot `skip` is left
alone, and an extra step follows the slot `prev`. -/
def renumberFrom (spacing : Spacing) (skip prev : Option Nat) (index : Nat) (value : Int64) :
    List Nat → InPlace Unit
  | [] => return ()
  | position :: view => do
    let next (value : Int64) : Int64 := saturate (value.toInt + spacing.step)
    if skip = some index then
      renumberFrom spacing skip prev (index + 1) (next value) view
    else
      writeRank position value
      renumberFrom spacing skip prev (index + 1)
        (if prev = some index then next (next value) else next value) view

/-- Finds a precedence for the place `target` of a view, which is numbered afresh if there is no
room.  Tells whether it was. -/
def place (spacing : Spacing) (view : List Nat) (origin : Option Nat) (target : Nat) :
    InPlace (Int64 × Bool) := do
  let (prev, next) := neighbours origin target view.length
  let low ← readRank view prev 0
  let high ← readRank view next (spacing.beyond target)
  if (saturate (high.toInt - low.toInt)).toInt < spacing.minGap then
    renumberFrom spacing origin prev 0 (saturate spacing.step) view
    let low ← readRank view prev 0
    let high ← readRank view next (spacing.beyond target)
    return (midpoint low high, true)
  else
    return (midpoint low high, false)

/-- Moves the first item of a view with this id to the place `target`. -/
def reorder (spacing : Spacing) (view : List Nat) (id : String) (target : Nat) :
    InPlace (Option Placement) := do
  match slot? Item.id id (itemsAt (← get).items view) with
  | none => return none
  | some (_, origin) =>
    let target := min target (view.length - 1)
    if origin = target then
      return some .unchanged
    else
      let (precedence, renumbered) ← place spacing view (some origin) target
      writeRankAt view origin precedence
      return some (.placed precedence renumbered)

/-- Gives `item`, which is not in storage yet, the precedence that puts it at the place `target`
of a view. -/
def insertAt (spacing : Spacing) (view : List Nat) (item : Item) (target : Nat) :
    InPlace (Item × Placement) := do
  let (precedence, renumbered) ← place spacing view none (min target view.length)
  return ({ item with precedence }, .placed precedence renumbered)

/-! ### Items -/

/-- Creates an item in a list. -/
def addItem (listId summary : String) (after : Selection) (newId : String) :
    InPlace (Item × Placement) := do
  requireList listId
  let fresh : Item := { id := newId, listId, summary := trim summary }
  let store ← get
  let view := positionsOf store.items listId ""
  let (item, placement) ←
    insertAt store.spacing view fresh (after.insertionIndex view.length)
  modify fun store => { store with items := store.items ++ [item] }
  return (item, placement)

/-- Moves an item to a position of the view of a list that is filtered by a search. -/
def moveItem (listId search id : String) (target : Nat) : InPlace Placement := do
  let _ ← findItem id
  let store ← get
  let view := positionsOf store.items listId search
  match ← reorder store.spacing view id target with
  | some placement => return placement
  | none => throw (.notInView id)

/-- Changes the first item with an id. -/
def updateItem (id : String) (f : Item → Item) : InPlace Item := do
  let (item, position) ← findItem id
  modify fun store => { store with items := store.items.modify position f }
  return f item

/-- Sets the completion flag of an item. -/
def setComplete (id : String) (isComplete : Bool) : InPlace Item :=
  updateItem id fun item => { item with isComplete }

/-- Flips the completion flag of an item. -/
def toggleComplete (id : String) : InPlace Item :=
  updateItem id fun item => { item with isComplete := !item.isComplete }

/-- Replaces the summary of an item. -/
def setSummary (id summary : String) : InPlace Item :=
  updateItem id fun item => { item with summary := trim summary }

/-- Removes an item and returns it. -/
def removeItem (id : String) : InPlace Item := do
  let (item, position) ← findItem id
  modify fun store => { store with items := store.items.eraseIdx position }
  return item

/-! ### Lists -/

/-- Creates a list. -/
def addList (name newId : String) : InPlace TodoList := do
  let name ← ofExcept (checkListName name)
  let list : TodoList := { id := newId, name }
  modify fun store => { store with lists := store.lists ++ [list] }
  return list

/-- Renames a list. -/
def renameList (id name : String) : InPlace TodoList := do
  let name ← ofExcept (checkListName name)
  let (list, position) ← findList id
  modify fun store =>
    { store with lists := store.lists.modify position fun list => { list with name } }
  return { list with name }

/-- Removes a list and every item in it.  Returns the list and how many items it had. -/
def removeList (id : String) : InPlace (TodoList × Nat) := do
  let (list, position) ← findList id
  if id = inboxId then
    throw (.protectedList list.name)
  let before := (← get).items.length
  modify fun store =>
    { store with items := store.items.filter fun item => !decide (item.listId = id) }
  let kept := (← get).items.length
  modify fun store => { store with lists := store.lists.eraseIdx position }
  return (list, before - kept)

end InPlace

end Agenda

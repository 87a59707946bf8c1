/-
Agenda/Selection.lean

The selection of a view: at most one position, which may lie outside of the
view.
-/
import Agenda.Item

namespace Agenda

/-- The selected position of a view, if any. -/
structure Selection where
  /-- The position, counted from 0. -/
  index : Option Nat := none
deriving DecidableEq, Repr

namespace Selection

/-- Nothing is selected. -/
def empty : Selection := {}

/-- The selection of one position. -/
def ofIndex (index : Nat) : Selection where
  index := some index

/-- Selects the first item of the view with this id, or nothing if there is none. -/
def ofId (view : List Item) (id : String) : Selection where
  index := view.findIdx? fun item => item.id = id

/-- The selected item, if the selection is inside of the view. -/
def item? (selection : Selection) (view : List Item) : Option Item :=
  selection.index.bind fun i => view[i]?

/-- One position down in a view of this length.  The last position is kept; from nothing, the
first position is selected. -/
def next (selection : Selection) (length : Nat) : Selection :=
  let following := match selection.index with
    | some i => i + 1
    | none => 0
  if following < length then Selection.ofIndex following else selection

/-- One position up.  The first position is kept. -/
def previous (selection : Selection) : Selection :=
  match selection.index with
  | some (i + 1) => Selection.ofIndex i
  | _ => selection

/-- Where a new item goes: just after the selection, or at the end. -/
def insertionIndex (selection : Selection) (length : Nat) : Nat :=
  match selection.index with
  | some i => min (i + 1) length
  | none => length

end Selection

end Agenda

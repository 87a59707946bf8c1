/-
Agenda/Report/Table.lean

Tables for people: the items of a view with their positions, and all lists
with the number of their items.
-/
import Agenda.Report.Cell
import Agenda.Store.Basic

namespace Agenda.Report

/-! ### Views -/

/-- One line of the table of a view. -/
def itemLine (index id status summary : String) : String :=
  padded 4 index ++ " " ++ padded 8 id ++ " " ++ padded 4 status ++ " " ++ summary

/-- The line of an item at a position of the view. -/
def itemRow (colors : Bool) (item : Item) (index : Nat) : String :=
  itemLine (toString index) (shortId item.id) (statusCell item.isComplete colors)
    (summaryCell item.summary item.isComplete colors) ++ "\n"

/-- The table of a view. -/
def viewTable (view : List Item) (colors : Bool) : String :=
  if view.isEmpty then "No items found.\n"
  else
    headerLine (itemLine "#" "ID" "Done" "Summary") colors ++
      String.join (view.mapIdx fun index item => itemRow colors item index)

/-! ### Lists -/

/-- The width of the column of names. -/
def nameWidth : Nat := 25

/-- One line of the table of lists. -/
def listLine (marker id items done name : String) : String :=
  padded 2 marker ++ padded 8 id ++ " " ++ padded 6 items ++ " " ++ padded 6 done ++ " " ++ name

/-- The line of a list; the current one is marked. -/
def listRow (store : Store) (current : String) (colors : Bool) (list : TodoList) : String :=
  let isCurrent : Bool := list.id = current
  let (items, done) := store.counts list.id
  listLine (if isCurrent then "*" else "") (shortId list.id) (toString items) (toString done)
    (Style.bold.paintIf (colors && isCurrent) (shortened list.name nameWidth)) ++ "\n"

/-- The time of the last save. -/
def savedAtCell : Option Timestamp → String
  | some t => t.renderShort
  | none => "never"

/-- The table of all lists, with the time of the last save below. -/
def listsTable (store : Store) (current : String) (colors : Bool) : String :=
  headerLine (listLine "" "ID" "Items" "Done" "Name") colors ++
    String.join (store.lists.map (listRow store current colors)) ++
    "\nLast saved: " ++ savedAtCell store.savedAt ++ "\n"

end Agenda.Report

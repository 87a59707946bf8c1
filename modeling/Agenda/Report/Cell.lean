/-
Agenda/Report/Cell.lean

The cells of tables: ids and names cut to their columns, the check box of an
item, its summary, and the padding to the width of a column.  Widths count
characters.
-/
import Agenda.Report.Style

namespace Agenda.Report

/-! ### Cutting and padding -/

/-- The first six characters of an id. -/
def shortId (id : String) : String :=
  String.ofList (id.toList.take 6)

/-- The text if it has at most `width` characters, or else its start followed by three dots. -/
def shortened (s : String) (width : Nat) : String :=
  if width < s.length then String.ofList (s.toList.take (width - 3)) ++ "..." else s

/-- The text followed by the blanks that fill a column; a longer text stays as it is. -/
def padded (width : Nat) (s : String) : String :=
  s ++ String.ofList (List.replicate (width - s.length) ' ')

@[simp] theorem toList_shortId (id : String) : (shortId id).toList = id.toList.take 6 := by
  simp [shortId]

/-! ### Cells of items -/

/-- The check box of an item, green when it is checked. -/
def statusCell (isComplete colors : Bool) : String :=
  Style.green.paintIf (colors && isComplete) (if isComplete then "[x]" else "[ ]")

/-- The summary of an item; that of a done one is dimmed and struck out. -/
def summaryCell (summary : String) (isComplete colors : Bool) : String :=
  if colors && isComplete then Style.struck.paint (Style.dimmed.paint summary) else summary

/-- The line above the columns of a table. -/
def headerLine (header : String) (colors : Bool) : String :=
  Style.dimmed.paintIf colors header ++ "\n"

end Agenda.Report

/-
Agenda/Program/Outline.lean

What a command tells after it was carried out, for people and in JSON.
-/
import Agenda.Json.Value
import Agenda.Order.Placement
import Agenda.Report.Table
import Agenda.Settings.Basic
import Agenda.Store.Document

namespace Agenda

open Agenda.Report

/-- What is done to several items at once. -/
inductive BatchAction where
  /-- They are marked as done. -/
  | complete
  /-- They are marked as not done. -/
  | reopen
  /-- They are removed. -/
  | delete
deriving DecidableEq, Repr

namespace BatchAction

/-- The word before each item. -/
def verb : BatchAction → String
  | .complete => "Completed"
  | .reopen => "Reopened"
  | .delete => "Deleted"

/-- The name of the items in JSON. -/
def key : BatchAction → String
  | .complete => "completed"
  | .reopen => "reopened"
  | .delete => "deleted"

end BatchAction

/-- What a command tells. -/
inductive Outline where
  /-- The view of a list. -/
  | view (listId listName search : String) (items : List Item)
  /-- An item was created at this position of the list. -/
  | added (item : Item) (index : Nat) (listName : String)
  /-- An item was moved to this position of the view, or was there already. -/
  | moved (item : Item) (index : Nat) (placement : Placement)
  /-- Something was done to several items. -/
  | batch (action : BatchAction) (items : List Item)
  /-- An item was changed. -/
  | updated (item : Item)
  /-- All lists. -/
  | lists (store : Store) (current : String)
  /-- A list was created. -/
  | listAdded (list : TodoList)
  /-- A list was renamed; it was called by this name or id. -/
  | listRenamed (calledBy : String) (list : TodoList)
  /-- A list was removed with this many items. -/
  | listRemoved (list : TodoList) (items : Nat)
  /-- All settings. -/
  | settings (path : String) (isThere : Bool) (settings : Settings)
  /-- A setting was assigned. -/
  | assigned (path key value : String)
  /-- The place of the settings. -/
  | settingsPath (path : String) (isThere : Bool)

/-! ### JSON -/

/-- The members of an object whose values may be missing. -/
def membersOf (members : List (String × Option Json.Value)) : Json.Value :=
  .obj (members.filterMap fun (name, v) => v.map fun v => (name, v))

/-- An item at a position, with the id of its list if that is not clear from the rest. -/
def itemJson (index : Option Nat) (withList : Bool) (item : Item) : Json.Value :=
  membersOf [
    ("index", index.map fun i => .int i),
    ("id", some (.str item.id)),
    ("listId", if withList then some (.str item.listId) else none),
    ("summary", some (.str item.summary)),
    ("isComplete", some (.bool item.isComplete)),
    ("precedence", some (.int item.precedence.toInt))]

/-- A list with the number of its items. -/
def countedJson (store : Store) (current : String) (list : TodoList) : Json.Value :=
  .obj [
    ("current", .bool (list.id = current)),
    ("done", .int (store.counts list.id).2),
    ("id", .str list.id),
    ("items", .int (store.counts list.id).1),
    ("name", .str list.name)]

/-- The settings as a JSON value. -/
def Settings.toJson (settings : Settings) : Json.Value :=
  membersOf [
    ("default_list", settings.defaultList.map .str),
    ("ordering", some (membersOf
      [("min_gap", settings.minGap.map fun n => .int n.toInt),
        ("step", settings.step.map fun n => .int n.toInt)])),
    ("output", some (membersOf [("color", settings.color.map .bool)])),
    ("store", some (membersOf [("path", settings.storePath.map .str)])),
    ("version", some (.int settings.version.toNat))]

namespace Outline

/-- The outline as a JSON value. -/
def toJson : Outline → Json.Value
  | .view listId listName search items =>
    .obj [("listId", .str listId), ("listName", .str listName), ("search", .str search),
      ("items", .arr (items.mapIdx fun index item => itemJson (some index) false item))]
  | .added item index _ => itemJson (some index) true item
  | .moved item index placement =>
    .obj [("id", .str item.id), ("summary", .str item.summary), ("index", .int index),
      ("precedence", .int item.precedence.toInt), ("changed", .bool (placement != .unchanged)),
      ("renumbered", .bool placement.renumbered)]
  | .batch action items =>
    .obj [
      (action.key, .arr (items.map fun item =>
        .obj [("id", .str item.id), ("summary", .str item.summary)])),
      ("total", .int items.length)]
  | .updated item => itemJson none true item
  | .lists store current =>
    .obj [("lists", .arr (store.lists.map (countedJson store current))),
      ("savedAt", match store.savedAt with
        | some t => .str t.render
        | none => .null)]
  | .listAdded list => list.toJson
  | .listRenamed _ list => list.toJson
  | .listRemoved list items =>
    .obj [("id", .str list.id), ("name", .str list.name), ("removedItems", .int items)]
  | .settings path isThere chosen =>
    .obj [("config", chosen.toJson), ("exists", .bool isThere), ("path", .str path)]
  | .assigned path key value =>
    .obj [("key", .str key), ("path", .str path), ("status", .str "success"),
      ("value", .str value)]
  | .settingsPath path isThere => .obj [("exists", .bool isThere), ("path", .str path)]

/-! ### Text -/

/-- An item in a sentence. -/
def mention (item : Item) : String :=
  item.summary ++ " (" ++ shortId item.id ++ ")"

/-- One setting, if it is set. -/
def settingLine (name : String) : Option String → String
  | some value => "  " ++ name ++ ": " ++ value ++ "\n"
  | none => ""

/-- The settings in their sections. -/
def settingLines (chosen : Settings) : String :=
  "Settings:\n" ++ settingLine "default_list" chosen.defaultList ++
    "\n[output]\n" ++ settingLine "color" (chosen.color.map toString) ++
    "\n[store]\n" ++ settingLine "path" chosen.storePath ++
    "\n[ordering]\n" ++ settingLine "step" (chosen.step.map fun n => toString n.toInt) ++
    settingLine "min_gap" (chosen.minGap.map fun n => toString n.toInt)

/-- The outline for people. -/
def text (colors verbose : Bool) : Outline → String
  | .view _ _ _ items => viewTable items colors
  | .added item index listName =>
    "Added: " ++ mention item ++ " at #" ++ toString index ++ " in " ++ listName ++ "\n"
  | .moved item index .unchanged =>
    mention item ++ " is already at #" ++ toString index ++ "\n"
  | .moved item index (.placed _ renumbered) =>
    "Moved: " ++ mention item ++ " to #" ++ toString index ++ "\n" ++
      if renumbered && verbose then "(renumbered the view to make room)\n" else ""
  | .batch action items =>
    String.join (items.map fun item => action.verb ++ ": " ++ mention item ++ "\n")
  | .updated item => "Updated: " ++ mention item ++ "\n"
  | .lists store current => listsTable store current colors
  | .listAdded list => "Created list: " ++ list.name ++ "\n"
  | .listRenamed calledBy list => "Renamed list: " ++ calledBy ++ " -> " ++ list.name ++ "\n"
  | .listRemoved list items =>
    "Deleted list: " ++ list.name ++ " (" ++ toString items ++ " item(s) removed)\n"
  | .settings path isThere chosen =>
    Style.bold.paintIf colors (Style.green.paintIf colors "Configuration") ++ "\n\n" ++
      "File: " ++ path ++ "\n" ++ "Exists: " ++ toString isThere ++ "\n\n" ++
      if isThere then settingLines chosen
      else "(No config file exists. Run 'td config set <key> <value>' to create one.)\n"
  | .assigned _ key value => "Set " ++ key ++ " = " ++ value ++ "\n"
  | .settingsPath path _ => path ++ "\n"

/-- The outline is told even when nothing but failures should be. -/
def isWanted : Outline → Bool
  | .settingsPath .. => true
  | _ => false

end Outline

end Agenda

/-
Agenda/Log.lean

What the program tells about its work.  All events have the level `debug`, so
they are shown only when somebody asks for that much detail.
-/
import Agenda.Files.Path
import Agenda.Order.Placement
import Agenda.Text.LowerCase
import Agenda.Text.Quoted

namespace Agenda

open Text

/-! ### Levels -/

/-- How much is told, from nothing to everything. -/
inductive LogLevel where
  /-- Nothing. -/
  | off
  /-- Failures. -/
  | error
  /-- Also what may be wrong. -/
  | warn
  /-- Also what is done. -/
  | info
  /-- Also how it is done. -/
  | debug
  /-- Everything. -/
  | trace
deriving DecidableEq, Repr

namespace LogLevel

/-- The name of a level. -/
def name : LogLevel → String
  | .off => "off"
  | .error => "error"
  | .warn => "warn"
  | .info => "info"
  | .debug => "debug"
  | .trace => "trace"

/-- The level with this name, in any case. -/
def ofName? (s : String) : Option LogLevel :=
  [off, error, warn, info, debug, trace].find? fun level =>
    sameIgnoringAsciiCase s.toList level.name.toList

/-- The level that the options ask for. -/
def ofOptions (verbose quiet : Bool) : LogLevel :=
  if verbose then .debug else if quiet then .error else .warn

/-- The events of the program are told at this level. -/
def showsDebug : LogLevel → Bool
  | .debug | .trace => true
  | _ => false

end LogLevel

/-! ### Events -/

/-- A step of the work. -/
inductive LogEvent where
  /-- There are no settings to read. -/
  | noSettings (path : Path)
  /-- A store is about to be read. -/
  | openingStore (path : Path)
  /-- A store without an inbox was read. -/
  | restoredInbox (path : Path)
  /-- There is no store to read. -/
  | startingEmpty (path : Path)
  /-- A store was written. -/
  | savedStore (path : Path) (items : Nat)
  /-- A search was understood like this. -/
  | parsedSearch (query : String)
  /-- A view was numbered afresh. -/
  | renumberedView (length : Nat) (step : Int)
  /-- An item was created. -/
  | addedItem (id listId : String) (placement : Placement)
  /-- An item was moved, or found in its place. -/
  | movedItem (id listId search : String) (target : Nat) (placement : Placement)
  /-- A list was created. -/
  | addedList (id name : String)
  /-- A list was removed with this many items. -/
  | removedList (id : String) (items : Nat)
deriving DecidableEq, Repr

/-- What became of an item, in a log line. -/
def Placement.logged : Placement → String
  | .unchanged => "Unchanged"
  | .placed precedence renumbered =>
    "Placed \x7b precedence: " ++ toString precedence.toInt ++ ", renumbered: " ++
      toString renumbered ++ " \x7d"

namespace LogEvent

/-- The event in words. -/
def message : LogEvent → String
  | .noSettings _ => "no config file, using defaults"
  | .openingStore _ => "opening store"
  | .restoredInbox _ => "restored missing inbox list"
  | .startingEmpty _ => "no store file, starting empty"
  | .savedStore .. => "saved store"
  | .parsedSearch _ => "parsed search"
  | .renumberedView .. => "renumbered view"
  | .addedItem .. => "added item"
  | .movedItem .. => "moved item"
  | .addedList .. => "added list"
  | .removedList .. => "removed list"

/-- The particulars of the event, each with its name. -/
def fields : LogEvent → List (String × String)
  | .noSettings path | .openingStore path | .restoredInbox path | .startingEmpty path =>
    [("path", path.toString)]
  | .savedStore path items => [("path", path.toString), ("items", toString items)]
  | .parsedSearch query => [("query", query)]
  | .renumberedView length step => [("len", toString length), ("step", toString step)]
  | .addedItem id listId placement =>
    [("id", id), ("list_id", quoted listId), ("placement", placement.logged)]
  | .movedItem id listId search target placement =>
    [("id", quoted id), ("list_id", quoted listId), ("search", quoted search),
      ("to_index", toString target), ("placement", placement.logged)]
  | .addedList id name => [("id", id), ("name", name)]
  | .removedList id items => [("id", quoted id), ("removed", toString items)]

/-- The line of the log, without the time. -/
def line (event : LogEvent) : String :=
  "DEBUG " ++ event.message ++
    String.join (event.fields.map fun (name, value) => " " ++ name ++ "=" ++ value)

end LogEvent

end Agenda

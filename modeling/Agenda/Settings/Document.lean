/-
Agenda/Settings/Document.lean

The document of the settings: a version, the default list, and one section
each for output, store and ordering.  Every version is read alike.  Keys that
are not known are ignored, but a known key with a value of another type spoils
the document.

A section may be left out.  It may also be given as an array of its values in
order, in which then none may be missing.
-/
import Agenda.Json.Value
import Agenda.Settings.Basic
import Agenda.Toml.Reader
import Agenda.Toml.Writer

namespace Agenda

open Toml

/-! ### Reading values -/

/-- A text. -/
def asText : Toml.Value → Option String
  | .text s => some s
  | _ => none

/-- A truth value. -/
def asTruth : Toml.Value → Option Bool
  | .truth b => some b
  | _ => none

/-- An integer. -/
def asInteger : Toml.Value → Option Int64
  | .integer n => some n
  | _ => none

/-- The number of a version: an integer of 32 bits without sign. -/
def asVersion (v : Toml.Value) : Option UInt32 :=
  (asInteger v).bind fun n =>
    if 0 ≤ n.toInt ∧ n.toInt < UInt32.size then some (.ofNat n.toInt.toNat) else none

/-- The value of a key, if it is there; it must be of the right type then. -/
def field {α : Type} (as : Toml.Value → Option α) (key : String) (entries : Entries) :
    Option (Option α) :=
  match entries.lookup key with
  | none => some none
  | some v => (as v).map some

/-- The entries of a section whose keys in order are `keys`.  A date has no entries. -/
def section? (keys : List String) (key : String) (entries : Entries) : Option Entries :=
  match entries.lookup key with
  | none => some []
  | some (.table _ found) => some found
  | some .moment => some []
  | some (.array vs) => if keys.length ≤ vs.length then some (keys.zip vs) else none
  | some _ => none

/-! ### Reading and writing documents -/

namespace Settings

/-- The settings in the entries of a document. -/
def ofEntries (entries : Entries) : Option Settings := do
  let version ← field asVersion "version" entries
  let output ← section? ["color"] "output" entries
  let store ← section? ["path"] "store" entries
  let ordering ← section? ["step", "min_gap"] "ordering" entries
  return {
    version := version.getD settingsVersion
    defaultList := ← field asText "default_list" entries
    color := ← field asTruth "color" output
    storePath := ← field asText "path" store
    step := ← field asInteger "step" ordering
    minGap := ← field asInteger "min_gap" ordering }

/-- The settings in a document. -/
def ofDocument? (text : String) : Option Settings :=
  (Toml.read? text).bind ofEntries

/-- The document of the settings. -/
def document (settings : Settings) : String :=
  String.ofList (
    entryLine "version" (some (Json.integer settings.version.toNat)) ++
    entryLine "default_list" (settings.defaultList.map writeText) ++
    headerLine "output" ++
    entryLine "color" (settings.color.map Json.boolean) ++
    headerLine "store" ++
    entryLine "path" (settings.storePath.map writeText) ++
    headerLine "ordering" ++
    entryLine "step" (settings.step.map fun n => Json.integer n.toInt) ++
    entryLine "min_gap" (settings.minGap.map fun n => Json.integer n.toInt))

end Settings

end Agenda

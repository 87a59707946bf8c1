/-
Agenda/Settings/Assign.lean

Changing one setting by its key and a text.  An assignment that is refused
changes nothing; one that is accepted leaves the other settings alone.
-/
import Agenda.Order.Spacing
import Agenda.Settings.Basic
import Agenda.Text.Blank
import Agenda.Text.Digits
import Agenda.Text.LowerCase

namespace Agenda

open Text

/-- The settings that can be assigned. -/
inductive SettingKey where
  /-- The default list. -/
  | defaultList
  /-- Whether tables are coloured. -/
  | color
  /-- The path of the store. -/
  | storePath
  /-- The step of a renumber pass. -/
  | step
  /-- The smallest gap. -/
  | minGap
deriving DecidableEq, Repr

namespace SettingKey

/-- All keys. -/
def all : List SettingKey := [defaultList, color, storePath, step, minGap]

/-- The name of a setting. -/
def name : SettingKey → String
  | .defaultList => "default_list"
  | .color => "output.color"
  | .storePath => "store.path"
  | .step => "ordering.step"
  | .minGap => "ordering.min_gap"

/-- The setting with this name. -/
def ofName? (name : String) : Option SettingKey :=
  all.find? fun key => key.name = name

end SettingKey

/-- Why an assignment is refused. -/
inductive AssignError where
  /-- There is no such setting. -/
  | unknownKey (name : String)
  /-- The text is not a truth value. -/
  | notATruthValue (text : String)
  /-- The text is not an integer in the bounds. -/
  | notAStep (key : SettingKey) (text : String)
deriving DecidableEq, Repr

/-- The message for people. -/
def AssignError.message : AssignError → String
  | .unknownKey name =>
    "Unknown config key '" ++ name ++ "'. Valid keys: " ++
      ", ".intercalate (SettingKey.all.map SettingKey.name)
  | .notATruthValue text =>
    "Invalid boolean value '" ++ text ++ "'. Use true/false, yes/no, 1/0, or on/off"
  | .notAStep key text =>
    "Invalid " ++ key.name ++ " value '" ++ text ++ "'. Expected an integer from 1 to " ++
      toString Spacing.maxStep

/-! ### Texts of values -/

/-- The truth value that a word stands for, in any case. -/
def truthOf? (text : String) : Option Bool :=
  let word := lower text
  if ["true", "yes", "1", "on"].contains word then some true
  else if ["false", "no", "0", "off"].contains word then some false
  else none

/-- The integer from 1 to the largest step that is written by digits, perhaps after a plus, with
blanks around it. -/
def stepOf? (text : String) : Option Int64 :=
  (((natural? (trimList text.toList)).map Int.ofNat).filter fun n =>
    1 ≤ n ∧ n ≤ Spacing.maxStep).map Int64.ofInt

/-! ### Assignments -/

namespace Settings

/-- Gives the setting with this name the value that the text stands for. -/
def assign (settings : Settings) (name text : String) : Except AssignError Settings :=
  match SettingKey.ofName? name with
  | none => .error (.unknownKey name)
  | some .defaultList => .ok { settings with defaultList := some text }
  | some .color =>
    match truthOf? text with
    | some b => .ok { settings with color := some b }
    | none => .error (.notATruthValue text)
  | some .storePath => .ok { settings with storePath := some text }
  | some .step =>
    match stepOf? text with
    | some n => .ok { settings with step := some n }
    | none => .error (.notAStep .step text)
  | some .minGap =>
    match stepOf? text with
    | some n => .ok { settings with minGap := some n }
    | none => .error (.notAStep .minGap text)

end Settings

end Agenda

/-
Agenda/Settings/Basic.lean

The settings of the program.  Each of them may be left out, and the program
then does as it does without settings.  Numbers have 64 bits, as in the document
that they are read from; there is one version so far.
-/
import Agenda.Order.Spacing

namespace Agenda

/-- The version that settings are brought to when they are read. -/
def settingsVersion : UInt32 := 1

/-- The settings. -/
structure Settings where
  /-- The version of the document that they are written to. -/
  version : UInt32 := settingsVersion
  /-- The list that is worked on unless another one is asked for. -/
  defaultList : Option String := none
  /-- Whether tables are coloured. -/
  color : Option Bool := none
  /-- The path of the store. -/
  storePath : Option String := none
  /-- The distance of consecutive precedences after a renumber pass. -/
  step : Option Int64 := none
  /-- The smallest gap between precedences that leaves room for an item. -/
  minGap : Option Int64 := none
deriving DecidableEq, Repr

namespace Settings

/-- The settings in the present version.  The first version is the present one, so nothing else is
to be changed. -/
def migrated (settings : Settings) : Settings :=
  { settings with version := settingsVersion }

/-- The spacing asked for, brought into its bounds. -/
def spacing (settings : Settings) : Spacing :=
  Spacing.clamped ((settings.step.map Int64.toInt).getD Spacing.default.step)
    ((settings.minGap.map Int64.toInt).getD Spacing.default.minGap)

end Settings

end Agenda

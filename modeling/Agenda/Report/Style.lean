/-
Agenda/Report/Style.lean

Renditions of text on a terminal.  A painted text stands between two control
sequences `ESC [ … m`: the first one turns the rendition on, the second one
turns it off.
-/

namespace Agenda.Report

/-- A rendition of text. -/
inductive Style where
  /-- In green letters. -/
  | green
  /-- In heavy letters. -/
  | bold
  /-- In faint letters. -/
  | dimmed
  /-- With a line through the letters. -/
  | struck
deriving DecidableEq, Repr

/-- Turns the rendition on. -/
def Style.start : Style → String
  | .green => "\x1b[32m"
  | .bold => "\x1b[1m"
  | .dimmed => "\x1b[2m"
  | .struck => "\x1b[9m"

/-- Turns the rendition off: for a colour the default colour returns, for the others all
renditions end. -/
def Style.stop : Style → String
  | .green => "\x1b[39m"
  | .bold => "\x1b[0m"
  | .dimmed => "\x1b[0m"
  | .struck => "\x1b[0m"

/-- The text in this rendition. -/
def Style.paint (style : Style) (s : String) : String :=
  style.start ++ s ++ style.stop

/-- The text in this rendition, if `colors` are on. -/
def Style.paintIf (style : Style) (colors : Bool) (s : String) : String :=
  if colors then style.paint s else s

@[simp] theorem Style.paintIf_false (style : Style) (s : String) : style.paintIf false s = s := rfl

@[simp] theorem Style.paintIf_true (style : Style) (s : String) :
    style.paintIf true s = style.paint s := rfl

end Agenda.Report

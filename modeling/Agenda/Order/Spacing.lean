/-
Agenda/Order/Spacing.lean

The spacing of precedences: how far apart neighbours are put when a view is
renumbered, and the smallest gap that still has room for a midpoint.  The
bounds are part of the type, so a midpoint always exists after a renumber
pass, and a renumbered view stays far from the limits of 64 bits.
-/

namespace Agenda

/-- The spacing of precedences. -/
@[ext] structure Spacing where
  /-- The distance of consecutive precedences after a renumber pass. -/
  step : Int
  /-- The smallest gap that leaves room for a midpoint. -/
  minGap : Int
  /-- A gap below two holds no integer. -/
  two_le_minGap : 2 ≤ minGap := by decide
  /-- A fresh gap has room for a midpoint. -/
  minGap_le_step : minGap ≤ step := by decide
  /-- Steps are small against the range of precedences. -/
  step_le : step ≤ 4294967296 := by decide
deriving DecidableEq, Repr

namespace Spacing

/-- The largest step: two to the power of 32. -/
def maxStep : Int := 4294967296

/-- The spacing used unless another one is asked for. -/
protected def default : Spacing where
  step := 32
  minGap := 2

instance : Inhabited Spacing := ⟨Spacing.default⟩

/-- The spacing nearest to what is asked for: both values are brought into the bounds, and the
step is raised to the gap. -/
def clamped (step minGap : Int) : Spacing where
  step := max (max 2 (min minGap 4294967296)) (min step 4294967296)
  minGap := max 2 (min minGap 4294967296)
  two_le_minGap := by omega
  minGap_le_step := by omega
  step_le := by omega

end Spacing

end Agenda

/-
Agenda/Proofs/Order/Renumber.lean

The renumber pass in closed form.  The pass is a loop that carries a running
value; `slotRank` says outright which value it has at each slot:

    slotRank prev i  =  (i + 1) · step   up to the slot `prev`
                     =  (i + 2) · step   after it

and `renumber_eq_mapIdx` that every slot but the skipped one ends up with that
value, cut off at the upper end of the 64-bit range.  Below that end the
values of different slots are at least one step apart.
-/
import Agenda.Order.Placement
import Mathlib.Data.List.Basic
import Mathlib.Tactic.Ring
import Mathlib.Tactic.Linarith

namespace Agenda

/-! ### Saturation -/

/-- The largest precedence. -/
def maxPrecedence : Int := 9223372036854775807

theorem toInt_saturate (n : Int) :
    (saturate n).toInt = max (-9223372036854775808) (min n maxPrecedence) := by
  unfold saturate Int64.ofIntClamp maxPrecedence
  have hmin : Int64.minValue.toInt = -9223372036854775808 := rfl
  have hmax : Int64.maxValue.toInt = 9223372036854775807 := rfl
  split
  · next hlo =>
    split
    · next hhi => rw [Int64.toInt_ofIntLE]; omega
    · next hhi => rw [hmax]; omega
  · next hlo => rw [hmin]; omega

/-- A value in the 64-bit range is kept. -/
theorem toInt_saturate_of_le {n : Int} (h₀ : 0 ≤ n) (h : n ≤ maxPrecedence) :
    (saturate n).toInt = n := by
  rw [toInt_saturate]
  omega

/-- Adding to a value that was cut off at the upper end is adding to the value itself. -/
theorem saturate_toInt_add {n s : Int} (hn : 0 ≤ n) (hs : 0 ≤ s) :
    saturate ((saturate n).toInt + s) = saturate (n + s) := by
  apply Int64.toInt_inj.mp
  simp only [toInt_saturate, maxPrecedence]
  omega

/-! ### The loop -/

theorem length_renumberFrom (spacing : Spacing) (skip prev : Option Nat) (index : Nat)
    (value : Int64) (ranks : List Int64) :
    (renumberFrom spacing skip prev index value ranks).length = ranks.length := by
  induction ranks generalizing index value with
  | nil => rfl
  | cons rank ranks ih =>
    rw [renumberFrom]
    split
    · rw [List.length_cons, List.length_cons, ih]
    · rw [List.length_cons, List.length_cons, ih]

namespace Spacing

variable (spacing : Spacing)

theorem two_le_step : 2 ≤ spacing.step :=
  Int.le_trans spacing.two_le_minGap spacing.minGap_le_step

theorem step_pos : 0 < spacing.step :=
  Int.lt_of_lt_of_le (by decide) spacing.two_le_step

/-- The value that a renumber pass has for the slot `index` when it leaves an extra step after
the slot `prev`. -/
def slotRank (prev : Option Nat) (index : Nat) : Int :=
  if prev.any (· < index) then (index + 2) * spacing.step else (index + 1) * spacing.step

theorem slotRank_nonneg (prev : Option Nat) (index : Nat) : 0 ≤ spacing.slotRank prev index := by
  have hs := spacing.step_pos
  unfold slotRank
  split <;> positivity

/-- The extra step comes after the slot `prev`. -/
theorem slotRank_self (index : Nat) :
    spacing.slotRank (some index) index = (index + 1) * spacing.step := by
  simp [slotRank]

/-- The running value after one slot. -/
theorem slotRank_succ (prev : Option Nat) (index : Nat) :
    spacing.slotRank prev (index + 1) =
      spacing.slotRank prev index + spacing.step +
        if prev = some index then spacing.step else 0 := by
  unfold slotRank
  cases prev with
  | none => simp; ring
  | some p =>
    simp only [Option.any_some, decide_eq_true_eq, Option.some.injEq]
    rcases Nat.lt_trichotomy p index with h | h | h
    · rw [if_pos (by omega), if_pos h, if_neg (by omega)]
      push_cast; ring
    · rw [if_pos (by omega), if_neg (by omega), if_pos h]
      push_cast; ring
    · rw [if_neg (by omega), if_neg (by omega), if_neg (by omega)]
      push_cast; ring

/-- Values of later slots are larger by a step at least. -/
theorem slotRank_add_step_le (prev : Option Nat) {i j : Nat} (h : i < j) :
    spacing.slotRank prev i + spacing.step ≤ spacing.slotRank prev j := by
  induction j with
  | zero => omega
  | succ j ih =>
    have hs := spacing.step_pos
    have hj := spacing.slotRank_succ prev j
    have hextra : (0 : Int) ≤ if prev = some j then spacing.step else 0 := by split <;> omega
    rcases Nat.lt_succ_iff_lt_or_eq.mp h with hlt | rfl
    · have := ih hlt
      omega
    · omega

end Spacing

/-- **The renumber pass in closed form**: every slot but the skipped one gets its value, cut off
at the end of the range. -/
theorem renumber_eq_mapIdx (spacing : Spacing) {skip prev : Option Nat}
    (h : ∀ p ∈ prev, skip ≠ some p) (ranks : List Int64) :
    renumber spacing skip prev ranks = ranks.mapIdx fun i rank =>
      if skip = some i then rank else saturate (spacing.slotRank prev i) := by
  -- the loop has the value of its slot wherever it is entered
  have loop : ∀ (ranks : List Int64) (index : Nat),
      renumberFrom spacing skip prev index (saturate (spacing.slotRank prev index)) ranks =
        ranks.mapIdx fun i rank =>
          if skip = some (index + i) then rank
          else saturate (spacing.slotRank prev (index + i)) := by
    intro ranks
    induction ranks with
    | nil => intro index; rfl
    | cons rank ranks ih =>
      intro index
      have hn := spacing.slotRank_nonneg prev index
      have hs := spacing.step_pos.le
      have hsucc := spacing.slotRank_succ prev index
      have htail : (fun i rank => if skip = some (index + (i + 1)) then rank
          else saturate (spacing.slotRank prev (index + (i + 1)))) =
          fun i rank => if skip = some (index + 1 + i) then rank
            else saturate (spacing.slotRank prev (index + 1 + i)) := by
        funext i rank
        rw [show index + (i + 1) = index + 1 + i by omega]
      rw [List.mapIdx_cons, htail, ← ih (index + 1), Nat.add_zero]
      simp only [renumberFrom]
      rw [saturate_toInt_add hn hs]
      by_cases hskip : skip = some index
      · have hprev : prev ≠ some index := fun hp => h index hp hskip
        rw [if_neg hprev, Int.add_zero] at hsucc
        rw [if_pos hskip, if_pos hskip, hsucc]
      · rw [if_neg hskip, if_neg hskip, saturate_toInt_add (by omega) hs]
        by_cases hp : prev = some index
        · rw [if_pos hp] at hsucc ⊢
          rw [hsucc]
        · rw [if_neg hp, Int.add_zero] at hsucc
          rw [if_neg hp, hsucc]
  have hstart : spacing.step = spacing.slotRank prev 0 := by
    cases prev <;> simp [Spacing.slotRank]
  rw [renumber, hstart, loop]
  simp only [Nat.zero_add]

end Agenda

/-
Agenda/Proofs/Order/Range.lean

Precedences of a placement stay small.  Where the precedences of a view are at
least 1 and no bound is exceeded by them, by the values of a renumber pass and
by the value assumed after the end, the precedences after the placement are of
the same kind (`roomAt_within`), and none of the sums, products and
differences made on the way leaves the 64-bit range (`exact_roomAt`).

`Exact` lists these values one by one, in the order in which a placement comes
to them.
-/
import Agenda.Proofs.Order.Room

namespace Agenda

/-! ### Values in the range -/

/-- The value lies in the 64-bit range, so nothing is cut off. -/
def Fits (n : Int) : Prop :=
  -9223372036854775808 ≤ n ∧ n ≤ maxPrecedence

instance (n : Int) : Decidable (Fits n) :=
  inferInstanceAs (Decidable (_ ∧ _))

/-- A value fits exactly if saturation keeps it. -/
theorem fits_iff {n : Int} : Fits n ↔ (saturate n).toInt = n := by
  rw [Fits, toInt_saturate, maxPrecedence]
  omega

theorem fits_of_nonneg {n : Int} (h₀ : 0 ≤ n) (h : n ≤ maxPrecedence) : Fits n :=
  ⟨by omega, h⟩

/-- The precedence is positive and at most `bound`. -/
def Within (bound : Int) (rank : Int64) : Prop :=
  1 ≤ rank.toInt ∧ rank.toInt ≤ bound

theorem Within.mono {bound bound' : Int} {rank : Int64} (h : Within bound rank)
    (hle : bound ≤ bound') : Within bound' rank :=
  ⟨h.1, h.2.trans hle⟩

namespace Spacing

variable (spacing : Spacing)

/-! ### What a placement reckons -/

/-- No addition of a renumber pass leaves the range, from the slot `index` on and with the running
value `value`. -/
def ExactFrom (skip prev : Option Nat) (index : Nat) (value : Int64) : List Int64 → Prop
  | [] => True
  | _ :: ranks =>
    let next (value : Int64) : Int64 := saturate (value.toInt + spacing.step)
    if skip ≠ some index ∧ prev = some index then
      Fits (value.toInt + spacing.step) ∧ Fits ((next value).toInt + spacing.step) ∧
        ExactFrom skip prev (index + 1) (next (next value)) ranks
    else
      Fits (value.toInt + spacing.step) ∧ ExactFrom skip prev (index + 1) (next value) ranks

/-- The room at a target is found without leaving the range. -/
structure Exact (ranks : List Int64) (origin : Option Nat) (target : Nat) : Prop where
  /-- The number of steps assumed after the end of the view. -/
  steps : Fits (target + 2)
  /-- The precedence assumed after the end of the view. -/
  beyond : Fits ((saturate (target + 2)).toInt * spacing.step)
  /-- The gap between the neighbours. -/
  gap : Fits
    ((rankAt ranks (neighbours origin target ranks.length).2 (spacing.beyond target)).toInt -
      (rankAt ranks (neighbours origin target ranks.length).1 0).toInt)
  /-- The running values of the renumber pass, if there is one. -/
  pass : (spacing.roomAt ranks origin target).renumbered = true →
    spacing.ExactFrom origin (neighbours origin target ranks.length).1 0 (saturate spacing.step)
      ranks

/-! ### Bounds -/

variable {bound : Int} {origin : Option Nat} {target : Nat}

theorem step_le_slotRank (prev : Option Nat) (index : Nat) :
    spacing.step ≤ spacing.slotRank prev index := by
  have hs := spacing.step_pos
  have hle : ∀ k : Nat, 1 * spacing.step ≤ ((index : Int) + 1 + k) * spacing.step :=
    fun k => Int.mul_le_mul_of_nonneg_right (by omega) hs.le
  unfold slotRank
  split
  · have := hle 1
    rw [Nat.cast_one, add_assoc] at this
    linarith
  · have := hle 0
    rw [Nat.cast_zero, add_zero] at this
    linarith

theorem slotRank_le_mul (prev : Option Nat) (index : Nat) :
    spacing.slotRank prev index ≤ (index + 2) * spacing.step := by
  unfold slotRank
  split
  · exact le_refl _
  · exact Int.mul_le_mul_of_nonneg_right (by omega) spacing.step_pos.le

/-- Factors up to the number of slots and two keep their multiples of the step in the range. -/
theorem mul_step_le {k length : Nat} (hk : k ≤ length)
    (hroom : (length + 2) * spacing.step ≤ bound) : (k + 2) * spacing.step ≤ bound :=
  (Int.mul_le_mul_of_nonneg_right (by omega) spacing.step_pos.le).trans hroom

/-- A renumber pass keeps precedences positive and bounded. -/
theorem renumber_within {ranks : List Int64} (hranks : ∀ rank ∈ ranks, Within bound rank)
    (hslots : (ranks.length + 1) * spacing.step ≤ bound) (hbound : bound ≤ maxPrecedence)
    (origin : Option Nat) (target : Nat) :
    ∀ rank ∈ renumber spacing origin (slotBefore origin target) ranks, Within bound rank := by
  intro rank hrank
  rw [renumber_eq_mapIdx spacing (slotBefore_ne origin target), List.mem_mapIdx] at hrank
  obtain ⟨i, hi, rfl⟩ := hrank
  split
  · exact hranks _ (List.getElem_mem hi)
  · have hstep := spacing.two_le_step
    have hlow := spacing.step_le_slotRank (slotBefore origin target) i
    have hhigh : spacing.slotRank (slotBefore origin target) i ≤ bound :=
      (spacing.slotRank_le_mul _ i).trans
        ((Int.mul_le_mul_of_nonneg_right (by omega) (by omega)).trans hslots)
    rw [Within, toInt_saturate_of_le (by omega) (by omega)]
    omega

theorem lowAt_nonneg {others : List Int64} (hothers : ∀ rank ∈ others, Within bound rank)
    (target : Nat) : 0 ≤ (lowAt others target).toInt := by
  rw [lowAt]
  split
  · exact Int64.toInt_zero.ge
  · rw [List.getD_eq_getElem?_getD]
    cases hget : others[target - 1]? with
    | none => exact Int64.toInt_zero.ge
    | some rank =>
      have hone := (hothers rank (List.mem_of_getElem? hget)).1
      rw [Option.getD_some]
      omega

theorem lowAt_le {others : List Int64} (hothers : ∀ rank ∈ others, Within bound rank)
    (hbound : 0 ≤ bound) (target : Nat) : (lowAt others target).toInt ≤ bound := by
  rw [lowAt]
  split
  · exact Int64.toInt_zero.trans_le hbound
  · rw [List.getD_eq_getElem?_getD]
    cases hget : others[target - 1]? with
    | none => exact Int64.toInt_zero.trans_le hbound
    | some rank => exact (hothers rank (List.mem_of_getElem? hget)).2

theorem highAt_within {others : List Int64} (hothers : ∀ rank ∈ others, Within bound rank)
    (hbeyond : Within bound (spacing.beyond target)) :
    Within bound (spacing.highAt others target) := by
  rw [highAt, List.getD_eq_getElem?_getD]
  cases hget : others[target]? with
  | none => rw [Option.getD_none]; exact hbeyond
  | some rank => exact hothers rank (List.mem_of_getElem? hget)

/-- A midpoint in a gap that starts at 0 or later is positive. -/
theorem midpoint_within {low high : Int64} (hlow : 0 ≤ low.toInt) (hhigh : Within bound high)
    (hgap : low.toInt + 2 ≤ high.toInt) : Within bound (midpoint low high) := by
  have hle := hhigh.2
  rw [Within, toInt_midpoint]
  omega

theorem beyond_within {length : Nat} (ht : target ≤ length)
    (hroom : (length + 2) * spacing.step ≤ maxPrecedence)
    (hbeyond : (target + 2) * spacing.step ≤ bound) : Within bound (spacing.beyond target) := by
  have hstep := spacing.two_le_step
  have hone : 1 * spacing.step ≤ ((target : Int) + 2) * spacing.step :=
    Int.mul_le_mul_of_nonneg_right (by omega) (by omega)
  rw [Within, spacing.toInt_beyond ht hroom]
  omega

/-- **A placement keeps precedences positive and bounded**, those of the view and the one it
finds. -/
theorem roomAt_within {ranks : List Int64} (h : origin ≠ some target)
    (ht : target ≤ (without origin ranks).length)
    (hranks : ∀ rank ∈ ranks, Within bound rank)
    (hslots : (ranks.length + 1) * spacing.step ≤ bound)
    (hbeyond : (target + 2) * spacing.step ≤ bound) (hbound : bound ≤ maxPrecedence)
    (hroom : (ranks.length + 2) * spacing.step ≤ maxPrecedence) :
    (∀ rank ∈ (spacing.roomAt ranks origin target).ranks, Within bound rank) ∧
      Within bound (spacing.roomAt ranks origin target).precedence := by
  have hend := spacing.beyond_within (ht.trans (length_without_le origin ranks)) hroom hbeyond
  -- what holds of the view afterwards holds of the midpoint
  have key : ∀ after : List Int64, (∀ rank ∈ after, Within bound rank) →
      (lowAt (without origin after) target).toInt + 2 ≤
        (spacing.highAt (without origin after) target).toInt →
      Within bound (midpoint (lowAt (without origin after) target)
        (spacing.highAt (without origin after) target)) := by
    intro after hafter hgap
    have hothers : ∀ rank ∈ without origin after, Within bound rank :=
      fun rank hrank => hafter rank ((without_sublist origin after).mem hrank)
    exact midpoint_within (lowAt_nonneg hothers target) (spacing.highAt_within hothers hend) hgap
  rw [spacing.roomAt_eq h]
  by_cases hc : spacing.Cramped (without origin ranks) target
  · have hpass := spacing.renumber_within hranks hslots hbound origin target
    simp only [if_pos hc]
    exact ⟨hpass, key _ hpass (spacing.gap_of_renumber ht hroom)⟩
  · simp only [if_neg hc]
    exact ⟨hranks, key _ hranks (spacing.gap_of_not_cramped hc)⟩

/-! ### Nothing is cut off -/

/-- The running values of a renumber pass stay in the range. -/
theorem exactFrom_of_le {skip prev : Option Nat} (h : ∀ p ∈ prev, skip ≠ some p)
    (ranks : List Int64) (index : Nat)
    (hroom : (index + ranks.length + 2) * spacing.step ≤ maxPrecedence) :
    spacing.ExactFrom skip prev index (saturate (spacing.slotRank prev index)) ranks := by
  induction ranks generalizing index with
  | nil => trivial
  | cons rank ranks ih =>
    have hs := spacing.step_pos
    have hn := spacing.slotRank_nonneg prev index
    have hsucc := spacing.slotRank_succ prev index
    -- the value after this slot bounds those on the way to it
    have hle : spacing.slotRank prev (index + 1) ≤ maxPrecedence := by
      refine (spacing.slotRank_le_mul prev (index + 1)).trans (le_trans ?_ hroom)
      rw [List.length_cons]
      exact Int.mul_le_mul_of_nonneg_right (by push_cast; omega) hs.le
    have hrest := ih (index + 1) (by
      rw [List.length_cons] at hroom
      push_cast at hroom ⊢
      rw [show (index : Int) + 1 + ranks.length + 2 = index + (ranks.length + 1) + 2 by ring]
      exact hroom)
    have hextra : (0 : Int) ≤ if prev = some index then spacing.step else 0 := by
      split <;> omega
    have hvalue := toInt_saturate_of_le hn (by omega)
    simp only [ExactFrom]
    rw [saturate_toInt_add hn hs.le, hvalue]
    split
    · next hprev =>
      rw [if_pos hprev.2] at hsucc
      rw [saturate_toInt_add (by omega) hs.le, toInt_saturate_of_le (by omega) (by omega), ← hsucc]
      exact ⟨fits_of_nonneg (by omega) (by omega), fits_of_nonneg (by omega) hle, hrest⟩
    · next hprev =>
      have hne : prev ≠ some index := fun hp => hprev ⟨h index hp, hp⟩
      rw [if_neg hne, Int.add_zero] at hsucc
      rw [← hsucc]
      exact ⟨fits_of_nonneg (by omega) hle, hrest⟩

/-- A renumber pass between the neighbours of a target stays in the range from its start. -/
theorem exactFrom_neighbours {ranks : List Int64} (h : origin ≠ some target)
    (hroom : (ranks.length + 2) * spacing.step ≤ maxPrecedence) :
    spacing.ExactFrom origin (neighbours origin target ranks.length).1 0 (saturate spacing.step)
      ranks := by
  have hstart : spacing.step = spacing.slotRank (slotBefore origin target) 0 := by
    cases slotBefore origin target <;> simp [slotRank]
  rw [neighbours_eq h, hstart]
  exact spacing.exactFrom_of_le (slotBefore_ne origin target) ranks 0 (by simpa using hroom)

/-- **A placement leaves the range nowhere.** -/
theorem exact_roomAt {ranks : List Int64} (h : origin ≠ some target)
    (ht : target ≤ (without origin ranks).length)
    (hranks : ∀ rank ∈ ranks, Within bound rank) (hbound : bound ≤ maxPrecedence)
    (hbeyond : (target + 2) * spacing.step ≤ bound)
    (hroom : (ranks.length + 2) * spacing.step ≤ maxPrecedence) :
    spacing.Exact ranks origin target := by
  have hstep := spacing.two_le_step
  have hlength := ht.trans (length_without_le origin ranks)
  have hend := spacing.beyond_within hlength hroom hbeyond
  have hsteps : ((target : Int) + 2) * 1 ≤ (target + 2) * spacing.step :=
    Int.mul_le_mul_of_nonneg_left (by omega) (by omega)
  have hothers : ∀ rank ∈ without origin ranks, Within bound rank :=
    fun rank hrank => hranks rank ((without_sublist origin ranks).mem hrank)
  have hlow₀ := lowAt_nonneg hothers target
  have hlow := lowAt_le hothers (by omega) target
  have hhigh := spacing.highAt_within hothers hend
  rw [Within] at hhigh
  refine ⟨fits_of_nonneg (by omega) (by omega), ?_, ?_, fun _ => ?_⟩
  · rw [toInt_saturate_of_le (by omega) (by omega)]
    exact fits_of_nonneg (by omega) (by omega)
  · rw [neighbours_eq h, rankAt_slotBefore, rankAt_slotAfter spacing rfl]
    rw [maxPrecedence] at hbound
    exact ⟨by omega, by rw [maxPrecedence]; omega⟩
  · exact spacing.exactFrom_neighbours h hroom

end Spacing

end Agenda

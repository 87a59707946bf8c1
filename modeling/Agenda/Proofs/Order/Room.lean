/-
Agenda/Proofs/Order/Room.lean

The room for an item in a view.  A moved item leaves its slot, so what counts
are the *other* items: `without origin` drops the slot of the moved item, and
then a move is an insertion like any other.  Seen this way the two kinds of
neighbours become one (`neighbours_eq`): the item comes to lie between the
others at `target - 1` and `target`.

The main statement, `roomAt_fits`, is that the precedence found lies strictly
between the precedences of the others before `target` and those of the others
from `target` on, after the renumber pass if there was one.
-/
import Agenda.Proofs.Order.Renumber
import Mathlib.Data.List.GetD

namespace Agenda

variable {α : Type}

/-! ### The others -/

/-- The list without its element at `origin`. -/
def without (origin : Option Nat) (l : List α) : List α :=
  match origin with
  | some i => l.eraseIdx i
  | none => l

/-- Where the element `k` of the others stands in the whole list. -/
def slotOf (origin : Option Nat) (k : Nat) : Nat :=
  match origin with
  | some i => if k < i then k else k + 1
  | none => k

theorem slotOf_of_lt {i k : Nat} (h : k < i) : slotOf (some i) k = k :=
  if_pos h

theorem slotOf_of_le {i k : Nat} (h : i ≤ k) : slotOf (some i) k = k + 1 :=
  if_neg (Nat.not_lt.mpr h)

theorem getElem?_without (origin : Option Nat) (l : List α) (k : Nat) :
    (without origin l)[k]? = l[slotOf origin k]? := by
  cases origin with
  | none => rfl
  | some i =>
    simp only [without, slotOf, List.getElem?_eraseIdx]
    split <;> rfl

theorem slotOf_lt_slotOf (origin : Option Nat) {j k : Nat} (h : j < k) :
    slotOf origin j < slotOf origin k := by
  cases origin with
  | none => exact h
  | some i => simp only [slotOf]; split <;> split <;> omega

theorem slotOf_ne (origin : Option Nat) (k : Nat) : origin ≠ some (slotOf origin k) := by
  cases origin with
  | none => simp
  | some i => simp only [slotOf, ne_eq, Option.some.injEq]; split <;> omega

theorem slotOf_le_succ (origin : Option Nat) (k : Nat) : slotOf origin k ≤ k + 1 := by
  cases origin with
  | none => simp [slotOf]
  | some i => simp only [slotOf]; split <;> omega

theorem length_without_le (origin : Option Nat) (l : List α) :
    (without origin l).length ≤ l.length := by
  cases origin with
  | none => exact Nat.le_refl _
  | some i => exact List.length_eraseIdx_le l i

theorem length_without_congr {β : Type} (origin : Option Nat) {l : List α} {l' : List β}
    (h : l.length = l'.length) : (without origin l).length = (without origin l').length := by
  cases origin with
  | none => exact h
  | some i => simp only [without, List.length_eraseIdx, h]

theorem map_without {β : Type} (f : α → β) (origin : Option Nat) (l : List α) :
    (without origin l).map f = without origin (l.map f) := by
  apply List.ext_getElem?
  intro k
  simp only [List.getElem?_map, getElem?_without]

theorem without_sublist (origin : Option Nat) (l : List α) : (without origin l).Sublist l := by
  cases origin with
  | none => exact List.Sublist.refl l
  | some i => exact List.eraseIdx_sublist l i

/-- The slot right before the gap at `target`. -/
def slotBefore (origin : Option Nat) (target : Nat) : Option Nat :=
  if target = 0 then none else some (slotOf origin (target - 1))

/-- The slot right after the gap at `target`. -/
def slotAfter (origin : Option Nat) (target length : Nat) : Option Nat :=
  if slotOf origin target < length then some (slotOf origin target) else none

theorem slotBefore_ne (origin : Option Nat) (target : Nat) :
    ∀ p ∈ slotBefore origin target, origin ≠ some p := by
  intro p hp
  unfold slotBefore at hp
  split at hp
  · cases hp
  · rw [← Option.mem_some.mp hp]
    exact slotOf_ne origin _

/-- Among the others the neighbours of a target are the elements right before it and at it. -/
theorem neighbours_eq {origin : Option Nat} {target : Nat} (h : origin ≠ some target)
    (length : Nat) :
    neighbours origin target length =
      (slotBefore origin target, slotAfter origin target length) := by
  unfold slotBefore slotAfter
  cases origin with
  | none => rfl
  | some i =>
    have hne : i ≠ target := fun he => h (congrArg some he)
    by_cases hi : i < target
    · have hprev : slotOf (some i) (target - 1) = target := by
        rw [slotOf_of_le (by omega)]; omega
      have hnext : slotOf (some i) target = target + 1 := slotOf_of_le (by omega)
      rw [hprev, hnext, if_neg (by omega)]
      simp only [neighbours, if_pos hi]
    · have hprev : slotOf (some i) (target - 1) = target - 1 := slotOf_of_lt (by omega)
      have hnext : slotOf (some i) target = target := slotOf_of_lt (by omega)
      rw [hprev, hnext]
      simp only [neighbours, if_neg hi]

/-! ### Midpoints -/

theorem toInt_midpoint (low high : Int64) :
    (midpoint low high).toInt = (low.toInt + high.toInt) / 2 := by
  have h₁ := low.le_toInt
  have h₂ := high.le_toInt
  have h₃ := low.toInt_lt
  have h₄ := high.toInt_lt
  rw [midpoint, toInt_saturate, maxPrecedence]
  omega

theorem lt_midpoint {low high : Int64} (h : low.toInt + 2 ≤ high.toInt) :
    low < midpoint low high := by
  rw [Int64.lt_iff_toInt_lt, toInt_midpoint]
  omega

theorem midpoint_lt {low high : Int64} (h : low.toInt + 2 ≤ high.toInt) :
    midpoint low high < high := by
  rw [Int64.lt_iff_toInt_lt, toInt_midpoint]
  omega

/-! ### The gap among the others -/

/-- The precedence that the gap at `target` starts with. -/
def lowAt (others : List Int64) (target : Nat) : Int64 :=
  if target = 0 then 0 else others.getD (target - 1) 0

namespace Spacing

variable (spacing : Spacing)

/-- The precedence that the gap at `target` ends with. -/
def highAt (others : List Int64) (target : Nat) : Int64 :=
  others.getD target (spacing.beyond target)

/-- The gap at `target` is too small. -/
def Cramped (others : List Int64) (target : Nat) : Prop :=
  (saturate ((spacing.highAt others target).toInt - (lowAt others target).toInt)).toInt
    < spacing.minGap

instance (others : List Int64) (target : Nat) : Decidable (spacing.Cramped others target) :=
  inferInstanceAs (Decidable (_ < _))

variable {origin : Option Nat} {target : Nat}

theorem rankAt_slotBefore (ranks : List Int64) :
    rankAt ranks (slotBefore origin target) 0 = lowAt (without origin ranks) target := by
  unfold slotBefore lowAt
  split
  · rfl
  · rw [rankAt, List.getD_eq_getElem?_getD, List.getD_eq_getElem?_getD, getElem?_without]

theorem rankAt_slotAfter {ranks : List Int64} {length : Nat} (h : ranks.length = length) :
    rankAt ranks (slotAfter origin target length) (spacing.beyond target) =
      spacing.highAt (without origin ranks) target := by
  subst h
  rw [highAt, List.getD_eq_getElem?_getD, getElem?_without, slotAfter]
  split
  · rw [rankAt, List.getD_eq_getElem?_getD]
  · next h => rw [rankAt, List.getElem?_eq_none (Nat.not_lt.mp h), Option.getD_none]

@[simp] theorem length_renumber (origin : Option Nat) (target : Nat) (ranks : List Int64) :
    (renumber spacing origin (slotBefore origin target) ranks).length = ranks.length := by
  rw [renumber_eq_mapIdx spacing (slotBefore_ne origin target), List.length_mapIdx]

/-- The room at a target, said of the others. -/
theorem roomAt_eq (h : origin ≠ some target) (ranks : List Int64) :
    spacing.roomAt ranks origin target =
      let after := if spacing.Cramped (without origin ranks) target
        then renumber spacing origin (slotBefore origin target) ranks else ranks
      { precedence := midpoint (lowAt (without origin after) target)
          (spacing.highAt (without origin after) target)
        renumbered := spacing.Cramped (without origin ranks) target
        ranks := after } := by
  have hlen := length_renumber spacing origin target ranks
  simp only [roomAt, neighbours_eq h, rankAt_slotBefore, rankAt_slotAfter spacing rfl,
    rankAt_slotAfter spacing hlen]
  by_cases hc : spacing.Cramped (without origin ranks) target
  · rw [if_pos hc, decide_eq_true hc]
    exact if_pos hc
  · rw [if_neg hc, decide_eq_false hc]
    exact if_neg hc

/-- What making room does to the slots of the others: nothing, or a renumber pass. -/
theorem getElem?_roomAt_ranks (h : origin ≠ some target) (ranks : List Int64) {i : Nat}
    (hi : origin ≠ some i) :
    (spacing.roomAt ranks origin target).ranks[i]? =
      ranks[i]?.map fun rank =>
        if (spacing.roomAt ranks origin target).renumbered
        then saturate (spacing.slotRank (slotBefore origin target) i) else rank := by
  rw [spacing.roomAt_eq h]
  by_cases hc : spacing.Cramped (without origin ranks) target
  · simp only [hc, decide_true, if_true]
    rw [renumber_eq_mapIdx spacing (slotBefore_ne origin target), List.getElem?_mapIdx]
    simp only [if_neg hi]
  · simp only [hc, decide_false, Bool.false_eq_true, if_false, Option.map_id']

/-! ### Between the others -/

/-- The value of a slot stays in the range if two more steps than the view has slots do. -/
theorem slotRank_le {prev : Option Nat} {index length : Nat} (hi : index < length)
    (hroom : (length + 2) * spacing.step ≤ maxPrecedence) :
    spacing.slotRank prev index ≤ maxPrecedence := by
  have hs := spacing.step_pos
  have hle : spacing.slotRank prev index ≤ (length + 2) * spacing.step := by
    unfold slotRank
    split <;> exact Int.mul_le_mul_of_nonneg_right (by omega) hs.le
  omega

/-- What a renumber pass makes of the others. -/
theorem getElem?_without_renumber (origin : Option Nat) (target : Nat) (ranks : List Int64)
    (k : Nat) :
    (without origin (renumber spacing origin (slotBefore origin target) ranks))[k]? =
      (without origin ranks)[k]?.map fun _ =>
        saturate (spacing.slotRank (slotBefore origin target) (slotOf origin k)) := by
  rw [renumber_eq_mapIdx spacing (slotBefore_ne origin target), getElem?_without,
    getElem?_without, List.getElem?_mapIdx]
  simp only [if_neg (slotOf_ne origin k)]

/-- After a renumber pass the others have the values of their slots. -/
theorem toInt_renumbered {origin : Option Nat} {target k : Nat} {ranks : List Int64}
    (hroom : (ranks.length + 2) * spacing.step ≤ maxPrecedence) {rank : Int64}
    (h : (without origin (renumber spacing origin (slotBefore origin target) ranks))[k]?
      = some rank) :
    rank.toInt = spacing.slotRank (slotBefore origin target) (slotOf origin k) := by
  rw [getElem?_without_renumber] at h
  obtain ⟨old, hold, rfl⟩ := Option.map_eq_some_iff.mp h
  rw [getElem?_without] at hold
  have hslot : slotOf origin k < ranks.length := (List.getElem?_eq_some_iff.mp hold).1
  exact toInt_saturate_of_le (spacing.slotRank_nonneg _ _) (spacing.slotRank_le hslot hroom)

/-- After a renumber pass the others increase strictly. -/
theorem pairwise_without_renumber (origin : Option Nat) (target : Nat) {ranks : List Int64}
    (hroom : (ranks.length + 2) * spacing.step ≤ maxPrecedence) :
    (without origin (renumber spacing origin (slotBefore origin target) ranks)).Pairwise
      (· < ·) := by
  rw [List.pairwise_iff_getElem]
  intro j k hj hk hjk
  have hrank : ∀ i (hi : i < (without origin
        (renumber spacing origin (slotBefore origin target) ranks)).length),
      ((without origin (renumber spacing origin (slotBefore origin target) ranks))[i]).toInt =
        spacing.slotRank (slotBefore origin target) (slotOf origin i) :=
    fun i hi => spacing.toInt_renumbered hroom (List.getElem?_eq_getElem hi)
  have hlt := spacing.slotRank_add_step_le (slotBefore origin target) (slotOf_lt_slotOf origin hjk)
  have hs := spacing.step_pos
  rw [Int64.lt_iff_toInt_lt, hrank j hj, hrank k hk]
  omega

theorem toInt_beyond {target length : Nat} (ht : target ≤ length)
    (hroom : (length + 2) * spacing.step ≤ maxPrecedence) :
    (spacing.beyond target).toInt = (target + 2) * spacing.step := by
  have hs := spacing.step_pos
  have hle : ((target : Int) + 2) * spacing.step ≤ (length + 2) * spacing.step :=
    Int.mul_le_mul_of_nonneg_right (by omega) hs.le
  have hfactor : ((target : Int) + 2) * 1 ≤ (target + 2) * spacing.step :=
    Int.mul_le_mul_of_nonneg_left hs (by omega)
  have hinner : (saturate ((target : Int) + 2)).toInt = target + 2 :=
    toInt_saturate_of_le (by omega) (by omega)
  rw [beyond, hinner, toInt_saturate_of_le (by omega) (by omega)]

/-- A gap that is not cramped has room for a midpoint. -/
theorem gap_of_not_cramped {others : List Int64} {target : Nat}
    (h : ¬ spacing.Cramped others target) :
    (lowAt others target).toInt + 2 ≤ (spacing.highAt others target).toInt := by
  have h₂ := spacing.two_le_minGap
  rw [Cramped, toInt_saturate, maxPrecedence] at h
  omega

/-- After a renumber pass the gap is a step wide at least. -/
theorem step_le_gap_of_renumber {origin : Option Nat} {target : Nat} {ranks : List Int64}
    (ht : target ≤ (without origin ranks).length)
    (hroom : (ranks.length + 2) * spacing.step ≤ maxPrecedence) :
    (lowAt (without origin (renumber spacing origin (slotBefore origin target) ranks)) target).toInt
        + spacing.step ≤
      (spacing.highAt
        (without origin (renumber spacing origin (slotBefore origin target) ranks))
        target).toInt := by
  have hstep := spacing.two_le_step
  have hle := length_without_le origin ranks
  have hlen := length_without_congr origin (spacing.length_renumber origin target ranks)
  have hrank := fun k => @toInt_renumbered spacing origin target k ranks hroom
  have hbeyond := spacing.toInt_beyond (ht.trans hle) hroom
  generalize without origin (renumber spacing origin (slotBefore origin target) ranks) = after
    at hrank hlen ⊢
  cases target with
  | zero =>
    -- in front of the view the gap starts at 0, and the first slot is a step away
    rw [lowAt, if_pos rfl, highAt, List.getD_eq_getElem?_getD]
    cases hget : after[0]? with
    | none =>
      rw [Option.getD_none, hbeyond]
      simp; linarith
    | some rank =>
      have hn : (slotOf origin 0 + 1 : Int) * spacing.step ≥ 1 * spacing.step :=
        Int.mul_le_mul_of_nonneg_right (by omega) (by omega)
      rw [Option.getD_some, hrank 0 hget]
      simp [slotBefore, slotRank]; linarith
  | succ t =>
    obtain ⟨low, hlow⟩ : ∃ low, after[t]? = some low :=
      ⟨_, List.getElem?_eq_getElem (by omega)⟩
    have hbefore : slotBefore origin (t + 1) = some (slotOf origin t) := rfl
    rw [lowAt, if_neg (Nat.succ_ne_zero t), Nat.add_sub_cancel, highAt,
      List.getD_eq_getElem?_getD, List.getD_eq_getElem?_getD, hlow, Option.getD_some,
      hrank t hlow, hbefore]
    cases hget : after[t + 1]? with
    | none =>
      -- the fallback lies beyond every slot
      have hslot := slotOf_le_succ origin t
      have hn : ((slotOf origin t : Int) + 2) * spacing.step ≤ (↑(t + 1) + 2) * spacing.step :=
        Int.mul_le_mul_of_nonneg_right (by omega) (by omega)
      rw [Option.getD_none, hbeyond, slotRank_self]
      linarith
    | some high =>
      -- two slots are a step apart
      have hadd := spacing.slotRank_add_step_le (slotBefore origin (t + 1))
        (slotOf_lt_slotOf origin (Nat.lt_add_one t))
      rw [Option.getD_some, hrank (t + 1) hget]
      rw [hbefore] at hadd ⊢
      exact hadd

/-- After a renumber pass there is room for a midpoint. -/
theorem gap_of_renumber {origin : Option Nat} {target : Nat} {ranks : List Int64}
    (ht : target ≤ (without origin ranks).length)
    (hroom : (ranks.length + 2) * spacing.step ≤ maxPrecedence) :
    (lowAt (without origin (renumber spacing origin (slotBefore origin target) ranks)) target).toInt
        + 2 ≤
      (spacing.highAt
        (without origin (renumber spacing origin (slotBefore origin target) ranks))
        target).toInt := by
  have hstep := spacing.two_le_step
  have hgap := spacing.step_le_gap_of_renumber ht hroom
  omega

/-! ### The room found -/

/-- In an ordered list the elements before an index are at most the element before it. -/
theorem le_lowAt {others : List Int64} (hs : others.Pairwise (· ≤ ·)) {target : Nat}
    (ht : target ≤ others.length) {rank : Int64} (h : rank ∈ others.take target) :
    rank ≤ lowAt others target := by
  obtain ⟨k, hk, rfl⟩ := List.mem_take_iff_getElem.mp h
  rw [lowAt, if_neg (by omega), List.getD_eq_getElem _ _ (by omega)]
  rcases Nat.lt_or_ge k (target - 1) with hlt | hge
  · exact List.pairwise_iff_getElem.mp hs _ _ _ _ hlt
  · have : k = target - 1 := by omega
    subst this
    exact Int64.le_refl _

/-- In an ordered list the elements from an index on are at least the element there. -/
theorem highAt_le {others : List Int64} (hs : others.Pairwise (· ≤ ·)) {target : Nat}
    {rank : Int64} (h : rank ∈ others.drop target) : spacing.highAt others target ≤ rank := by
  obtain ⟨k, hk, rfl⟩ := List.mem_drop_iff_getElem.mp h
  rw [highAt, List.getD_eq_getElem _ _ (by omega)]
  rcases Nat.eq_zero_or_pos k with rfl | hpos
  · exact Int64.le_refl _
  · exact List.pairwise_iff_getElem.mp hs _ _ _ _ (by omega)

/-- **The precedence found lies between the others**: above those before the target and below
those from the target on. -/
theorem roomAt_fits {origin : Option Nat} {target : Nat} {ranks : List Int64}
    (h : origin ≠ some target) (ht : target ≤ (without origin ranks).length)
    (hs : (without origin ranks).Pairwise (· ≤ ·))
    (hroom : (ranks.length + 2) * spacing.step ≤ maxPrecedence) :
    let room := spacing.roomAt ranks origin target
    (∀ rank ∈ (without origin room.ranks).take target, rank < room.precedence) ∧
      ∀ rank ∈ (without origin room.ranks).drop target, room.precedence < rank := by
  have key : ∀ others : List Int64, others.Pairwise (· ≤ ·) → target ≤ others.length →
      (lowAt others target).toInt + 2 ≤ (spacing.highAt others target).toInt →
      (∀ rank ∈ others.take target,
          rank < midpoint (lowAt others target) (spacing.highAt others target)) ∧
        ∀ rank ∈ others.drop target,
          midpoint (lowAt others target) (spacing.highAt others target) < rank :=
    fun others hs ht hgap =>
      ⟨fun _ hr => Int64.lt_of_le_of_lt (le_lowAt hs ht hr) (lt_midpoint hgap),
        fun _ hr => Int64.lt_of_lt_of_le (midpoint_lt hgap) (spacing.highAt_le hs hr)⟩
  rw [spacing.roomAt_eq h]
  by_cases hc : spacing.Cramped (without origin ranks) target
  · simp only [if_pos hc]
    refine key _ ?_ ?_ (spacing.gap_of_renumber ht hroom)
    · exact (spacing.pairwise_without_renumber origin target hroom).imp Int64.le_of_lt
    · rw [length_without_congr origin (spacing.length_renumber origin target ranks)]
      exact ht
  · simp only [if_neg hc]
    exact key _ hs ht (spacing.gap_of_not_cramped hc)

end Spacing

end Agenda

/-
Agenda/Proofs/Order/Pass.lean

A renumber pass over a view of items.  The pass goes through the view slot by slot
with a running value; what it leaves is said here without one, for every slot it
may skip and every slot it may leave an extra step after:

    precedence at i  =  (i + 1) · step   up to the slot `prev`, or without one
                     =  (i + 2) · step   after it

(`renumber_view`).  The skipped slot and everything but the precedences stay as
they were.
-/
import Agenda.Proofs.Order.Placement

namespace Agenda

namespace Spacing

variable (spacing : Spacing) {skip prev : Option Nat}

/-- A slot up to `prev` has one step before it for each slot up to it, and a later slot one more. -/
theorem slotRank_eq (prev : Option Nat) (index : Nat) :
    spacing.slotRank prev index =
      if prev.all (index ≤ ·) then (index + 1) * spacing.step else (index + 2) * spacing.step := by
  cases prev with
  | none => simp [slotRank]
  | some p =>
    simp only [slotRank, Option.any_some, Option.all_some, decide_eq_true_eq]
    by_cases h : index ≤ p
    · rw [if_pos h, if_neg (by omega)]
    · rw [if_neg h, if_pos (by omega)]

/-- The precedence that a renumber pass leaves at a slot. -/
theorem getElem?_renumber (hprev : ∀ p ∈ prev, skip ≠ some p) {ranks : List Int64} {i : Nat}
    {rank : Int64} (h : ranks[i]? = some rank) :
    (renumber spacing skip prev ranks)[i]? =
      some (if skip = some i then rank else saturate (spacing.slotRank prev i)) := by
  rw [renumber_eq_mapIdx spacing hprev, List.getElem?_mapIdx, h, Option.map_some]

/-! ### The whole view -/

/-- **A renumber pass in closed form.**  The view keeps its slots, and each slot its item.  The
precedence of the skipped slot is kept; every other one is a multiple of the step that depends on
the slot alone. -/
theorem renumber_view (view : List Item) (hprev : ∀ p ∈ prev, skip ≠ some p)
    (hroom : (view.length + 2) * spacing.step ≤ maxPrecedence) :
    let after := withRanks view (renumber spacing skip prev (view.map Item.precedence))
    after.length = view.length ∧ ∀ i item, view[i]? = some item →
      (skip = some i → after[i]? = some item) ∧
      (skip ≠ some i → ∃ rank : Int64, after[i]? = some { item with precedence := rank } ∧
        rank.toInt =
          if prev.all (i ≤ ·) then (i + 1) * spacing.step else (i + 2) * spacing.step) := by
  intro after
  have hlength : (renumber spacing skip prev (view.map Item.precedence)).length = view.length := by
    rw [renumber_eq_mapIdx spacing hprev, List.length_mapIdx, List.length_map]
  refine ⟨(reranked_withRanks hlength).length_eq.symm, fun i item hitem => ?_⟩
  have hrank := spacing.getElem?_renumber hprev
    (by rw [List.getElem?_map, hitem, Option.map_some] :
      (view.map Item.precedence)[i]? = some item.precedence)
  have hafter := getElem?_withRanks hitem hrank
  refine ⟨fun hskip => ?_, fun hskip => ⟨_, hafter, ?_⟩⟩
  · rw [if_pos hskip] at hafter
    exact hafter
  · have hslot : i < view.length := (List.getElem?_eq_some_iff.mp hitem).1
    rw [if_neg hskip, ← slotRank_eq]
    exact toInt_saturate_of_le (spacing.slotRank_nonneg prev i) (spacing.slotRank_le hslot hroom)

/-- The first item is to move down behind the third one: its slot is skipped, and the gap starts
after the slot 2.  Ties and the order of the old precedences make no difference. -/
theorem renumber_view_errands :
    let spacing := Spacing.clamped 10 2
    let item (id : String) (precedence : Int64) : Item := { id, listId := inboxId, precedence }
    let view := [item "moved" 5, item "bread" 7, item "milk" 7, item "post" (-8)]
    let after := withRanks view
      (renumber spacing (some 0) (some 2) (view.map Item.precedence))
    (∀ p ∈ some 2, (some 0 : Option Nat) ≠ some p) ∧
      (view.length + 2) * spacing.step ≤ maxPrecedence ∧
      after[0]? = some (item "moved" 5) ∧
      (∃ rank, after[2]? = some (item "milk" rank) ∧ rank.toInt = 30) ∧
      ∃ rank, after[3]? = some (item "post" rank) ∧ rank.toInt = 50 := by
  intro spacing item view after
  have hprev : ∀ p ∈ some 2, (some 0 : Option Nat) ≠ some p := by decide
  have hroom : (view.length + 2) * spacing.step ≤ maxPrecedence := by decide
  obtain ⟨-, hslots⟩ := spacing.renumber_view view hprev hroom
  exact ⟨hprev, hroom, (hslots 0 _ rfl).1 rfl, (hslots 2 _ rfl).2 (by decide),
    (hslots 3 _ rfl).2 (by decide)⟩

end Spacing

end Agenda

/-
Agenda/Proofs/Order/Reckoning.lean

Placing an item, reckoned in whole numbers.  The steps of a placement are
stated here once more, for precedences without bounds and without saturation:
the neighbours' numbers (`Reckoning.low`, `Reckoning.high`), the walk that
renumbers a view (`Reckoning.walk`), and the mean, rounded down
(`Spacing.reckon`).  Nothing is assumed of the view: it need not be sorted, and
its precedences may lie anywhere in the 64-bit range.

The main statement, `placement_reckoned`, is that 64 bits suffice:

    numbers of (reorder view …)  =  reckonMove (numbers of view) …

as long as two more steps than the view has slots do not leave the range.  The
difference of two neighbours may well leave it; it is only compared with the
smallest gap, and saturation does not change the outcome of that.  All the
other values stay in the range (`Spacing.Safe`), and no slot is looked up that
the view does not have.
-/
import Agenda.Proofs.Order.Landing
import Agenda.Proofs.Order.Range

namespace Agenda

/-- The precedence of an item, as a number. -/
def Item.rank (item : Item) : Int :=
  item.precedence.toInt

/-! ### The steps, in whole numbers -/

/-- What a placement comes to. -/
structure Reckoning where
  /-- The number found for the item. -/
  rank : Int
  /-- The view had to be renumbered. -/
  renumbered : Bool
  /-- The numbers of the view afterwards. -/
  ranks : List Int
deriving DecidableEq, Repr

namespace Reckoning

/-- The slots of the neighbours.  An item that is moved down comes to lie behind the item at the
target, any other one in front of it.  There may be no slot before, and the view may end before the
slot after. -/
def slots (origin : Option Nat) (target : Nat) : Option Nat × Nat :=
  if origin.any (· < target) then (some target, target + 1)
  else (if target = 0 then none else some (target - 1), target)

/-- The number before the target, 0 without an item there. -/
def low (ranks : List Int) (before : Option Nat) : Int :=
  (before.bind fun slot => ranks[slot]?).getD 0

/-- The number after the target, two steps beyond it without an item there. -/
def high (spacing : Spacing) (target : Nat) (ranks : List Int) (after : Nat) : Int :=
  ranks[after]?.getD ((target + 2) * spacing.step)

/-- The walk through a view: each slot gets the running value, which goes up by a step.  The slot
`origin` is passed over but counts, and an extra step follows the slot `before`. -/
def walk (spacing : Spacing) (origin before : Option Nat) (slot : Nat) (value : Int) :
    List Int → List Int
  | [] => []
  | rank :: ranks =>
    if origin = some slot then
      rank :: walk spacing origin before (slot + 1) (value + spacing.step) ranks
    else if before = some slot then
      value :: walk spacing origin before (slot + 1) (value + spacing.step + spacing.step) ranks
    else
      value :: walk spacing origin before (slot + 1) (value + spacing.step) ranks

end Reckoning

namespace Spacing

/-- The number for an item at `target`: the mean of its neighbours, after a walk through the view if
they are less than the smallest gap apart. -/
def reckon (spacing : Spacing) (ranks : List Int) (origin : Option Nat) (target : Nat) :
    Reckoning :=
  let (before, after) := Reckoning.slots origin target
  let mean (ranks : List Int) : Int :=
    (Reckoning.low ranks before + Reckoning.high spacing target ranks after) / 2
  if Reckoning.high spacing target ranks after - Reckoning.low ranks before < spacing.minGap then
    let walked := Reckoning.walk spacing origin before 0 spacing.step ranks
    { rank := mean walked, renumbered := true, ranks := walked }
  else { rank := mean ranks, renumbered := false, ranks }

end Spacing

/-- The result of a placement, in whole numbers. -/
inductive ReckonedPlacement where
  /-- Nothing was written. -/
  | unchanged
  /-- The item got this number. -/
  | placed (rank : Int) (renumbered : Bool)
deriving DecidableEq, Repr

/-- A result with its precedence read as a number. -/
def Placement.reckoned : Placement → ReckonedPlacement
  | .unchanged => .unchanged
  | .placed precedence renumbered => .placed precedence.toInt renumbered

namespace Spacing

/-- Moves the first id to `target`, in whole numbers. -/
def reckonMove (spacing : Spacing) (ids : List String) (ranks : List Int) (id : String)
    (target : Nat) : Option (ReckonedPlacement × List Int) :=
  if id ∈ ids then
    let origin := ids.idxOf id
    let target := min target (ids.length - 1)
    if origin = target then some (.unchanged, ranks)
    else
      let result := spacing.reckon ranks (some origin) target
      some (.placed result.rank result.renumbered, result.ranks.set origin result.rank)
  else none

/-- Puts a new item to `target`, in whole numbers: the result, the number of the item and those of
the view. -/
def reckonInsert (spacing : Spacing) (ranks : List Int) (target : Nat) :
    ReckonedPlacement × Int × List Int :=
  let result := spacing.reckon ranks none (min target ranks.length)
  (.placed result.rank result.renumbered, result.rank, result.ranks)

/-- A placement looks up slots of the view only, and what it reckons stays in the range.  The
difference of the neighbours is left out. -/
structure Safe (spacing : Spacing) (ranks : List Int64) (origin : Option Nat) (target : Nat) :
    Prop where
  /-- The item is in the view. -/
  origin_lt : ∀ slot ∈ origin, slot < ranks.length
  /-- The neighbour before is in the view. -/
  before_lt : ∀ slot ∈ (neighbours origin target ranks.length).1, slot < ranks.length
  /-- The neighbour after is in the view. -/
  after_lt : ∀ slot ∈ (neighbours origin target ranks.length).2, slot < ranks.length
  /-- The number of steps assumed after the end of the view. -/
  steps : Fits (target + 2)
  /-- The precedence assumed after the end of the view. -/
  beyond : Fits ((target + 2) * spacing.step)
  /-- The running values of a renumber pass. -/
  pass : spacing.ExactFrom origin (neighbours origin target ranks.length).1 0
    (saturate spacing.step) ranks
  /-- The mean of the neighbours. -/
  mean :
    let after := (spacing.roomAt ranks origin target).ranks
    Fits (((rankAt after (neighbours origin target ranks.length).1 0).toInt +
      (rankAt after (neighbours origin target ranks.length).2 (spacing.beyond target)).toInt) / 2)

/-! ### Step by step -/

variable (spacing : Spacing) {origin : Option Nat} {target : Nat}

/-- Neighbours are looked for in the same slots, as far as the view has them. -/
theorem neighbours_eq_slots (origin : Option Nat) (target length : Nat) :
    neighbours origin target length =
      ((Reckoning.slots origin target).1,
        if (Reckoning.slots origin target).2 < length
        then some (Reckoning.slots origin target).2 else none) := by
  cases origin with
  | none => rfl
  | some i =>
    simp only [neighbours, Reckoning.slots, Option.any_some, decide_eq_true_eq]
    split <;> rfl

theorem toInt_rankAt_before (ranks : List Int64) (before : Option Nat) :
    (rankAt ranks before 0).toInt = Reckoning.low (ranks.map Int64.toInt) before := by
  cases before with
  | none => rfl
  | some slot =>
    rw [rankAt, Reckoning.low, Option.bind_some, List.getElem?_map, List.getD_eq_getElem?_getD]
    cases ranks[slot]? <;> rfl

theorem toInt_rankAt_after (hbeyond : (spacing.beyond target).toInt = (target + 2) * spacing.step)
    {ranks : List Int64} {length : Nat} (hlength : ranks.length = length) (after : Nat) :
    (rankAt ranks (if after < length then some after else none) (spacing.beyond target)).toInt =
      Reckoning.high spacing target (ranks.map Int64.toInt) after := by
  subst hlength
  rw [Reckoning.high, List.getElem?_map]
  split
  · next hlt => rw [rankAt, List.getD_eq_getElem _ _ hlt, List.getElem?_eq_getElem hlt]; rfl
  · next hge => rw [rankAt, List.getElem?_eq_none (Nat.not_lt.mp hge), hbeyond]; rfl

/-- A difference that is cut off is on the same side of the smallest gap. -/
theorem saturate_lt_minGap_iff (n : Int) :
    (saturate n).toInt < spacing.minGap ↔ n < spacing.minGap := by
  have h₁ := spacing.two_le_minGap
  have h₂ := spacing.minGap_le_step
  have h₃ := spacing.step_le
  rw [toInt_saturate, maxPrecedence]
  omega

/-- Where no addition leaves the range, a renumber pass is the walk. -/
theorem map_toInt_renumberFrom {before : Option Nat} {slot : Nat} {value : Int64}
    {ranks : List Int64} (h : spacing.ExactFrom origin before slot value ranks) :
    (renumberFrom spacing origin before slot value ranks).map Int64.toInt =
      Reckoning.walk spacing origin before slot value.toInt (ranks.map Int64.toInt) := by
  induction ranks generalizing slot value with
  | nil => rfl
  | cons rank ranks ih =>
    simp only [ExactFrom] at h
    simp only [renumberFrom, List.map_cons, Reckoning.walk]
    by_cases hskip : origin = some slot
    · rw [if_neg (fun hboth => hboth.1 hskip)] at h
      rw [if_pos hskip, if_pos hskip, List.map_cons, ih h.2, fits_iff.mp h.1]
    · rw [if_neg hskip, if_neg hskip, List.map_cons]
      by_cases hbefore : before = some slot
      · rw [if_pos ⟨hskip, hbefore⟩] at h
        rw [if_pos hbefore, if_pos hbefore, ih h.2.2, fits_iff.mp h.2.1, fits_iff.mp h.1]
      · rw [if_neg (fun hboth => hbefore hboth.2)] at h
        rw [if_neg hbefore, if_neg hbefore, ih h.2, fits_iff.mp h.1]

/-! ### Whole placements -/

section Room

variable {ranks : List Int64}

/-- **Room is found where the steps in whole numbers find it.** -/
theorem reckon_eq (h : origin ≠ some target) (ht : target ≤ (without origin ranks).length)
    (hroom : (ranks.length + 2) * spacing.step ≤ maxPrecedence) :
    let room := spacing.roomAt ranks origin target
    spacing.reckon (ranks.map Int64.toInt) origin target =
      { rank := room.precedence.toInt, renumbered := room.renumbered
        ranks := room.ranks.map Int64.toInt } := by
  have hbeyond := spacing.toInt_beyond (ht.trans (length_without_le origin ranks)) hroom
  have hstart : (saturate spacing.step).toInt = spacing.step :=
    toInt_saturate_of_le spacing.step_pos.le (spacing.step_le.trans (by decide))
  have hpass := spacing.exactFrom_neighbours h hroom
  have hlength : (renumber spacing origin (neighbours origin target ranks.length).1 ranks).length =
      ranks.length := by
    rw [neighbours_eq h]
    exact spacing.length_renumber origin target ranks
  rw [neighbours_eq_slots] at hpass hlength
  dsimp only at hpass hlength
  have hwalk := spacing.map_toInt_renumberFrom hpass
  rw [hstart] at hwalk
  have hlow := fun ranks => toInt_rankAt_before ranks (Reckoning.slots origin target).1
  have hhigh := fun {ranks' : List Int64} (hsame : ranks'.length = ranks.length) =>
    spacing.toInt_rankAt_after hbeyond hsame (Reckoning.slots origin target).2
  simp only [roomAt, neighbours_eq_slots, reckon, saturate_lt_minGap_iff, hlow, hhigh rfl]
  split
  · rw [toInt_midpoint, hlow, hhigh hlength, renumber, hwalk]
  · rw [toInt_midpoint, hlow, hhigh rfl]

/-- **A placement is safe**: there is no slot that the view does not have, and no value but the
difference of the neighbours that could leave the range. -/
theorem safe_roomAt (horigin : ∀ slot ∈ origin, slot < ranks.length) (h : origin ≠ some target)
    (ht : target ≤ (without origin ranks).length)
    (hroom : (ranks.length + 2) * spacing.step ≤ maxPrecedence) :
    spacing.Safe ranks origin target := by
  have hlength := ht.trans (length_without_le origin ranks)
  have hstep := spacing.step_pos
  have hend := spacing.mul_step_le hlength hroom
  have hsteps : ((target : Int) + 2) * 1 ≤ (target + 2) * spacing.step :=
    Int.mul_le_mul_of_nonneg_left hstep (by omega)
  refine ⟨horigin, ?_, ?_, fits_of_nonneg (by omega) (by omega), fits_of_nonneg (by omega) hend,
    spacing.exactFrom_neighbours h hroom, ?_⟩
  · rw [neighbours_eq h]
    intro slot hslot
    unfold slotBefore at hslot
    split at hslot
    · cases hslot
    · obtain rfl := Option.some.inj hslot
      -- one of the others stands there
      have hlt : target - 1 < (without origin ranks).length := by omega
      have hget := List.getElem?_eq_getElem hlt
      rw [getElem?_without] at hget
      exact (List.getElem?_eq_some_iff.mp hget).1
  · rw [neighbours_eq_slots]
    intro slot hslot
    dsimp only at hslot
    split at hslot
    · next hlt =>
      obtain rfl := Option.some.inj hslot
      exact hlt
    · cases hslot
  · rw [fits_iff, ← midpoint, toInt_midpoint]

end Room

/-! ### Moves and insertions -/

theorem map_rank_eq (view : List Item) :
    view.map Item.rank = (view.map Item.precedence).map Int64.toInt := by
  rw [List.map_map]
  rfl

theorem map_rank_withRanks {view : List Item} {ranks : List Int64}
    (h : ranks.length = view.length) :
    (withRanks view ranks).map Item.rank = ranks.map Int64.toInt := by
  rw [map_rank_eq, map_precedence_withRanks h]

section View

variable {view : List Item}

/-- An item that is moved leaves its slot, so there are enough others for its target. -/
theorem min_le_length_without {slot : Nat} (hslot : slot < view.length) (target : Nat) :
    min target (view.length - 1) ≤ (without (some slot) (view.map Item.precedence)).length := by
  rw [without, List.length_eraseIdx_of_lt (by rwa [List.length_map]), List.length_map]
  exact Nat.min_le_right _ _

theorem map_reorder_eq_reckonMove (id : String) (target : Nat)
    (hroom : (view.length + 2) * spacing.step ≤ maxPrecedence) :
    (spacing.reorder view id target).map (fun result =>
        (result.1.reckoned, result.2.map Item.rank)) =
      spacing.reckonMove (view.map Item.id) (view.map Item.rank) id target := by
  cases hresult : spacing.reorder view id target with
  | none =>
    have hmem := (spacing.reorder_eq_none_iff view id target).mp hresult
    rw [Option.map_none, reckonMove, if_neg hmem]
  | some result =>
    obtain ⟨placement, view'⟩ := result
    obtain ⟨slot, item, hfind, hget, rfl, hcases⟩ := spacing.reorder_cases hresult
    have hmem : item.id ∈ view.map Item.id := List.mem_map_of_mem (List.mem_of_getElem? hget)
    rw [Option.map_some, reckonMove, if_pos hmem]
    dsimp only
    rw [idxOf_id_eq hfind, List.length_map]
    rcases hcases with ⟨hstays, rfl, rfl⟩ | ⟨hne, rfl, rfl⟩
    · rw [if_pos hstays]
      rfl
    · have hslot := (List.getElem?_eq_some_iff.mp hget).1
      have hreckon := spacing.reckon_eq hne (min_le_length_without hslot target)
        (by rw [List.length_map]; exact hroom)
      have hlength := spacing.length_roomAt_ranks hne (view.map Item.precedence)
      rw [List.length_map] at hlength
      rw [if_neg (fun hsame => hne (congrArg some hsame)), map_rank_eq view, hreckon, List.map_set,
        map_rank_withRanks hlength]
      rfl

theorem insertAt_eq_reckonInsert (item : Item) (target : Nat)
    (hroom : (view.length + 2) * spacing.step ≤ maxPrecedence) :
    ((spacing.insertAt view item target).1.reckoned, (spacing.insertAt view item target).2.1.rank,
        (spacing.insertAt view item target).2.2.map Item.rank) =
      spacing.reckonInsert (view.map Item.rank) target := by
  have hne : (none : Option Nat) ≠ some (min target view.length) := nofun
  have ht : min target view.length ≤ (without none (view.map Item.precedence)).length := by
    rw [without, List.length_map]
    exact Nat.min_le_right _ _
  have hreckon := spacing.reckon_eq hne ht (by rw [List.length_map]; exact hroom)
  have hlength := spacing.length_roomAt_ranks hne (view.map Item.precedence)
  rw [List.length_map] at hlength
  rw [reckonInsert, List.length_map, map_rank_eq view, hreckon, insertAt,
    map_rank_withRanks hlength]
  rfl

/-- **Placements are exact.**  Whatever the precedences of a view are, and in whatever order, moving
an item and putting a new one have the result, and leave the precedences, that the steps in whole
numbers come to; nothing but precedences is written, and both are safe. -/
theorem placement_reckoned (view : List Item) (target : Nat)
    (hroom : (view.length + 2) * spacing.step ≤ maxPrecedence) :
    (∀ id, (spacing.reorder view id target).map (fun result =>
          (result.1.reckoned, result.2.map Item.rank)) =
        spacing.reckonMove (view.map Item.id) (view.map Item.rank) id target ∧
      ∀ placement view', spacing.reorder view id target = some (placement, view') →
        List.Forall₂ Item.Reranked view view' ∧
        (placement ≠ .unchanged → spacing.Safe (view.map Item.precedence)
          (some ((view.map Item.id).idxOf id)) (min target (view.length - 1)))) ∧
    ∀ item, ∃ placement placed view',
      spacing.insertAt view item target = (placement, placed, view') ∧
      (placement.reckoned, placed.rank, view'.map Item.rank) =
        spacing.reckonInsert (view.map Item.rank) target ∧
      item.Reranked placed ∧ List.Forall₂ Item.Reranked view view' ∧
      spacing.Safe (view.map Item.precedence) none (min target view.length) := by
  have hranks : ((view.map Item.precedence).length + 2) * spacing.step ≤ maxPrecedence := by
    rw [List.length_map]
    exact hroom
  refine ⟨fun id => ⟨spacing.map_reorder_eq_reckonMove id target hroom, ?_⟩, fun item => ?_⟩
  · intro placement view' hmoved
    refine ⟨spacing.reranked_of_reorder hmoved, fun hplaced => ?_⟩
    obtain ⟨slot, item, hfind, hget, -, ⟨-, hstays, -⟩ | ⟨hne, -⟩⟩ := spacing.reorder_cases hmoved
    · exact absurd hstays hplaced
    · have hslot := (List.getElem?_eq_some_iff.mp hget).1
      rw [idxOf_id_eq hfind]
      refine spacing.safe_roomAt ?_ hne (min_le_length_without hslot target) hranks
      rintro _ ⟨⟩
      rwa [List.length_map]
  · obtain ⟨hplaced, hview⟩ := spacing.reranked_of_insertAt view item target
    refine ⟨_, _, _, rfl, spacing.insertAt_eq_reckonInsert item target hroom, hplaced, hview, ?_⟩
    refine spacing.safe_roomAt nofun nofun ?_ hranks
    rw [without, List.length_map]
    exact Nat.min_le_right _ _

/-- A view that is not in order, with the smallest precedence next to the largest one. -/
def extremes : List Item :=
  [{ id := "least", listId := inboxId, precedence := -9223372036854775808 },
    { id := "most", listId := inboxId, precedence := 9223372036854775807 },
    { id := "none", listId := inboxId, precedence := 0 }]

/-- The gap between them is wider than any precedence, and its middle is found all the same. -/
theorem placement_reckoned_extremes :
    (extremes.length + 2) * Spacing.default.step ≤ maxPrecedence ∧
      (Spacing.default.reorder extremes "none" 1).map (fun result =>
          (result.1.reckoned, result.2.map Item.rank)) =
        some (.placed (-1) false, [-9223372036854775808, 9223372036854775807, -1]) ∧
      ∃ placement placed view',
        Spacing.default.insertAt extremes { id := "new", listId := inboxId } 1 =
          (placement, placed, view') ∧ placed.rank = -1 := by
  have hroom : (extremes.length + 2) * Spacing.default.step ≤ maxPrecedence := by decide
  obtain ⟨hmove, hinsert⟩ := Spacing.default.placement_reckoned extremes 1 hroom
  obtain ⟨placement, placed, view', hresult, hreckoned, -⟩ :=
    hinsert { id := "new", listId := inboxId }
  have hrank : (Spacing.default.reckonInsert (extremes.map Item.rank) 1).2.1 = -1 := by decide
  refine ⟨hroom, (hmove "none").1.trans (by decide), placement, placed, view', hresult, ?_⟩
  rw [← hreckoned] at hrank
  exact hrank

end View

end Spacing

end Agenda

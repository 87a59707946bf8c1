/-
Agenda/Proofs/Order/Clearance.lean

A renumber pass makes room everywhere.  Whatever the precedences of a view were,
once a placement has renumbered it, the sorted view with the placed item in it is
*spacious*:

    step / 2  ≤  first,    each + step / 2  ≤  next,    last  ≤  (length + 1) · step

(`renumbered_spacious`).  The slots of the others are a step apart, and so are the
ends of the gap, also where one of them is only assumed
(`step_le_gap_of_renumber`); the midpoint halves that gap and no other.
-/
import Agenda.Proofs.Order.Reckoning

namespace Agenda.Spacing

variable (spacing : Spacing)

/-- Precedences in order, with half a step of room before each of them, up to a bound. -/
structure Spacious (bound : Int) (ranks : List Int64) : Prop where
  /-- There is room before the first precedence, and all others. -/
  low : ∀ rank ∈ ranks, spacing.step / 2 ≤ rank.toInt
  /-- There is room between one precedence and the next, and all that follow. -/
  apart : ranks.Pairwise fun rank later => rank.toInt + spacing.step / 2 ≤ later.toInt
  /-- No precedence is above the bound. -/
  high : ∀ rank ∈ ranks, rank.toInt ≤ bound

instance (bound : Int) (ranks : List Int64) : Decidable (spacing.Spacious bound ranks) :=
  -- the ranks of the list are checked, not all that there are
  letI : Decidable (∀ rank ∈ ranks, spacing.step / 2 ≤ rank.toInt) := List.decidableBAll _ ranks
  letI : Decidable (∀ rank ∈ ranks, rank.toInt ≤ bound) := List.decidableBAll _ ranks
  decidable_of_iff (_ ∧ _ ∧ _)
    ⟨fun h => ⟨h.1, h.2.1, h.2.2⟩, fun h => ⟨h.low, h.apart, h.high⟩⟩

theorem one_le_half_step : 1 ≤ spacing.step / 2 := by
  have hstep := spacing.two_le_step
  omega

variable {spacing} {origin : Option Nat} {target : Nat} {ranks : List Int64}

/-! ### The others -/

/-- After a renumber pass the others have the values of their slots, which the view has. -/
theorem toInt_of_getElem?_renumbered (hroom : (ranks.length + 2) * spacing.step ≤ maxPrecedence)
    {k : Nat} {rank : Int64}
    (h : (without origin (renumber spacing origin (slotBefore origin target) ranks))[k]? =
      some rank) :
    rank.toInt = spacing.slotRank (slotBefore origin target) (slotOf origin k) ∧
      slotOf origin k + 1 ≤ ranks.length := by
  refine ⟨spacing.toInt_renumbered hroom h, ?_⟩
  rw [getElem?_without] at h
  rw [← spacing.length_renumber origin target ranks]
  exact (List.getElem?_eq_some_iff.mp h).1

/-- A renumber pass makes room among the others. -/
theorem spacious_without_renumber (origin : Option Nat) (target : Nat)
    (hroom : (ranks.length + 2) * spacing.step ≤ maxPrecedence) :
    spacing.Spacious ((ranks.length + 1) * spacing.step)
      (without origin (renumber spacing origin (slotBefore origin target) ranks)) := by
  have hstep := spacing.step_pos
  refine ⟨fun rank hmem => ?_, List.pairwise_iff_getElem.mpr fun j k hj hk hjk => ?_,
    fun rank hmem => ?_⟩
  · obtain ⟨k, hget⟩ := List.getElem?_of_mem hmem
    have hlow := spacing.step_le_slotRank (slotBefore origin target) (slotOf origin k)
    rw [(toInt_of_getElem?_renumbered hroom hget).1]
    omega
  · have hapart := spacing.slotRank_add_step_le (slotBefore origin target)
      (slotOf_lt_slotOf origin hjk)
    rw [(toInt_of_getElem?_renumbered hroom (List.getElem?_eq_getElem hj)).1,
      (toInt_of_getElem?_renumbered hroom (List.getElem?_eq_getElem hk)).1]
    omega
  · obtain ⟨k, hget⟩ := List.getElem?_of_mem hmem
    obtain ⟨hvalue, hslot⟩ := toInt_of_getElem?_renumbered hroom hget
    calc rank.toInt = spacing.slotRank (slotBefore origin target) (slotOf origin k) := hvalue
      _ ≤ (slotOf origin k + 2) * spacing.step := spacing.slotRank_le_mul _ _
      _ ≤ (ranks.length + 1) * spacing.step :=
        Int.mul_le_mul_of_nonneg_right (by omega) hstep.le

/-! ### The gap -/

/-- The midpoint of a gap that is a step wide is half a step away from both ends. -/
theorem half_step_le_midpoint {low high : Int64} (hgap : low.toInt + spacing.step ≤ high.toInt) :
    low.toInt + spacing.step / 2 ≤ (midpoint low high).toInt ∧
      (midpoint low high).toInt + spacing.step / 2 ≤ high.toInt := by
  rw [toInt_midpoint]
  omega

/-- After a renumber pass the gap starts at a slot's value, or at 0. -/
theorem lowAt_renumbered (ht : target ≤ (without origin ranks).length)
    (hroom : (ranks.length + 2) * spacing.step ≤ maxPrecedence) :
    let low :=
      lowAt (without origin (renumber spacing origin (slotBefore origin target) ranks)) target
    0 ≤ low.toInt ∧ low.toInt ≤ ranks.length * spacing.step := by
  have hstep := spacing.step_pos
  have hlength := length_without_congr origin (spacing.length_renumber origin target ranks)
  dsimp only
  cases target with
  | zero =>
    have hnonneg : (0 : Int) ≤ ranks.length * spacing.step := by positivity
    simpa [lowAt] using hnonneg
  | succ t =>
    obtain ⟨rank, hget⟩ : ∃ rank, (without origin
        (renumber spacing origin (slotBefore origin (t + 1)) ranks))[t]? = some rank :=
      ⟨_, List.getElem?_eq_getElem (by omega)⟩
    obtain ⟨hvalue, hslot⟩ := toInt_of_getElem?_renumbered hroom hget
    have hself : rank.toInt = (slotOf origin t + 1) * spacing.step :=
      hvalue.trans (spacing.slotRank_self _)
    rw [lowAt, if_neg (Nat.succ_ne_zero t), Nat.add_sub_cancel, List.getD_eq_getElem?_getD, hget,
      Option.getD_some, hself]
    exact ⟨by positivity, Int.mul_le_mul_of_nonneg_right (by omega) hstep.le⟩

/-- After a renumber pass the gap ends at a slot's value, or at the one assumed after the end. -/
theorem highAt_renumbered (ht : target ≤ (without origin ranks).length)
    (hroom : (ranks.length + 2) * spacing.step ≤ maxPrecedence) :
    (spacing.highAt (without origin (renumber spacing origin (slotBefore origin target) ranks))
      target).toInt ≤ (ranks.length + 2) * spacing.step := by
  have hstep := spacing.step_pos
  have hlength := ht.trans (length_without_le origin ranks)
  rw [highAt, List.getD_eq_getElem?_getD]
  cases hget :
      (without origin (renumber spacing origin (slotBefore origin target) ranks))[target]? with
  | none =>
    rw [Option.getD_none, spacing.toInt_beyond hlength hroom]
    exact Int.mul_le_mul_of_nonneg_right (by omega) hstep.le
  | some rank =>
    have hhigh := (spacious_without_renumber origin target hroom).high rank
      (List.mem_of_getElem? hget)
    rw [Option.getD_some]
    linarith

/-- **The room found after a renumber pass**: with the placed item among the others the view is
spacious. -/
theorem spacious_roomAt (h : origin ≠ some target) (ht : target ≤ (without origin ranks).length)
    (hroom : (ranks.length + 2) * spacing.step ≤ maxPrecedence) :
    let room := spacing.roomAt ranks origin target
    room.renumbered = true →
      spacing.Spacious ((ranks.length + 1) * spacing.step)
        ((without origin room.ranks).insertIdx target room.precedence) := by
  rw [spacing.roomAt_eq h]
  intro room hrenumbered
  have hcramped : spacing.Cramped (without origin ranks) target := of_decide_eq_true hrenumbered
  have hothers := spacious_without_renumber origin target hroom
  have hlow := lowAt_renumbered ht hroom
  have hhigh := highAt_renumbered ht hroom
  have hmiddle := half_step_le_midpoint (spacing.step_le_gap_of_renumber ht hroom)
  have hlength := length_without_congr origin (spacing.length_renumber origin target ranks)
  simp only [room, if_pos hcramped]
  generalize without origin (renumber spacing origin (slotBefore origin target) ranks) = others
    at hothers hlow hhigh hmiddle hlength
  have hsorted : others.Pairwise (· ≤ ·) := hothers.apart.imp fun hapart => by
    have hhalf := spacing.one_le_half_step
    rw [Int64.le_iff_toInt_le]
    omega
  have hbound : (midpoint (lowAt others target) (spacing.highAt others target)).toInt ≤
      (ranks.length + 1) * spacing.step := by
    rw [toInt_midpoint]
    have htwice : (ranks.length * spacing.step + (ranks.length + 2) * spacing.step : Int) =
      2 * ((ranks.length + 1) * spacing.step) := by ring
    omega
  refine ⟨fun rank hmem => ?_, pairwise_insertIdx hothers.apart ?_ ?_, fun rank hmem => ?_⟩
  · rcases List.eq_or_mem_of_mem_insertIdx hmem with rfl | hmem
    · omega
    · exact hothers.low rank hmem
  · intro rank hmem
    have hle := Int64.le_iff_toInt_le.mp (le_lowAt hsorted (hlength ▸ ht) hmem)
    omega
  · intro rank hmem
    have hle := Int64.le_iff_toInt_le.mp (spacing.highAt_le hsorted hmem)
    omega
  · rcases List.eq_or_mem_of_mem_insertIdx hmem with rfl | hmem
    · exact hbound
    · exact hothers.high rank hmem

/-! ### Moves and insertions -/

section View

variable {view view' : List Item} {id : String} {item placed : Item} {placement : Placement}

/-- The precedences of a sorted view after a move, unless the item stays. -/
theorem map_precedence_sortItems_of_reorder (hs : InOrder view)
    (hroom : (view.length + 2) * spacing.step ≤ maxPrecedence)
    (h : spacing.reorder view id target = some (placement, view'))
    (hplaced : placement ≠ .unchanged) :
    ∃ origin, origin < view.length ∧ some origin ≠ some (min target (view.length - 1)) ∧
      let room := spacing.roomAt (view.map Item.precedence) (some origin)
        (min target (view.length - 1))
      placement = .placed room.precedence room.renumbered ∧
        (sortItems view').map Item.precedence =
          (without (some origin) room.ranks).insertIdx (min target (view.length - 1))
            room.precedence := by
  obtain ⟨origin, item, hfind, hget, -, ⟨-, hstays, -⟩ | ⟨hne, hplacement, hview⟩⟩ :=
    spacing.reorder_cases h
  · exact absurd hstays hplaced
  · have hlt := (List.getElem?_eq_some_iff.mp hget).1
    refine ⟨origin, hlt, hne, hplacement, ?_⟩
    obtain ⟨moved, -, hslot, hsorted⟩ := spacing.sortItems_of_reorder hs hroom h
    have hlength := spacing.length_roomAt_ranks hne (view.map Item.precedence)
    rw [List.length_map] at hlength
    rw [idxOf_id_eq hfind] at hslot hsorted
    have horigin : origin < (withRanks view (spacing.roomAt (view.map Item.precedence) (some origin)
        (min target (view.length - 1))).ranks).length := by
      rw [← (reranked_withRanks hlength).length_eq]
      exact hlt
    rw [hview, List.getElem?_set_self horigin] at hslot
    obtain rfl := Option.some.inj hslot
    rw [hsorted, hview, List.eraseIdx_set_eq, List.map_insertIdx]
    exact congrArg (List.insertIdx · _ _)
      ((map_without Item.precedence (some origin) _).trans
        (congrArg (without (some origin)) (map_precedence_withRanks hlength)))

/-- The precedences of a sorted view after an insertion. -/
theorem map_precedence_sortItems_of_insertAt (hs : InOrder view)
    (hroom : (view.length + 2) * spacing.step ≤ maxPrecedence)
    (h : spacing.insertAt view item target = (placement, placed, view')) :
    let room := spacing.roomAt (view.map Item.precedence) none (min target view.length)
    placement = .placed room.precedence room.renumbered ∧
      (sortItems (view' ++ [placed])).map Item.precedence =
        room.ranks.insertIdx (min target view.length) room.precedence := by
  have hne : (none : Option Nat) ≠ some (min target view.length) := nofun
  have hlength := spacing.length_roomAt_ranks hne (view.map Item.precedence)
  rw [List.length_map] at hlength
  rw [(spacing.sortItems_of_insertAt hs hroom h).1, List.map_insertIdx]
  obtain ⟨hplacement, hresult⟩ := Prod.mk.inj h
  obtain ⟨rfl, rfl⟩ := Prod.mk.inj hresult
  exact ⟨hplacement.symm, congrArg (List.insertIdx · _ _) (map_precedence_withRanks hlength)⟩

/-- **A renumber pass makes room everywhere.**  Half a step is one at least, and after a move or an
insertion that had the view renumbered, whatever its precedences were before, the sorted view with
the moved or inserted item in it has half a step of room before every item, and no precedence beyond
one step more than the old view has slots. -/
theorem renumbered_spacious (hs : InOrder view) (target : Nat)
    (hroom : (view.length + 2) * spacing.step ≤ maxPrecedence) :
    1 ≤ spacing.step / 2 ∧
      (∀ id placement view', spacing.reorder view id target = some (placement, view') →
        placement.renumbered = true →
        spacing.Spacious ((view.length + 1) * spacing.step)
          ((sortItems view').map Item.precedence)) ∧
      ∀ item placement placed view',
        spacing.insertAt view item target = (placement, placed, view') →
        placement.renumbered = true →
        spacing.Spacious ((view.length + 1) * spacing.step)
          ((sortItems (view' ++ [placed])).map Item.precedence) := by
  have hspacious : ∀ {origin target}, origin ≠ some target →
      target ≤ (without origin (view.map Item.precedence)).length →
      let room := spacing.roomAt (view.map Item.precedence) origin target
      room.renumbered = true →
        spacing.Spacious ((view.length + 1) * spacing.step)
          ((without origin room.ranks).insertIdx target room.precedence) := by
    intro origin target hne ht
    rw [← List.length_map Item.precedence] at hroom ⊢
    exact spacious_roomAt hne ht hroom
  refine ⟨spacing.one_le_half_step, ?_, ?_⟩
  · intro id placement view' hmoved hrenumbered
    obtain ⟨origin, hlt, hne, rfl, hsorted⟩ := map_precedence_sortItems_of_reorder hs hroom hmoved
      (by rintro rfl; cases hrenumbered)
    rw [hsorted]
    exact hspacious hne (min_le_length_without hlt target) hrenumbered
  · intro item placement placed view' hinserted hrenumbered
    obtain ⟨rfl, hsorted⟩ := map_precedence_sortItems_of_insertAt hs hroom hinserted
    rw [hsorted]
    exact hspacious nofun (by simp [without]) hrenumbered

/-- Three items with one precedence, among which there is no gap, before and after. -/
theorem renumbered_spacious_twins :
    InOrder twins ∧ (twins.length + 2) * Spacing.default.step ≤ maxPrecedence ∧
      (∃ view', Spacing.default.reorder twins "b" 2 = some (.placed 128 true, view') ∧
        Spacing.default.Spacious ((twins.length + 1) * Spacing.default.step)
          ((sortItems view').map Item.precedence)) ∧
      ∃ placed view',
        Spacing.default.insertAt twins { id := "d", listId := inboxId } 2 =
          (.placed 96 true, placed, view') ∧
        Spacing.default.Spacious ((twins.length + 1) * Spacing.default.step)
          ((sortItems (view' ++ [placed])).map Item.precedence) := by
  have hs : InOrder twins := by decide
  have hroom : (twins.length + 2) * Spacing.default.step ≤ maxPrecedence := by decide
  obtain ⟨-, hmove, hinsert⟩ := renumbered_spacious hs 2 hroom
  refine ⟨hs, hroom, ⟨_, rfl, ?_⟩, ⟨_, _, rfl, ?_⟩⟩
  · exact hmove "b" (.placed 128 true) _ rfl rfl
  · exact hinsert { id := "d", listId := inboxId } (.placed 96 true) _ _ rfl rfl

end View

end Agenda.Spacing

/-
Agenda/Proofs/Order/Halving.lean

How long a gap lasts.  New items are put to one index of a view, one after
another, and the view is sorted again each time.  The item before the index stays
what it was, and each new item halves the gap behind it, rounding down:

    low,  low + gap   →   low,  low + gap / 2   →   low,  low + gap / 4   →  …

(`GapAt.insertAt`, `gapAt_insertUpto`).  Nothing but the new items gets a
precedence, until the gap has become smaller than the smallest that holds a
midpoint; that is where the first renumber pass is made (`gap_lasts`).

Nothing is assumed of the length of the view.  The gap may be wider than the
64-bit range; its width is only compared with the smallest gap, and its middle
lies in the range.
-/
import Agenda.Proofs.Order.Reckoning
import Mathlib.Order.Nat

namespace Agenda.Spacing

/-! ### Inserting again and again -/

variable (spacing : Spacing)

/-- The view after the first `n` of some new items were put to `index`, one after another: each is
put to the end of what the insertion leaves of the view, which then is sorted again. -/
def insertUpto (view : List Item) (items : Nat → Item) (index : Nat) : Nat → List Item
  | 0 => view
  | n + 1 =>
    let (_, placed, view') := spacing.insertAt (insertUpto view items index n) (items n) index
    sortItems (view' ++ [placed])

/-- The insertion number `n` of these, counted from 0. -/
def insertion (view : List Item) (items : Nat → Item) (index n : Nat) :
    Placement × Item × List Item :=
  spacing.insertAt (spacing.insertUpto view items index n) (items n) index

/-- The insertion number `k` is the first one that has the view renumbered. -/
def FirstRenumbers (view : List Item) (items : Nat → Item) (index k : Nat) : Prop :=
  (spacing.insertion view items index k).1.renumbered = true ∧
    ∀ j < k, (spacing.insertion view items index j).1.renumbered = false

/-! ### One insertion -/

theorem renumbered_insertAt_iff {view : List Item} {target : Nat} (ht : target ≤ view.length)
    (item : Item) :
    (spacing.insertAt view item target).1.renumbered = true ↔
      spacing.Cramped (view.map Item.precedence) target := by
  have hne : (none : Option Nat) ≠ some target := nofun
  rw [insertAt, Nat.min_eq_left ht, spacing.roomAt_eq hne]
  exact decide_eq_true_iff

/-- Where there is room, an insertion takes the midpoint and leaves the view as it is. -/
theorem insertAt_of_not_cramped {view : List Item} {target : Nat} (ht : target ≤ view.length)
    (item : Item) (h : ¬ spacing.Cramped (view.map Item.precedence) target) :
    let middle := midpoint (lowAt (view.map Item.precedence) target)
      (spacing.highAt (view.map Item.precedence) target)
    spacing.insertAt view item target =
      (.placed middle false, { item with precedence := middle }, view) := by
  have hne : (none : Option Nat) ≠ some target := nofun
  have hothers : ¬ spacing.Cramped (without none (view.map Item.precedence)) target := h
  rw [insertAt, Nat.min_eq_left ht, spacing.roomAt_eq hne]
  simp only [if_neg hothers, decide_eq_false hothers, withRanks_self]
  rfl

/-- The view is in order, the item at `slot` has the precedence `low`, and the next one is `gap`
away. -/
structure GapAt (view : List Item) (slot : Nat) (low gap : Int) : Prop where
  /-- The view is in order. -/
  inOrder : InOrder view
  /-- The item before the gap. -/
  low_eq : view[slot]?.map Item.rank = some low
  /-- The item after the gap. -/
  high_eq : view[slot + 1]?.map Item.rank = some (low + gap)

namespace GapAt

variable {spacing} {view : List Item} {slot : Nat} {low gap : Int}

theorem lt_length (h : GapAt view slot low gap) : slot + 1 < view.length := by
  obtain ⟨item, hitem, -⟩ := Option.map_eq_some_iff.mp h.high_eq
  exact (List.getElem?_eq_some_iff.mp hitem).1

theorem toInt_lowAt (h : GapAt view slot low gap) :
    (lowAt (view.map Item.precedence) (slot + 1)).toInt = low := by
  obtain ⟨item, hitem, hrank⟩ := Option.map_eq_some_iff.mp h.low_eq
  rw [lowAt, if_neg (Nat.succ_ne_zero slot), Nat.add_sub_cancel, List.getD_eq_getElem?_getD,
    List.getElem?_map, hitem]
  exact hrank

theorem toInt_highAt (h : GapAt view slot low gap) :
    (spacing.highAt (view.map Item.precedence) (slot + 1)).toInt = low + gap := by
  obtain ⟨item, hitem, hrank⟩ := Option.map_eq_some_iff.mp h.high_eq
  rw [highAt, List.getD_eq_getElem?_getD, List.getElem?_map, hitem]
  exact hrank

/-- The gap is too small if it is smaller than the smallest gap, however wide it is. -/
theorem cramped_iff (h : GapAt view slot low gap) :
    spacing.Cramped (view.map Item.precedence) (slot + 1) ↔ gap < spacing.minGap := by
  rw [Cramped, saturate_lt_minGap_iff, h.toInt_lowAt, h.toInt_highAt, add_sub_cancel_left]

theorem renumbered_iff (h : GapAt view slot low gap) (item : Item) :
    (spacing.insertAt view item (slot + 1)).1.renumbered = true ↔ gap < spacing.minGap := by
  rw [spacing.renumbered_insertAt_iff h.lt_length.le, h.cramped_iff]

/-- An item with a precedence in the gap comes to stand in it. -/
theorem sortItems_append (h : GapAt view slot low gap) {item : Item} (hlow : low < item.rank)
    (hhigh : item.rank < low + gap) :
    sortItems (view ++ [item]) = view.insertIdx (slot + 1) item := by
  have hs := h.inOrder.pairwise_precedence
  have hlt := h.lt_length
  -- the gap has items on both sides, so its ends are the same for every spacing
  rw [← List.insertIdx_length_self]
  refine sortItems_insertIdx_of_between h.inOrder hlt.le (le_refl _) (fun other hother => ?_)
    fun other hother => ?_
  · have hle : other.precedence ≤ lowAt (view.map Item.precedence) (slot + 1) := by
      refine le_lowAt hs (by rw [List.length_map]; exact hlt.le) ?_
      rw [← List.map_take]
      exact List.mem_map_of_mem hother
    rw [Int64.le_iff_toInt_le, h.toInt_lowAt] at hle
    rw [Int64.lt_iff_toInt_lt]
    exact Int.lt_of_le_of_lt hle hlow
  · have hle : Spacing.default.highAt (view.map Item.precedence) (slot + 1) ≤ other.precedence := by
      refine highAt_le _ hs ?_
      rw [← List.map_drop]
      exact List.mem_map_of_mem hother
    rw [Int64.le_iff_toInt_le, h.toInt_highAt] at hle
    rw [Int64.lt_iff_toInt_lt]
    exact Int.lt_of_lt_of_le hhigh hle

/-- **An insertion halves the gap** and leaves the view as it is. -/
theorem insertAt (h : GapAt view slot low gap) (hgap : spacing.minGap ≤ gap) (item : Item) :
    ∃ placed, spacing.insertAt view item (slot + 1) =
        (.placed placed.precedence false, placed, view) ∧
      item.Reranked placed ∧ placed.rank = low + gap / 2 ∧
      GapAt (sortItems (view ++ [placed])) slot low (gap / 2) := by
  have htwo := spacing.two_le_minGap
  have hlt := h.lt_length
  have hinserted := spacing.insertAt_of_not_cramped hlt.le item
    (mt h.cramped_iff.mp (Int.not_lt.mpr hgap))
  have hmiddle : (midpoint (lowAt (view.map Item.precedence) (slot + 1))
      (spacing.highAt (view.map Item.precedence) (slot + 1))).toInt = low + gap / 2 := by
    rw [toInt_midpoint, h.toInt_lowAt, h.toInt_highAt]
    omega
  generalize midpoint (lowAt (view.map Item.precedence) (slot + 1))
    (spacing.highAt (view.map Item.precedence) (slot + 1)) = middle at hinserted hmiddle
  obtain ⟨placed, hplaced⟩ : ∃ placed, placed = { item with precedence := middle } := ⟨_, rfl⟩
  have hrank : placed.rank = low + gap / 2 := hplaced ▸ hmiddle
  have hsorted : sortItems (view ++ [placed]) = view.insertIdx (slot + 1) placed :=
    h.sortItems_append (by omega) (by omega)
  refine ⟨placed, ?_, ?_, hrank, inOrder_sortItems _, ?_, ?_⟩
  · rw [hinserted, hplaced]
  · rw [hplaced]
    rfl
  · rw [hsorted, List.getElem?_insertIdx_of_lt (Nat.lt_add_one slot)]
    exact h.low_eq
  · rw [hsorted, List.getElem?_insertIdx_self, if_pos hlt.le]
    exact congrArg some hrank

end GapAt

/-! ### A run of insertions -/

section Run

variable {spacing} {view : List Item} {slot : Nat} {low gap : Int}

theorem div_pow_succ (gap : Int) (n : Nat) : gap / 2 ^ (n + 1) = gap / 2 ^ n / 2 := by
  rw [pow_succ, Int.ediv_ediv_of_nonneg (by positivity)]

/-- **The gap is halved again and again**, as long as it is not too small. -/
theorem gapAt_insertUpto (h : GapAt view slot low gap) (items : Nat → Item) {n : Nat}
    (hn : ∀ j < n, spacing.minGap ≤ gap / 2 ^ j) :
    GapAt (spacing.insertUpto view items (slot + 1) n) slot low (gap / 2 ^ n) := by
  induction n with
  | zero => simpa [insertUpto] using h
  | succ n ih =>
    have hgap := ih fun j hj => hn j (Nat.lt_succ_of_lt hj)
    obtain ⟨placed, hinserted, -, -, hhalf⟩ := hgap.insertAt (hn n (Nat.lt_add_one n)) (items n)
    rw [insertUpto, hinserted, div_pow_succ]
    exact hhalf

/-- There is no renumber pass as long as the gap is not too small. -/
theorem forall_not_renumbered_iff (h : GapAt view slot low gap) (items : Nat → Item) (n : Nat) :
    (∀ j < n, (spacing.insertion view items (slot + 1) j).1.renumbered = false) ↔
      ∀ j < n, spacing.minGap ≤ gap / 2 ^ j := by
  induction n with
  | zero => simp
  | succ n ih =>
    rw [Nat.forall_lt_succ_right, Nat.forall_lt_succ_right, ih]
    refine and_congr_right fun hbefore => ?_
    have hgap := gapAt_insertUpto h items hbefore
    rw [← Bool.not_eq_true, insertion, hgap.renumbered_iff, Int.not_lt]

/-- The first renumber pass is made where the gap has become too small. -/
theorem firstRenumbers_iff (h : GapAt view slot low gap) (items : Nat → Item) (k : Nat) :
    spacing.FirstRenumbers view items (slot + 1) k ↔
      IsLeast {n : Nat | gap / 2 ^ n < spacing.minGap} k := by
  have hleast : IsLeast {n : Nat | gap / 2 ^ n < spacing.minGap} k ↔
      (∀ j < k, spacing.minGap ≤ gap / 2 ^ j) ∧ gap / 2 ^ k < spacing.minGap := by
    rw [and_comm, IsLeast, mem_lowerBounds]
    refine and_congr_right fun _ => forall_congr' fun j => ?_
    rw [← Int.not_lt, imp_not_comm, Nat.not_lt]
    rfl
  rw [hleast, FirstRenumbers, and_comm, forall_not_renumbered_iff h]
  refine and_congr_right fun hbefore => ?_
  exact (gapAt_insertUpto h items hbefore).renumbered_iff (items k)

/-- However wide a gap is, it does not last for ever. -/
theorem exists_isLeast_div_pow_lt (spacing : Spacing) (high low : Int64) :
    ∃ k, IsLeast {n : Nat | (high.toInt - low.toInt) / 2 ^ n < spacing.minGap} k := by
  have htwo := spacing.two_le_minGap
  have hhigh := high.toInt_lt
  have hlow := low.le_toInt
  have hex : ∃ n : Nat, (high.toInt - low.toInt) / 2 ^ n < spacing.minGap := ⟨64, by omega⟩
  exact ⟨Nat.find hex, Nat.isLeast_find hex⟩

end Run

/-- **How long a gap lasts.**  When new items are put to an index inside a view, one after another,
the first one that has the view renumbered is number `k` if and only if `k` is the least number of
times that the gap has to be halved to become too small; and there is such a number.  Each item
before it gets the precedence in the middle of what is left of the gap, and no other item gets
one. -/
theorem gap_lasts {view : List Item} (hs : InOrder view) {index : Nat} (hpos : 1 ≤ index)
    (hlt : index < view.length) (items : Nat → Item) :
    let low := view[index - 1].rank
    let gap := view[index].rank - low
    (∀ k, spacing.FirstRenumbers view items index k ↔
        IsLeast {n : Nat | gap / 2 ^ n < spacing.minGap} k) ∧
      (∃ k, spacing.FirstRenumbers view items index k) ∧
      ∀ k, spacing.FirstRenumbers view items index k → ∀ j < k,
        ∃ placed, spacing.insertion view items index j =
            (.placed placed.precedence false, placed, spacing.insertUpto view items index j) ∧
          (items j).Reranked placed ∧ placed.rank = low + gap / 2 ^ (j + 1) := by
  intro low gap
  obtain ⟨slot, rfl⟩ : ∃ slot, index = slot + 1 := ⟨index - 1, by omega⟩
  have hgap : GapAt view slot low gap := by
    refine ⟨hs, ?_, ?_⟩
    · rw [List.getElem?_eq_getElem (by omega)]
      rfl
    · rw [List.getElem?_eq_getElem hlt, Option.map_some, add_sub_cancel]
  refine ⟨firstRenumbers_iff hgap items, ?_, fun k hk j hj => ?_⟩
  · obtain ⟨k, hk⟩ := exists_isLeast_div_pow_lt spacing view[slot + 1].precedence
      view[slot].precedence
    exact ⟨k, (firstRenumbers_iff hgap items k).mpr hk⟩
  · have hbefore := (forall_not_renumbered_iff hgap items k).mp hk.2
    obtain ⟨placed, hinserted, hreranked, hrank, -⟩ :=
      (gapAt_insertUpto hgap items fun i hi => hbefore i (hi.trans hj)).insertAt (hbefore j hj)
        (items j)
    exact ⟨placed, hinserted, hreranked, by rw [hrank, div_pow_succ]⟩

/-- The smallest and the largest precedence, with the widest gap that there is. -/
def poles : List Item :=
  [{ id := "south", listId := inboxId, precedence := -9223372036854775808 },
    { id := "north", listId := inboxId, precedence := 9223372036854775807 }]

/-- The widest gap is halved 63 times, from the equator on. -/
theorem gap_lasts_poles :
    let items (n : Nat) : Item := { id := toString n, listId := inboxId }
    InOrder poles ∧ 1 ≤ 1 ∧ 1 < poles.length ∧
      Spacing.default.FirstRenumbers poles items 1 63 ∧
      ∃ placed, Spacing.default.insertion poles items 1 0 =
          (.placed placed.precedence false, placed, poles) ∧
        placed.rank = -1 := by
  intro items
  have hlow : poles[0].rank = -9223372036854775808 := rfl
  have hwidth : poles[1].rank - poles[0].rank = 18446744073709551615 := rfl
  have hs : InOrder poles := by decide
  have hlt : 1 < poles.length := by decide
  obtain ⟨hfirst, -, hplaced⟩ := Spacing.default.gap_lasts hs (le_refl 1) hlt items
  have hk : Spacing.default.FirstRenumbers poles items 1 63 := by
    rw [hfirst 63, hwidth]
    refine ⟨by decide +kernel, fun n hn => ?_⟩
    by_contra hshort
    have hwide : ∀ n < 63, ¬ (18446744073709551615 : Int) / 2 ^ n < 2 := by decide +kernel
    exact hwide n (Nat.lt_of_not_le hshort) hn
  obtain ⟨placed, hinserted, -, hrank⟩ := hplaced 63 hk 0 (by decide)
  rw [hwidth, hlow] at hrank
  exact ⟨hs, le_refl 1, hlt, hk, placed, hinserted, hrank⟩

end Agenda.Spacing

/-
Agenda/Proofs/Order/Landing.lean

Where a placed item lands.  A placement writes precedences and leaves every
item in its slot; only sorting the view again shows where things stand.  Ids
may occur twice and precedences may be equal, so it matters that sorting is
stable.  Seen from the slots, with the placed item at `origin`,

    (sortItems view')[index]  =  view'[origin]
    sortItems view', without `index`  =  view', without `origin`

(`reorder_lands`), and the same of a new item at the end (`insertAt_lands`).
No arrangement but this one is possible, since the precedence that is given to
the placed item is shared by no other item.
-/
import Agenda.Proofs.Order.Placement
import Agenda.Proofs.Order.Rearranged

namespace Agenda

instance (view : List Item) : Decidable (InOrder view) :=
  inferInstanceAs (Decidable (view.Pairwise fun a b => a.precedes b))

/-- A view in order is left as it is. -/
theorem sortItems_eq_self {view : List Item} (hs : InOrder view) : sortItems view = view :=
  List.mergeSort_of_pairwise hs

/-- A precedence between those of the items is the precedence of none of them. -/
theorem precedence_ne_of_between {view : List Item} {rank : Int64} {target : Nat}
    (hbelow : ∀ other ∈ view.take target, other.precedence < rank)
    (habove : ∀ other ∈ view.drop target, rank < other.precedence) :
    ∀ other ∈ view, other.precedence ≠ rank := by
  intro other hother
  rw [← List.take_append_drop target view] at hother
  rcases List.mem_append.mp hother with hmem | hmem
  · exact Int64.ne_of_lt (hbelow other hmem)
  · exact (Int64.ne_of_lt (habove other hmem)).symm

/-- **Sorting puts an item between those below and those above it**, wherever it was among them. -/
theorem sortItems_insertIdx_of_between {view : List Item} (hs : InOrder view) {item : Item}
    {target i : Nat} (ht : target ≤ view.length) (hi : i ≤ view.length)
    (hbelow : ∀ other ∈ view.take target, other.precedence < item.precedence)
    (habove : ∀ other ∈ view.drop target, item.precedence < other.precedence) :
    sortItems (view.insertIdx i item) = view.insertIdx target item := by
  have hmoved : Rearranged Item.precedence (view.insertIdx i item) (view.insertIdx target item) :=
    .insertIdx (precedence_ne_of_between hbelow habove) hi ht
  have harranged : InOrder (view.insertIdx target item) :=
    pairwise_insertIdx hs (fun other hother => Item.precedes_of_lt (hbelow other hother))
      fun other hother => Item.precedes_of_lt (habove other hother)
  calc sortItems (view.insertIdx i item)
      = sortItems (view.insertIdx target item) :=
        sortItems_eq_of_rearranged hmoved fun _ _ heq => (Item.compare_eq_eq_iff.mp heq).1
    _ = view.insertIdx target item := sortItems_eq_self harranged

/-- The first item with an id stands where the id does. -/
theorem idxOf_id_eq {view : List Item} {id : String} {i : Nat}
    (h : view.findIdx? (fun item => item.id = id) = some i) : (view.map Item.id).idxOf id = i := by
  obtain ⟨-, hi⟩ := List.findIdx?_eq_some_iff_findIdx_eq.mp h
  rw [List.idxOf, List.findIdx_map, ← hi]
  congr 1

namespace Spacing

variable (spacing : Spacing)

/-- An item can be moved if and only if it is in the view. -/
theorem reorder_eq_none_iff (view : List Item) (id : String) (target : Nat) :
    spacing.reorder view id target = none ↔ id ∉ view.map Item.id := by
  rw [reorder, Option.map_eq_none_iff, List.findIdx?_eq_none_iff]
  simp

section Room

variable {spacing} {view : List Item} {origin : Option Nat} {target : Nat}

/-- No other item has the precedence that is found for the placed one. -/
theorem precedence_ne_of_roomAt (hs : InOrder view) (h : origin ≠ some target)
    (ht : target ≤ (without origin view).length)
    (hroom : (view.length + 2) * spacing.step ≤ maxPrecedence) :
    let room := spacing.roomAt (view.map Item.precedence) origin target
    ∀ other ∈ without origin (withRanks view room.ranks), other.precedence ≠ room.precedence :=
  have hbetween := spacing.roomAt_between hs h ht hroom
  precedence_ne_of_between hbetween.1 hbetween.2

/-- **Sorting puts the placed item to its target**, wherever it was among the others, and leaves the
others as they stand. -/
theorem sortItems_insertIdx_roomAt (hs : InOrder view) (h : origin ≠ some target)
    (ht : target ≤ (without origin view).length)
    (hroom : (view.length + 2) * spacing.step ≤ maxPrecedence) (item : Item) {i : Nat}
    (hi : i ≤ (without origin view).length) :
    let room := spacing.roomAt (view.map Item.precedence) origin target
    let others := without origin (withRanks view room.ranks)
    let placed := { item with precedence := room.precedence }
    sortItems (others.insertIdx i placed) = others.insertIdx target placed := by
  intro room others placed
  have hlength : others.length = (without origin view).length := by
    apply length_without_congr
    rw [← (reranked_withRanks _).length_eq]
    rw [spacing.length_roomAt_ranks h, List.length_map]
  have hothers : InOrder others := spacing.inOrder_without_roomAt hs h hroom
  obtain ⟨hbelow, habove⟩ := spacing.roomAt_between hs h ht hroom
  exact sortItems_insertIdx_of_between hothers (hlength ▸ ht) (hlength ▸ hi) hbelow habove

end Room

/-! ### Moving -/

/-- What a move does, seen from the slots: the moved item is taken out of its slot and stands at the
target when the view is sorted again. -/
theorem sortItems_of_reorder {view view' : List Item} (hs : InOrder view) {id : String}
    {target : Nat} {placement : Placement}
    (hroom : (view.length + 2) * spacing.step ≤ maxPrecedence)
    (h : spacing.reorder view id target = some (placement, view')) :
    ∃ item, item.id = id ∧ view'[(view.map Item.id).idxOf id]? = some item ∧
      sortItems view' = (view'.eraseIdx ((view.map Item.id).idxOf id)).insertIdx
        (min target (view.length - 1)) item := by
  obtain ⟨origin, item, hfind, hget, hid, hcases⟩ := spacing.reorder_cases h
  obtain ⟨hlt, hitem⟩ := List.getElem?_eq_some_iff.mp hget
  rw [idxOf_id_eq hfind]
  rcases hcases with ⟨hstays, -, rfl⟩ | ⟨hne, -, rfl⟩
  -- an item that stays is taken out and put back
  · refine ⟨item, hid, hget, ?_⟩
    rw [sortItems_eq_self hs, ← hstays, ← hitem]
    exact (List.insertIdx_eraseIdx_getElem hlt).symm
  · have hothers : (without (some origin) view).length = view.length - 1 :=
      List.length_eraseIdx_of_lt hlt
    have ht : min target (view.length - 1) ≤ (without (some origin) view).length := by
      rw [hothers]
      exact Nat.min_le_right _ _
    have horigin : origin ≤ (without (some origin) view).length := by omega
    have hsorted := sortItems_insertIdx_roomAt hs hne ht hroom item horigin
    have hlength := spacing.length_roomAt_ranks hne (view.map Item.precedence)
    rw [List.length_map] at hlength
    generalize spacing.roomAt (view.map Item.precedence) (some origin)
      (min target (view.length - 1)) = room at hsorted hlength ⊢
    have hslot : origin < (withRanks view room.ranks).length := by
      rw [← (reranked_withRanks hlength).length_eq]
      exact hlt
    refine ⟨{ item with precedence := room.precedence }, hid, List.getElem?_set_self hslot, ?_⟩
    rw [List.eraseIdx_set_eq, ← List.insertIdx_eraseIdx_self hslot.ne]
    exact hsorted

/-- **A moved item lands exactly where it is asked to.**  When the view is sorted again, the first
item with the id stands at the target and the others stand as they stood.  An item that is there
already is left alone, and so is the view.  Where ids are distinct, asking again changes nothing. -/
theorem reorder_lands {view : List Item} (hs : InOrder view) {id : String}
    (hid : id ∈ view.map Item.id) (target : Nat)
    (hroom : (view.length + 2) * spacing.step ≤ maxPrecedence) :
    let origin := (view.map Item.id).idxOf id
    let index := min target (view.length - 1)
    ∃ placement view', spacing.reorder view id target = some (placement, view') ∧
      List.Forall₂ Item.Reranked view view' ∧
      (∃ item, view'[origin]? = some item ∧ (sortItems view')[index]? = some item) ∧
      (sortItems view').eraseIdx index = view'.eraseIdx origin ∧
      (origin = index → placement = .unchanged ∧ view' = view) ∧
      (DistinctIds view →
        spacing.reorder (sortItems view') id target = some (.unchanged, sortItems view')) := by
  intro origin index
  obtain ⟨⟨placement, view'⟩, hmoved⟩ :=
    Option.ne_none_iff_exists'.mp fun h => (spacing.reorder_eq_none_iff view id target).mp h hid
  obtain ⟨item, hitem, hslot, hsorted⟩ := spacing.sortItems_of_reorder hs hroom hmoved
  have hreranked := spacing.reranked_of_reorder hmoved
  have horigin : origin < view'.length := (List.getElem?_eq_some_iff.mp hslot).1
  have hothers : (view'.eraseIdx origin).length = view.length - 1 := by
    rw [List.length_eraseIdx_of_lt horigin, hreranked.length_eq]
  have hindex : index ≤ (view'.eraseIdx origin).length := hothers ▸ Nat.min_le_right _ _
  have hlands : (sortItems view')[index]? = some item := by
    rw [hsorted, List.getElem?_insertIdx_self, if_pos hindex]
  refine ⟨placement, view', hmoved, hreranked, ⟨item, hslot, hlands⟩, ?_, ?_, ?_⟩
  · rw [hsorted, List.eraseIdx_insertIdx_self]
  · intro hstays
    obtain ⟨slot, _, hfind, -, -, ⟨-, hplacement, hview⟩ | ⟨hne, -⟩⟩ := spacing.reorder_cases hmoved
    · exact ⟨hplacement, hview⟩
    · refine absurd (congrArg some ?_) hne
      rw [← idxOf_id_eq hfind]
      exact hstays
  · intro hd
    have hd' : DistinctIds (sortItems view') :=
      DistinctIds.perm (by rw [DistinctIds, map_id_of_reranked hreranked]; exact hd)
        (sortItems_perm view')
    have hlength : (sortItems view').length = view.length := by
      rw [(sortItems_perm view').length_eq, hreranked.length_eq]
    rw [reorder, ← hitem, hd'.findIdx?_eq hlands, Option.map_some, hlength]
    exact congrArg some (if_pos rfl)

/-- A view with two items of one id, and no gap in front of the last item. -/
def twins : List Item :=
  [{ id := "a", listId := inboxId, precedence := -3 },
    { id := "b", listId := inboxId, summary := "first", precedence := 1 },
    { id := "b", listId := inboxId, summary := "second", precedence := 1 },
    { id := "c", listId := inboxId, precedence := 1 }]

/-- The first twin changes places with the second. -/
theorem reorder_lands_twins :
    InOrder twins ∧ "b" ∈ twins.map Item.id ∧
      (twins.length + 2) * Spacing.default.step ≤ maxPrecedence ∧
      ∃ placement view', Spacing.default.reorder twins "b" 2 = some (placement, view') ∧
        (∃ item, view'[1]? = some item ∧ (sortItems view')[2]? = some item) ∧
        (sortItems view').eraseIdx 2 = view'.eraseIdx 1 := by
  have hs : InOrder twins := by decide
  have hid : "b" ∈ twins.map Item.id := by decide
  have hroom : (twins.length + 2) * Spacing.default.step ≤ maxPrecedence := by decide
  have horigin : (twins.map Item.id).idxOf "b" = 1 := by decide
  obtain ⟨placement, view', hmoved, -, hlands, hothers, -⟩ :=
    Spacing.default.reorder_lands hs hid 2 hroom
  rw [horigin] at hlands hothers
  exact ⟨hs, hid, hroom, placement, view', hmoved, hlands, hothers⟩

/-! ### Inserting -/

/-- What an insertion does, seen from the slots: the new item comes after all the others and stands
at the target when the view is sorted again. -/
theorem sortItems_of_insertAt {view view' : List Item} (hs : InOrder view) {item placed : Item}
    {target : Nat} {placement : Placement}
    (hroom : (view.length + 2) * spacing.step ≤ maxPrecedence)
    (h : spacing.insertAt view item target = (placement, placed, view')) :
    sortItems (view' ++ [placed]) = view'.insertIdx (min target view.length) placed ∧
      ∀ other ∈ view', other.precedence ≠ placed.precedence := by
  obtain ⟨-, hview⟩ := spacing.reranked_of_insertAt view item target
  have hne : (none : Option Nat) ≠ some (min target view.length) := nofun
  have ht : min target view.length ≤ (without none view).length := Nat.min_le_right _ _
  have hapart := precedence_ne_of_roomAt hs hne ht hroom
  -- the end of the view is a slot like any other
  have hsorted := sortItems_insertIdx_roomAt hs hne ht hroom item (le_refl _)
  rw [h] at hview
  obtain ⟨-, h⟩ := Prod.mk.inj h
  obtain ⟨rfl, rfl⟩ := Prod.mk.inj h
  refine ⟨?_, hapart⟩
  rw [← List.insertIdx_length_self, ← hview.length_eq]
  exact hsorted

/-- **A new item lands exactly where it is asked to.**  When it is put to the end of the view and
the view is sorted again, it stands at the target, the items that were there stand as they stood,
and none of them has its precedence. -/
theorem insertAt_lands {view : List Item} (hs : InOrder view) (item : Item) (target : Nat)
    (hroom : (view.length + 2) * spacing.step ≤ maxPrecedence) :
    let index := min target view.length
    ∃ placement placed view', spacing.insertAt view item target = (placement, placed, view') ∧
      item.Reranked placed ∧ List.Forall₂ Item.Reranked view view' ∧
      (sortItems (view' ++ [placed]))[index]? = some placed ∧
      (sortItems (view' ++ [placed])).eraseIdx index = view' ∧
      ∀ other ∈ view', other.precedence ≠ placed.precedence := by
  intro index
  obtain ⟨hplaced, hview⟩ := spacing.reranked_of_insertAt view item target
  rcases hresult : spacing.insertAt view item target with ⟨placement, placed, view'⟩
  rw [hresult] at hplaced hview
  obtain ⟨hsorted, hapart⟩ := spacing.sortItems_of_insertAt hs hroom hresult
  have hindex : index ≤ view'.length := hview.length_eq ▸ Nat.min_le_right _ _
  refine ⟨placement, placed, view', rfl, hplaced, hview, ?_, ?_, hapart⟩
  · rw [hsorted, List.getElem?_insertIdx_self, if_pos hindex]
  · rw [hsorted, List.eraseIdx_insertIdx_self]

/-- A new item comes to stand between the twins. -/
theorem insertAt_lands_twins :
    InOrder twins ∧ (twins.length + 2) * Spacing.default.step ≤ maxPrecedence ∧
      ∃ placement placed view',
        Spacing.default.insertAt twins { id := "b", listId := inboxId, summary := "third" } 2 =
          (placement, placed, view') ∧
        (sortItems (view' ++ [placed]))[2]? = some placed ∧
        (sortItems (view' ++ [placed])).eraseIdx 2 = view' ∧
        ∀ other ∈ view', other.precedence ≠ placed.precedence := by
  have hs : InOrder twins := by decide
  have hroom : (twins.length + 2) * Spacing.default.step ≤ maxPrecedence := by decide
  obtain ⟨placement, placed, view', hresult, -, -, hlands, hothers, hapart⟩ :=
    Spacing.default.insertAt_lands hs { id := "b", listId := inboxId, summary := "third" } 2 hroom
  exact ⟨hs, hroom, placement, placed, view', hresult, hlands, hothers, hapart⟩

end Spacing

end Agenda

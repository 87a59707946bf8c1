/-
Agenda/Proofs/View.lean

Views and their way back into storage.  A view is taken from storage with the
position of each item, changed, and written back position by position.  For
a view `view` that still has one item for each slot:

* the new storage is the new view and the items that were not in it, up to
  order (`writeBack_perm`);
* item for item, only the precedence of what was in the view changes
  (`forall₂_writeBack`), so the order of storage and all ids stay.

A view with a blank search is the whole list, in display order.
-/
import Agenda.Proofs.Order.Placement
import Agenda.Proofs.Search.Query
import Agenda.View
import Mathlib.Data.List.Forall2

namespace Agenda

open Search

/-! ### Views -/

theorem mem_viewOf {items : List Item} {listId search : String} {item : Item} :
    item ∈ viewOf items listId search ↔
      item ∈ items ∧ (Query.parse search).admits listId item = true := by
  rw [viewOf, mem_sortItems, List.mem_filter]

theorem inOrder_viewOf (items : List Item) (listId search : String) :
    InOrder (viewOf items listId search) :=
  inOrder_sortItems _

theorem DistinctIds.viewOf {items : List Item} (h : DistinctIds items)
    (listId search : String) : DistinctIds (viewOf items listId search) :=
  (h.sublist List.filter_sublist).perm (sortItems_perm _)

theorem viewOf_of_blank {search : String} (h : Blank search) (items : List Item)
    (listId : String) :
    viewOf items listId search = sortItems (items.filter fun item => item.listId = listId) := by
  rw [viewOf]
  congr 2
  funext item
  exact admits_of_blank h listId item

theorem mem_viewOf_of_blank {search : String} (h : Blank search) {items : List Item}
    {listId : String} {item : Item} :
    item ∈ viewOf items listId search ↔ item ∈ items ∧ item.listId = listId := by
  rw [mem_viewOf, admits_of_blank h, decide_eq_true_iff]

theorem blank_empty : Blank "" := by
  simp [Blank]

/-! ### Slots -/

theorem map_fst_slotsOf (items : List Item) (listId search : String) :
    (slotsOf items listId search).map Prod.fst = viewOf items listId search := by
  have hfilter : (items.zipIdx.filter fun slot =>
      (Query.parse search).admits listId slot.1).map Prod.fst =
        items.filter ((Query.parse search).admits listId) := by
    conv_rhs => rw [← List.zipIdx_map_fst 0 items, List.filter_map]
    rfl
  rw [slotsOf, viewOf, sortItems, ← hfilter]
  exact List.map_mergeSort fun _ _ _ _ => rfl

theorem slotsOf_perm (items : List Item) (listId search : String) :
    (slotsOf items listId search).Perm
      (items.zipIdx.filter fun slot => (Query.parse search).admits listId slot.1) :=
  List.mergeSort_perm _ _

@[simp] theorem length_slotsOf (items : List Item) (listId search : String) :
    (slotsOf items listId search).length = (viewOf items listId search).length := by
  rw [← map_fst_slotsOf, List.length_map]

theorem nodup_map_snd_zipIdx (items : List Item) : (items.zipIdx.map Prod.snd).Nodup := by
  rw [List.zipIdx_map_snd]
  exact List.nodup_range'

theorem nodup_map_snd_slotsOf (items : List Item) (listId search : String) :
    ((slotsOf items listId search).map Prod.snd).Nodup := by
  refine ((slotsOf_perm items listId search).map Prod.snd).nodup_iff.mpr ?_
  exact (nodup_map_snd_zipIdx items).sublist (List.filter_sublist.map Prod.snd)

/-! ### Writing back -/

/-- What stands at a slot of storage after a view was written back. -/
def written (positions : List Nat) (view : List Item) (slot : Item × Nat) : Item :=
  ((positions.zip view).lookup slot.2).getD slot.1

theorem writeBack_eq_map (items : List Item) (positions : List Nat) (view : List Item) :
    writeBack items positions view = items.zipIdx.map (written positions view) := by
  rw [writeBack, List.mapIdx_eq_zipIdx_map]
  rfl

theorem lookup_zip_of_notMem {position : Nat} {positions : List Nat} (h : position ∉ positions)
    (view : List Item) : (positions.zip view).lookup position = none := by
  rw [List.lookup_eq_none_iff]
  intro pair hpair
  exact bne_iff_ne.mpr fun he => h (he ▸ (List.of_mem_zip hpair).1)

/-- At a position that is not part of the view the old item stays. -/
theorem written_of_notMem {positions : List Nat} {slot : Item × Nat} (h : slot.2 ∉ positions)
    (view : List Item) : written positions view slot = slot.1 := by
  rw [written, lookup_zip_of_notMem h, Option.getD_none]

/-- At the positions of the view the new items stand. -/
theorem map_written {slots : List (Item × Nat)} {view : List Item}
    (h : view.length = slots.length) (hn : (slots.map Prod.snd).Nodup) :
    slots.map (written (slots.map Prod.snd) view) = view := by
  induction slots generalizing view with
  | nil => exact (List.length_eq_zero_iff.mp h).symm
  | cons slot slots ih =>
    cases view with
    | nil => cases h
    | cons item view =>
      obtain ⟨hslot, hslots⟩ := List.nodup_cons.mp hn
      have hhead : written ((slot :: slots).map Prod.snd) (item :: view) slot = item := by
        simp [written]
      have htail : slots.map (written ((slot :: slots).map Prod.snd) (item :: view)) =
          slots.map (written (slots.map Prod.snd) view) := by
        apply List.map_congr_left
        intro other hother
        have hne : other.2 ≠ slot.2 := fun he =>
          hslot (he ▸ List.mem_map_of_mem hother)
        simp [written, List.lookup_cons, beq_false_of_ne hne]
      rw [List.map_cons, hhead, htail, ih (Nat.succ.inj h) hslots]

/-- The slots of storage are those of the view and those that are not in it. -/
theorem zipIdx_perm (items : List Item) (listId search : String) :
    items.zipIdx.Perm (slotsOf items listId search ++
      items.zipIdx.filter fun slot => !(Query.parse search).admits listId slot.1) :=
  ((List.filter_append_perm _ _).symm).trans
    ((slotsOf_perm items listId search).symm.append_right _)

/-- A position outside of the view holds an item that the search does not admit. -/
theorem snd_notMem_of_not_admits {items : List Item} {listId search : String}
    {slot : Item × Nat} (hmem : slot ∈ items.zipIdx)
    (h : (Query.parse search).admits listId slot.1 = false) :
    slot.2 ∉ (slotsOf items listId search).map Prod.snd := by
  intro hpos
  obtain ⟨other, hother, heq⟩ := List.mem_map.mp hpos
  rw [(slotsOf_perm items listId search).mem_iff, List.mem_filter] at hother
  have : other = slot := List.inj_on_of_nodup_map (nodup_map_snd_zipIdx items) hother.1 hmem heq
  rw [this, h] at hother
  cases hother.2

section WriteBack

variable {items view : List Item} {listId search : String}

/-- **Writing back keeps what the view did not hold**: up to order, the new storage is the new
view and the items outside of the old one. -/
theorem writeBack_perm (h : view.length = (viewOf items listId search).length) :
    (writeBack items ((slotsOf items listId search).map Prod.snd) view).Perm
      (view ++ items.filter fun item => !(Query.parse search).admits listId item) := by
  rw [← length_slotsOf] at h
  have hview := map_written h (nodup_map_snd_slotsOf items listId search)
  -- no slot outside of the view is written to
  have hrest : (items.zipIdx.filter fun slot => !(Query.parse search).admits listId slot.1).map
      (written ((slotsOf items listId search).map Prod.snd) view) =
        items.filter fun item => !(Query.parse search).admits listId item := by
    conv_rhs => rw [← List.zipIdx_map_fst 0 items, List.filter_map]
    apply List.map_congr_left
    intro slot hslot
    obtain ⟨hmem, hnot⟩ := List.mem_filter.mp hslot
    exact written_of_notMem (snd_notMem_of_not_admits hmem (by simpa using hnot)) view
  have hperm := (zipIdx_perm items listId search).map
    (written ((slotsOf items listId search).map Prod.snd) view)
  rw [List.map_append, hview, hrest] at hperm
  rw [writeBack_eq_map]
  exact hperm

/-- **Writing back is local**: in storage, only precedences change, and only those of items that
the search admits. -/
theorem forall₂_writeBack (h : List.Forall₂ Item.Reranked (viewOf items listId search) view) :
    List.Forall₂
      (fun a b => a.Reranked b ∧ ((Query.parse search).admits listId a = false → b = a))
      items (writeBack items ((slotsOf items listId search).map Prod.snd) view) := by
  have hlen : view.length = (slotsOf items listId search).length := by
    rw [length_slotsOf, h.length_eq]
  rw [← map_fst_slotsOf,
    ← map_written hlen (nodup_map_snd_slotsOf items listId search),
    List.forall₂_map_left_iff, List.forall₂_map_right_iff, List.forall₂_same] at h
  rw [writeBack_eq_map]
  conv_lhs => rw [← List.zipIdx_map_fst 0 items]
  rw [List.forall₂_map_left_iff, List.forall₂_map_right_iff, List.forall₂_same]
  intro slot hslot
  -- a slot of storage is one of the view, or it was not written to
  cases hadmits : (Query.parse search).admits listId slot.1 with
  | true =>
    have hmem : slot ∈ slotsOf items listId search := by
      rw [(slotsOf_perm items listId search).mem_iff, List.mem_filter]
      exact ⟨hslot, hadmits⟩
    exact ⟨h slot hmem, fun hf => by cases hf⟩
  | false =>
    rw [written_of_notMem (snd_notMem_of_not_admits hslot hadmits)]
    exact ⟨Item.Reranked.refl slot.1, fun _ => rfl⟩

/-- Writing a view back as it is changes nothing. -/
theorem writeBack_self (items : List Item) (listId search : String) :
    writeBack items ((slotsOf items listId search).map Prod.snd) (viewOf items listId search) =
      items := by
  have hview := map_written (length_slotsOf items listId search).symm
    (nodup_map_snd_slotsOf items listId search)
  rw [← map_fst_slotsOf, List.map_inj_left] at hview
  rw [writeBack_eq_map, ← map_fst_slotsOf]
  conv_rhs => rw [← List.zipIdx_map_fst 0 items]
  refine List.map_congr_left fun slot hslot => ?_
  cases hadmits : (Query.parse search).admits listId slot.1 with
  | true =>
    refine hview slot ?_
    rw [(slotsOf_perm items listId search).mem_iff, List.mem_filter]
    exact ⟨hslot, hadmits⟩
  | false => exact written_of_notMem (snd_notMem_of_not_admits hslot hadmits) _

theorem reranked_writeBack (h : List.Forall₂ Item.Reranked (viewOf items listId search) view) :
    List.Forall₂ Item.Reranked items
      (writeBack items ((slotsOf items listId search).map Prod.snd) view) :=
  (forall₂_writeBack h).imp fun _ _ hab => hab.1

theorem map_id_writeBack (h : List.Forall₂ Item.Reranked (viewOf items listId search) view) :
    (writeBack items ((slotsOf items listId search).map Prod.snd) view).map Item.id =
      items.map Item.id :=
  map_id_of_reranked (reranked_writeBack h)

theorem listId_of_mem_reranked
    (h : List.Forall₂ Item.Reranked (viewOf items listId search) view) {item : Item}
    (hitem : item ∈ view) : item.listId = listId := by
  obtain ⟨old, hold, hab⟩ := exists_reranked_of_mem h hitem
  exact hab.listId_eq.trans (listId_of_admits (mem_viewOf.mp hold).2)

/-- Other lists are not touched. -/
theorem filter_writeBack_of_ne
    (h : List.Forall₂ Item.Reranked (viewOf items listId search) view) {other : String}
    (hne : other ≠ listId) :
    (writeBack items ((slotsOf items listId search).map Prod.snd) view).filter
        (fun item => item.listId = other) =
      items.filter fun item => item.listId = other := by
  -- storage changes pointwise, and items of other lists are not admitted
  have hlocal := forall₂_writeBack h
  generalize writeBack items ((slotsOf items listId search).map Prod.snd) view = stored at hlocal
  clear h
  induction hlocal with
  | nil => rfl
  | @cons a b _ _ hab _ ih =>
    rw [List.filter_cons, List.filter_cons, ih, hab.1.listId_eq]
    split
    · next hother =>
      have hnot : (Query.parse search).admits listId a = false := by
        rw [← Bool.not_eq_true]
        intro hadmits
        exact hne ((of_decide_eq_true hother).symm.trans (listId_of_admits hadmits))
      rw [hab.2 hnot]
    · rfl

/-- A list that was written back as a whole is the new view, up to order. -/
theorem filter_writeBack_self
    (h : List.Forall₂ Item.Reranked (viewOf items listId search) view) (hblank : Blank search) :
    ((writeBack items ((slotsOf items listId search).map Prod.snd) view).filter
      fun item => item.listId = listId).Perm view := by
  have hview : view.filter (fun item => item.listId = listId) = view := by
    rw [List.filter_eq_self]
    exact fun item hitem => decide_eq_true (listId_of_mem_reranked h hitem)
  have hrest : (items.filter fun item => !(Query.parse search).admits listId item).filter
      (fun item => item.listId = listId) = [] := by
    rw [List.filter_filter, List.filter_eq_nil_iff]
    intro item _
    simp [admits_of_blank hblank]
  have hperm := (writeBack_perm h.length_eq.symm).filter fun item => item.listId = listId
  rw [List.filter_append, hview, hrest, List.append_nil] at hperm
  exact hperm

end WriteBack

end Agenda

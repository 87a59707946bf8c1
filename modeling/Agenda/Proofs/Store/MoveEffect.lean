/-
Agenda/Proofs/Store/MoveEffect.lean

What a move does, and what it leaves alone.  The move works on a selection of
the items, sorted and filtered, whose precedences it writes back to wherever
the items are stored.  Two facts bring the result back to the view:

* the filter does not look at precedences (`admits_of_reranked`), so the view
  shows the same items when it is taken again, and it is the written view in
  display order (`viewOf_writeBack`);
* in storage, every item is what the written view says of its id, or itself
  (`writeBack_eq_map_within`).

`MovesOnly` puts together what can be seen of a move, and `moveItem_effect`
says that every move that succeeds is one.
-/
import Agenda.Proofs.Order.Landing
import Agenda.Proofs.Order.Range
import Agenda.Proofs.Store.FilteredMove
import Agenda.Proofs.Store.Step

namespace Agenda

open Search

/-! ### Lists, element by element -/

section Forall₂

variable {α β : Type} {R : α → β → Prop} {l : List α} {l' : List β}

theorem forall₂_eraseIdx (h : List.Forall₂ R l l') (i : Nat) :
    List.Forall₂ R (l.eraseIdx i) (l'.eraseIdx i) := by
  induction h generalizing i with
  | nil => exact .nil
  | cons hab hrest ih =>
    cases i with
    | zero => exact hrest
    | succ i => exact .cons hab (ih i)

theorem forall₂_insertIdx (h : List.Forall₂ R l l') {a : α} {b : β} (hab : R a b) (i : Nat) :
    List.Forall₂ R (l.insertIdx i a) (l'.insertIdx i b) := by
  induction h generalizing i with
  | nil =>
    cases i with
    | zero => exact .cons hab .nil
    | succ i => exact .nil
  | cons hcd hrest ih =>
    cases i with
    | zero => exact .cons hab (.cons hcd hrest)
    | succ i => exact .cons hcd (ih i)

end Forall₂

/-! ### The view taken again -/

/-- A search does not look at precedences. -/
theorem admits_of_reranked {a b : Item} (h : a.Reranked b) (query : Query) (listId : String) :
    query.admits listId b = query.admits listId a := by
  rw [h]
  rfl

section View

variable {items view : List Item} {listId search : String}

/-- What is admitted after a view was written back is the view that was written. -/
theorem filter_admits_writeBack
    (h : List.Forall₂ Item.Reranked (viewOf items listId search) view) :
    ((writeBack items ((slotsOf items listId search).map Prod.snd) view).filter
      ((Query.parse search).admits listId)).Perm view := by
  have hview : view.filter ((Query.parse search).admits listId) = view := by
    rw [List.filter_eq_self]
    intro item hitem
    obtain ⟨old, hold, hab⟩ := exists_reranked_of_mem h hitem
    rw [admits_of_reranked hab]
    exact (mem_viewOf.mp hold).2
  have hrest : (items.filter fun item => !(Query.parse search).admits listId item).filter
      ((Query.parse search).admits listId) = [] := by
    rw [List.filter_filter, List.filter_eq_nil_iff]
    intro item _
    simp
  have hperm := (writeBack_perm h.length_eq.symm).filter ((Query.parse search).admits listId)
  rw [List.filter_append, hview, hrest, List.append_nil] at hperm
  exact hperm

/-- **The view taken again** is the view that was written, in display order. -/
theorem viewOf_writeBack (hd : DistinctIds items)
    (h : List.Forall₂ Item.Reranked (viewOf items listId search) view) :
    viewOf (writeBack items ((slotsOf items listId search).map Prod.snd) view) listId search =
      sortItems view := by
  have hdistinct : DistinctIds view := (hd.viewOf listId search).of_reranked h
  have hperm := filter_admits_writeBack h
  exact sortItems_eq_of_perm (hdistinct.perm hperm) (hperm.trans (sortItems_perm view).symm)
    (inOrder_sortItems view)

/-- An item that the view still has as it was is not changed in storage. -/
theorem within_of_mem (hd : DistinctIds view) {item : Item} (h : item ∈ view) :
    item.within view = item := by
  rw [Item.within, hd.find?_eq h, Option.getD_some]

end View

/-! ### Moves -/

namespace Store

variable {store store' : Store} {listId search id : String} {target : Nat} {placement : Placement}

/-- A move that leaves an item in its place changes nothing. -/
theorem eq_of_moveItem_unchanged
    (h : store.moveItem listId search id target = .ok (store', .unchanged)) : store' = store := by
  obtain ⟨view, hview, rfl⟩ := moveItem_eq_ok h
  obtain ⟨_, _, -, -, -, ⟨-, -, rfl⟩ | ⟨-, hplaced, -⟩⟩ := store.spacing.reorder_cases hview
  · rw [Store.view, writeBack_self]
  · cases hplaced

theorem length_view_le_counts (store : Store) (listId search : String) :
    (store.view listId search).length ≤ (store.counts listId).1 := by
  rw [view, viewOf, (sortItems_perm _).length_eq, counts]
  refine (List.monotone_filter_right store.items fun item hadmits => ?_).length_le
  exact decide_eq_true (listId_of_admits hadmits)

/-- What can be seen of a move of `item` to `index` in the view of a list, with the result
`placement`. -/
structure MovesOnly (store : Store) (listId search : String) (item : Item) (index : Nat)
    (placement : Placement) (store' : Store) : Prop where
  /-- The view shows the same items, the moved one taken out and put to its index. -/
  view : List.Forall₂ Item.Reranked (((store.view listId search).erase item).insertIdx index item)
    (store'.view listId search)
  /-- All items are stored where they were.  At most their precedence differs, and that only of
  items in the view. -/
  items : List.Forall₂ (fun a b => a.Reranked b ∧ (a ∉ store.view listId search → b = a))
    store.items store'.items
  /-- Lists, the time of the last save and the spacing are as they were. -/
  rest : store' = { store with items := store'.items }
  /-- The result is `unchanged` exactly if the item stood at its index. -/
  unchanged_iff : placement = .unchanged ↔ (store.view listId search)[index]? = some item
  /-- Then there is no other store than before. -/
  unchanged : placement = .unchanged → store' = store
  /-- Without a renumber pass only the moved item is written to. -/
  gap : placement.renumbered = false →
    List.Forall₂ (fun a b => a.id ≠ item.id → b = a) store.items store'.items

/-- In storage nothing but precedences changes, and those only of items in the view. -/
theorem forall₂_items_moveItem (hd : DistinctIds store.items)
    (h : store.moveItem listId search id target = .ok (store', placement)) :
    List.Forall₂ (fun a b => a.Reranked b ∧ (a ∉ store.view listId search → b = a))
      store.items store'.items := by
  obtain ⟨view', hview, rfl⟩ := moveItem_eq_ok h
  have hreranked := store.spacing.reranked_of_reorder hview
  rw [writeBack_eq_map_within hd hreranked, List.forall₂_map_right_iff, List.forall₂_same]
  refine fun item hitem => ⟨reranked_within hd hreranked hitem, fun hhidden => ?_⟩
  refine within_of_not_admits hd hreranked hitem ?_
  rw [← Bool.not_eq_true]
  exact fun hadmits => hhidden (mem_viewOf.mpr ⟨hitem, hadmits⟩)

/-- A move that finds a gap writes to the moved item only. -/
theorem forall₂_items_of_gap (hd : DistinctIds store.items)
    (h : store.moveItem listId search id target = .ok (store', placement))
    (hgap : placement.renumbered = false) :
    List.Forall₂ (fun a b => a.id ≠ id → b = a) store.items store'.items := by
  have hitems := forall₂_items_moveItem hd h
  obtain ⟨view', hview, rfl⟩ := moveItem_eq_ok h
  have hreranked := store.spacing.reranked_of_reorder hview
  have hdview : DistinctIds (store.view listId search) := hd.viewOf listId search
  rw [writeBack_eq_map_within hd hreranked, List.forall₂_map_right_iff,
    List.forall₂_same] at hitems ⊢
  intro item hitem hne
  by_cases hshown : item ∈ store.view listId search
  · have hkept := store.spacing.moved_mem_of_reorder hdview hview hshown hne
    rw [Spacing.moved, hgap, if_neg Bool.false_ne_true] at hkept
    exact within_of_mem (hdview.of_reranked hreranked) hkept
  · exact (hitems item hitem).2 hshown

/-- The view after a move, by the slots of the view before. -/
theorem view_moveItem (hd : DistinctIds store.items)
    (hroom : ((store.counts listId).1 + 2 : Int) * store.spacing.step ≤ maxPrecedence)
    (h : store.moveItem listId search id target = .ok (store', placement)) {origin : Nat}
    {item : Item} (hfind : (store.view listId search).findIdx? (fun a => a.id = id) = some origin)
    (hitem : (store.view listId search)[origin]? = some item) :
    List.Forall₂ Item.Reranked (((store.view listId search).eraseIdx origin).insertIdx
        (min target ((store.view listId search).length - 1)) item)
      (store'.view listId search) := by
  obtain ⟨view', hview, hstore⟩ := moveItem_eq_ok h
  have hreranked := store.spacing.reranked_of_reorder hview
  have hafter : store'.view listId search = sortItems view' := by
    rw [hstore]
    exact viewOf_writeBack hd hreranked
  have hfits : ((store.view listId search).length + 2) * store.spacing.step ≤ maxPrecedence :=
    store.spacing.mul_step_le (store.length_view_le_counts listId search) hroom
  have hs : InOrder (store.view listId search) := inOrder_viewOf _ _ _
  obtain ⟨moved, -, hmoved, hsorted⟩ := store.spacing.sortItems_of_reorder hs hfits hview
  rw [idxOf_id_eq hfind] at hmoved hsorted
  -- the slot of the item holds what the item has become
  obtain ⟨hlt, rfl⟩ := List.getElem?_eq_some_iff.mp hitem
  obtain ⟨hlt', rfl⟩ := List.getElem?_eq_some_iff.mp hmoved
  rw [hafter, hsorted]
  exact forall₂_insertIdx (forall₂_eraseIdx hreranked origin) (hreranked.get hlt hlt') _

/-- **A move does what is asked for and nothing else.**  The item is in the view, and there it comes
to stand where it is asked to, or at the end; nothing but precedences is written, and only in the
view. -/
theorem moveItem_effect (hd : DistinctIds store.items)
    (hroom : ((store.counts listId).1 + 2 : Int) * store.spacing.step ≤ maxPrecedence)
    (h : store.moveItem listId search id target = .ok (store', placement)) :
    ∃ item ∈ store.view listId search, item.id = id ∧
      store.MovesOnly listId search item (min target ((store.view listId search).length - 1))
        placement store' := by
  have hdview : DistinctIds (store.view listId search) := hd.viewOf listId search
  obtain ⟨view', hview, hstore⟩ := moveItem_eq_ok h
  obtain ⟨origin, item, hfind, hitem, hid, hcases⟩ := store.spacing.reorder_cases hview
  obtain ⟨hlt, hget⟩ := List.getElem?_eq_some_iff.mp hitem
  have hmem : item ∈ store.view listId search := List.mem_of_getElem? hitem
  have hslot : (store.view listId search)[min target ((store.view listId search).length - 1)]? =
      some item ↔ origin = min target ((store.view listId search).length - 1) := by
    refine ⟨fun hthere => ?_, fun hsame => hsame ▸ hitem⟩
    exact Option.some.inj ((hdview.findIdx?_eq hitem).symm.trans (hdview.findIdx?_eq hthere))
  refine ⟨item, hmem, hid, ?_, forall₂_items_moveItem hd h, ?_, ?_, ?_, ?_⟩
  · have herase : (store.view listId search).erase item =
        (store.view listId search).eraseIdx origin := by
      rw [← hget]
      exact (List.Nodup.of_map _ hdview).erase_getElem origin hlt
    rw [herase]
    exact view_moveItem hd hroom h hfind hitem
  · rw [hstore]
  · rw [hslot]
    rcases hcases with ⟨hstays, rfl, -⟩ | ⟨hne, rfl, -⟩
    · exact iff_of_true rfl hstays
    · exact iff_of_false nofun fun hsame => hne (congrArg some hsame)
  · rintro rfl
    exact eq_of_moveItem_unchanged h
  · rw [hid]
    exact forall₂_items_of_gap hd h

/-- A chore that the search hides stays where it is stored, while the errands around it are
renumbered. -/
theorem moveItem_effect_errands :
    ∃ store', DistinctIds errands.items ∧
      ((errands.counts inboxId).1 + 2 : Int) * errands.spacing.step ≤ maxPrecedence ∧
      errands.moveItem inboxId "errand" "c" 0 = .ok (store', .placed 16 true) ∧
      ∃ item ∈ errands.view inboxId "errand", item.id = "c" ∧
        errands.MovesOnly inboxId "errand" item 0 (.placed 16 true) store' := by
  have hd : DistinctIds errands.items := by decide
  have hroom : ((errands.counts inboxId).1 + 2 : Int) * errands.spacing.step ≤ maxPrecedence := by
    decide
  have heffect := moveItem_effect hd hroom moveItem_errands
  rw [Nat.zero_min] at heffect
  exact ⟨_, hd, hroom, moveItem_errands, heffect⟩

end Store

end Agenda

/-
Agenda/Proofs/Store/FilteredMove.lean

Moving an item inside of search results.  The move sees the *shown* items only.
As long as it finds a gap it changes one precedence, and then the rest of the
list keeps its order, shown or hidden.  A renumber pass, however, gives new
precedences to the shown items while the hidden ones keep theirs, and a shown
item may jump over a hidden one:

    a 1, h 2 (hidden), c 3      move c to the front      h 2, c 16, a 32

`renumbered` says in closed form where the pass puts an item, and
`moveItem_keeps_order_iff` when the rest of the list survives it: exactly when
every shown item stays on its side of every other item.
-/
import Agenda.Proofs.Store.Operation

namespace Agenda

open Search

/-! ### Standing before -/

/-- The id `x` stands before the id `y`. -/
def StandsBefore (ids : List String) (x y : String) : Prop :=
  [x, y].Sublist ids

/-- But for `id`, whatever stands before something else in one list does so in the other. -/
def SameOrderBut (id : String) (ids ids' : List String) : Prop :=
  ∀ x y, x ≠ id → y ≠ id → (StandsBefore ids' x y ↔ StandsBefore ids x y)

theorem pair_sublist_or {α : Type} {l : List α} {a b : α} (ha : a ∈ l) (hb : b ∈ l)
    (hne : a ≠ b) : [a, b].Sublist l ∨ [b, a].Sublist l := by
  obtain ⟨s, t, rfl⟩ := List.append_of_mem ha
  rcases List.mem_append.mp hb with hb | hb
  · refine .inr ?_
    exact (List.singleton_sublist.mpr hb).append
      (List.singleton_sublist.mpr List.mem_cons_self)
  · have hb : b ∈ t := (List.mem_cons.mp hb).resolve_left (Ne.symm hne)
    refine .inl (List.Sublist.trans ?_ (List.sublist_append_right s (a :: t)))
    exact (List.singleton_sublist.mpr hb).cons_cons a

/-- In an ordered view, standing before is preceding. -/
theorem standsBefore_iff {view : List Item} (hs : InOrder view) (hd : DistinctIds view)
    {a b : Item} (ha : a ∈ view) (hb : b ∈ view) (hne : a.id ≠ b.id) :
    StandsBefore (view.map Item.id) a.id b.id ↔ a.precedes b := by
  -- ids are in the order of their items, and each id has one item
  have hids : (view.map Item.id).Pairwise fun x y => ∀ a ∈ view, ∀ b ∈ view, a.id = x → b.id = y →
      a.precedes b := by
    rw [List.pairwise_map]
    refine hs.imp_of_mem fun {c d} hc hd' hcd a ha b hb hac hbd => ?_
    rw [hd.eq_of_id_eq ha hc hac, hd.eq_of_id_eq hb hd' hbd]
    exact hcd
  constructor
  · intro hsub
    exact List.pairwise_pair.mp (hids.sublist hsub) a ha b hb rfl rfl
  · intro hab
    have hmem := fun {c : Item} (hc : c ∈ view) => List.mem_map_of_mem (f := Item.id) hc
    rcases pair_sublist_or (hmem ha) (hmem hb) hne with hsub | hsub
    · exact hsub
    · have hba := List.pairwise_pair.mp (hids.sublist hsub) b hb a ha rfl rfl
      exact absurd hba ((Item.precedes_iff_not hne).mp hab)

/-- Two ordered views with the same ids agree on the order of all but one of them if their items
agree on preceding. -/
theorem sameOrderBut_iff {view view' : List Item} {id : String} {f : Item → Item}
    (hs : InOrder view) (hd : DistinctIds view) (hs' : InOrder view') (hd' : DistinctIds view')
    (hids : (view'.map Item.id).Perm (view.map Item.id))
    (hf : ∀ a ∈ view, a.id ≠ id → f a ∈ view') (hfid : ∀ a, (f a).id = a.id) :
    SameOrderBut id (view.map Item.id) (view'.map Item.id) ↔
      ∀ a ∈ view, ∀ b ∈ view, a.id ≠ id → b.id ≠ id →
        ((f a).precedes (f b) ↔ a.precedes b) := by
  have hafter : ∀ a ∈ view, ∀ b ∈ view, a.id ≠ id → b.id ≠ id → a.id ≠ b.id →
      (StandsBefore (view'.map Item.id) a.id b.id ↔ (f a).precedes (f b)) := by
    intro a ha b hb hia hib hab
    have hiff := standsBefore_iff hs' hd' (hf a ha hia) (hf b hb hib) (by rwa [hfid, hfid])
    rwa [hfid, hfid] at hiff
  constructor
  · intro hsame a ha b hb hia hib
    by_cases hab : a.id = b.id
    · rw [hd.eq_of_id_eq ha hb hab]
      exact iff_of_true (Item.precedes_refl _) (Item.precedes_refl _)
    · rw [← hafter a ha b hb hia hib hab, ← standsBefore_iff hs hd ha hb hab]
      exact hsame a.id b.id hia hib
  · intro hall x y hx hy
    -- ids that stand one before the other are the ids of two items
    have hitems : ∀ {ids : List String}, ids.Perm (view.map Item.id) → StandsBefore ids x y →
        (StandsBefore (view'.map Item.id) x y ↔ StandsBefore (view.map Item.id) x y) := by
      intro ids hperm hxy
      obtain ⟨a, ha, rfl⟩ := List.mem_map.mp (hperm.subset (hxy.subset List.mem_cons_self))
      obtain ⟨b, hb, rfl⟩ := List.mem_map.mp
        (hperm.subset (hxy.subset (List.mem_cons_of_mem _ List.mem_cons_self)))
      have hpair : [a.id, b.id].Nodup := (hperm.nodup_iff.mpr hd).sublist hxy
      have hab : a.id ≠ b.id := fun he => by simp [he] at hpair
      rw [hafter a ha b hb hx hy hab, standsBefore_iff hs hd ha hb hab]
      exact hall a ha b hb hx hy
    exact ⟨fun h => (hitems hids h).mp h, fun h => (hitems (List.Perm.refl _) h).mpr h⟩

/-! ### What a move does to the others -/

/-- The item as the renumber pass of a move leaves it: the `slot`-th of the shown items gets the
value of its slot, items that are not shown stay. -/
def Spacing.renumbered (spacing : Spacing) (shown : List Item) (id : String) (target : Nat)
    (item : Item) : Item :=
  match shown.findIdx? fun other => other.id = item.id with
  | none => item
  | some slot =>
    let origin := shown.findIdx? fun other => other.id = id
    let rank := spacing.slotRank (slotBefore origin (min target (shown.length - 1))) slot
    { item with precedence := saturate rank }

namespace Spacing

variable (spacing : Spacing)

theorem reranked_renumbered (shown : List Item) (id : String) (target : Nat) (item : Item) :
    item.Reranked (spacing.renumbered shown id target item) := by
  rw [renumbered]
  split
  · exact Item.Reranked.refl item
  · rfl

@[simp] theorem id_renumbered (shown : List Item) (id : String) (target : Nat) (item : Item) :
    (spacing.renumbered shown id target item).id = item.id :=
  (spacing.reranked_renumbered shown id target item).id_eq

/-- Items with different ids stand one way or the other after the pass. -/
theorem renumbered_precedes_iff_not (shown : List Item) (id : String) (target : Nat) {a b : Item}
    (h : a.id ≠ b.id) :
    (spacing.renumbered shown id target a).precedes (spacing.renumbered shown id target b) ↔
      ¬ (spacing.renumbered shown id target b).precedes
        (spacing.renumbered shown id target a) :=
  Item.precedes_iff_not (by rwa [id_renumbered, id_renumbered])

theorem renumbered_of_getElem? {shown : List Item} (hd : DistinctIds shown) {i : Nat} {item : Item}
    (h : shown[i]? = some item) (id : String) (target : Nat) :
    spacing.renumbered shown id target item = { item with
      precedence := saturate (spacing.slotRank (slotBefore
        (shown.findIdx? fun other => other.id = id) (min target (shown.length - 1))) i) } := by
  rw [renumbered, hd.findIdx?_eq h]

theorem renumbered_of_notMem {shown : List Item} {item : Item}
    (h : item.id ∉ shown.map Item.id) (id : String) (target : Nat) :
    spacing.renumbered shown id target item = item := by
  have hnone : (shown.findIdx? fun other => other.id = item.id) = none := by
    rw [List.findIdx?_eq_none_iff]
    intro other hother
    have hne : other.id ≠ item.id := fun he => h (List.mem_map.mpr ⟨other, hother, he⟩)
    simpa using hne
  rw [renumbered, hnone]

/-- The item as a move leaves it, if it is not the one that is moved. -/
def moved (shown : List Item) (id : String) (target : Nat) (placement : Placement)
    (item : Item) : Item :=
  if placement.renumbered then spacing.renumbered shown id target item else item

/-- **What a move does to the others**: nothing, or a renumber pass. -/
theorem moved_mem_of_reorder {view view' : List Item} {id : String} {target : Nat}
    {placement : Placement} (hd : DistinctIds view)
    (h : spacing.reorder view id target = some (placement, view')) {item : Item}
    (hitem : item ∈ view) (hne : item.id ≠ id) :
    spacing.moved view id target placement item ∈ view' := by
  obtain ⟨origin, found, hfind, hget, hid, ⟨-, rfl, rfl⟩ | ⟨hmoves, rfl, rfl⟩⟩ :=
    spacing.reorder_cases h
  · exact hitem
  · obtain ⟨i, hi⟩ := List.mem_iff_getElem?.mp hitem
    have hio : origin ≠ i := by
      rintro rfl
      rw [hget] at hi
      exact hne (Option.some.inj hi ▸ hid)
    have hrank : (view.map Item.precedence)[i]? = some item.precedence := by
      rw [List.getElem?_map, hi, Option.map_some]
    have hroom := spacing.getElem?_roomAt_ranks hmoves (view.map Item.precedence) (i := i)
      (fun he => hio (Option.some.inj he))
    rw [hrank, Option.map_some] at hroom
    generalize spacing.roomAt (view.map Item.precedence) (some origin)
      (min target (view.length - 1)) = room at hroom ⊢
    -- the slot of the item is not the one that the moved item was written to
    apply List.mem_of_getElem? (i := i)
    rw [List.getElem?_set_ne hio, withRanks, List.getElem?_zipWith, hi, hroom, moved,
      Placement.renumbered]
    cases room.renumbered with
    | true => simp only [if_true, spacing.renumbered_of_getElem? hd hi, hfind]
    | false => rfl

theorem reranked_moved (shown : List Item) (id : String) (target : Nat) (placement : Placement)
    (item : Item) : item.Reranked (spacing.moved shown id target placement item) := by
  rw [moved]
  split
  · exact spacing.reranked_renumbered shown id target item
  · exact Item.Reranked.refl item

theorem moved_of_notMem {shown : List Item} {item : Item} (h : item.id ∉ shown.map Item.id)
    (id : String) (target : Nat) (placement : Placement) :
    spacing.moved shown id target placement item = item := by
  rw [moved, spacing.renumbered_of_notMem h, ite_self]

end Spacing

/-! ### The whole list -/

namespace Store

variable {store store' : Store} {listId search id : String} {target : Nat}
  {placement : Placement}

theorem mem_view_empty {item : Item} :
    item ∈ store.view listId "" ↔ item ∈ store.items ∧ item.listId = listId :=
  mem_viewOf_of_blank blank_empty

theorem map_id_view_perm (h : List.Forall₂ Item.Reranked store.items store'.items)
    (listId : String) :
    ((store'.view listId "").map Item.id).Perm ((store.view listId "").map Item.id) := by
  rw [view, view, viewOf_of_blank blank_empty, viewOf_of_blank blank_empty]
  refine ((sortItems_perm _).map Item.id).trans ?_
  rw [map_id_filter_of_reranked h]
  exact ((sortItems_perm _).map Item.id).symm

theorem mem_view_empty_of_mem_view {item : Item} (h : item ∈ store.view listId search) :
    item ∈ store.view listId "" := by
  obtain ⟨hmem, hadmits⟩ := mem_viewOf.mp h
  exact mem_view_empty.mpr ⟨hmem, listId_of_admits hadmits⟩

/-- Hidden items have hidden ids. -/
theorem id_notMem_map_view (hd : DistinctIds store.items) {item : Item} (hmem : item ∈ store.items)
    (h : item ∉ store.view listId search) : item.id ∉ (store.view listId search).map Item.id := by
  intro hid
  obtain ⟨other, hother, hid⟩ := List.mem_map.mp hid
  exact h (hd.eq_of_id_eq (mem_viewOf.mp hother).1 hmem hid ▸ hother)

/-- After a move, the other items of the list are there as the move left them. -/
theorem moved_mem_view (hd : DistinctIds store.items)
    (h : store.moveItem listId search id target = .ok (store', placement)) {item : Item}
    (hitem : item ∈ store.view listId "") (hne : item.id ≠ id) :
    store.spacing.moved (store.view listId search) id target placement item ∈
      store'.view listId "" := by
  obtain ⟨view', hview, rfl⟩ := moveItem_eq_ok h
  have hreranked := store.spacing.reranked_of_reorder hview
  have hstored := writeBack_perm hreranked.length_eq.symm
  obtain ⟨hmem, hlist⟩ := mem_view_empty.mp hitem
  rw [mem_view_empty]
  refine ⟨hstored.mem_iff.mpr ?_,
    (store.spacing.reranked_moved _ id target placement item).listId_eq.trans hlist⟩
  -- shown items come from the new view, hidden ones were not written to
  by_cases hshown : item ∈ store.view listId search
  · exact List.mem_append_left _
      (store.spacing.moved_mem_of_reorder (hd.viewOf listId search) hview hshown hne)
  · have hhidden : (Query.parse search).admits listId item = false := by
      rw [← Bool.not_eq_true]
      exact fun hadmits => hshown (mem_viewOf.mpr ⟨hmem, hadmits⟩)
    rw [store.spacing.moved_of_notMem (id_notMem_map_view hd hmem hshown)]
    exact List.mem_append_right _ (List.mem_filter.mpr ⟨hmem, by rw [hhidden]; rfl⟩)

/-- **When a filtered move keeps the rest of the list in order**: if it makes no renumber pass,
or if in the pass every shown item stays on its side of every other item. -/
theorem moveItem_keeps_order_iff (hd : DistinctIds store.items)
    (h : store.moveItem listId search id target = .ok (store', placement)) :
    SameOrderBut id ((store.view listId "").map Item.id)
        ((store'.view listId "").map Item.id) ↔
      placement.renumbered = false ∨
        ∀ a ∈ store.view listId search, ∀ b ∈ store.view listId "", a.id ≠ id → b.id ≠ id →
          ((store.spacing.renumbered (store.view listId search) id target a).precedes
              (store.spacing.renumbered (store.view listId search) id target b) ↔
            a.precedes b) := by
  have hstored : List.Forall₂ Item.Reranked store.items store'.items := by
    obtain ⟨view', hview, rfl⟩ := moveItem_eq_ok h
    exact reranked_writeBack (store.spacing.reranked_of_reorder hview)
  have hd' : DistinctIds store'.items := by
    rw [DistinctIds, map_id_of_reranked hstored]
    exact hd
  have hs : InOrder (store.view listId "") := inOrder_viewOf _ _ _
  have hs' : InOrder (store'.view listId "") := inOrder_viewOf _ _ _
  have hvd : DistinctIds (store.view listId "") := hd.viewOf listId ""
  rw [sameOrderBut_iff hs hvd hs' (hd'.viewOf listId "") (map_id_view_perm hstored listId)
    (fun _ hitem hne => moved_mem_view hd h hitem hne)
    (fun item => (store.spacing.reranked_moved _ id target placement item).id_eq)]
  cases hrenumbered : placement.renumbered with
  | false => simp [Spacing.moved, hrenumbered]
  | true =>
    simp only [Spacing.moved, hrenumbered, if_true, Bool.true_eq_false, false_or]
    -- only the shown items are renumbered, so it is enough to look from them
    refine ⟨fun hall a ha => hall a (mem_view_empty_of_mem_view ha), ?_⟩
    intro hall a ha b hb hia hib
    by_cases hsa : a ∈ store.view listId search
    · exact hall a hsa b hb hia hib
    by_cases hsb : b ∈ store.view listId search
    · have hne : a.id ≠ b.id := fun he => hsa (hvd.eq_of_id_eq ha hb he ▸ hsb)
      rw [Item.precedes_iff_not hne, store.spacing.renumbered_precedes_iff_not _ id target hne,
        hall b hsb a ha hib hia]
    · rw [store.spacing.renumbered_of_notMem
          (id_notMem_map_view hd (mem_view_empty.mp ha).1 hsa),
        store.spacing.renumbered_of_notMem
          (id_notMem_map_view hd (mem_view_empty.mp hb).1 hsb)]

/-- Two errands with a chore between them. -/
def errands : Store where
  lists := [TodoList.inbox]
  items := [{ id := "a", listId := inboxId, summary := "errand", precedence := 1 },
    { id := "h", listId := inboxId, summary := "chore", precedence := 2 },
    { id := "c", listId := inboxId, summary := "errand", precedence := 3 }]

theorem slotsOf_errands : slotsOf errands.items inboxId "errand" =
    [(⟨"a", inboxId, "errand", false, 1⟩, 0), (⟨"c", inboxId, "errand", false, 3⟩, 2)] := by
  rw [slotsOf, List.mergeSort_of_pairwise (by decide +kernel)]
  decide +kernel

/-- The errands are renumbered, and the chore is not. -/
theorem moveItem_errands :
    errands.moveItem inboxId "errand" "c" 0 = .ok ({ errands with
      items := [{ id := "a", listId := inboxId, summary := "errand", precedence := 32 },
        { id := "h", listId := inboxId, summary := "chore", precedence := 2 },
        { id := "c", listId := inboxId, summary := "errand", precedence := 16 }] },
      .placed 16 true) := by
  rw [moveItem, slotsOf_errands]
  decide +kernel

/-- Moving the second errand to the front puts the chore before the first one. -/
theorem moveItem_keeps_order_iff_errands :
    ∃ store', DistinctIds errands.items ∧
      errands.moveItem inboxId "errand" "c" 0 = .ok (store', .placed 16 true) ∧
      ¬ SameOrderBut "c" ((errands.view inboxId "").map Item.id)
        ((store'.view inboxId "").map Item.id) := by
  have hd : DistinctIds errands.items := by decide
  refine ⟨_, hd, moveItem_errands, fun hsame => ?_⟩
  rcases (moveItem_keeps_order_iff hd moveItem_errands).mp hsame with hf | hall
  · cases hf
  · have ha : (⟨"a", inboxId, "errand", false, 1⟩ : Item) ∈ errands.view inboxId "errand" :=
      mem_viewOf.mpr ⟨by decide, by decide +kernel⟩
    have hh : (⟨"h", inboxId, "chore", false, 2⟩ : Item) ∈ errands.view inboxId "" :=
      mem_viewOf.mpr ⟨by decide, by decide +kernel⟩
    have hjump := (hall _ ha _ hh (by decide) (by decide)).mpr (by decide)
    have hbehind : (errands.spacing.renumbered (errands.view inboxId "errand") "c" 0
        ⟨"a", inboxId, "errand", false, 1⟩).precedes (errands.spacing.renumbered
          (errands.view inboxId "errand") "c" 0 ⟨"h", inboxId, "chore", false, 2⟩) = false := by
      rw [view, ← map_fst_slotsOf, slotsOf_errands]
      decide +kernel
    rw [hbehind] at hjump
    cases hjump

end Store

end Agenda

/-
Agenda/Proofs/Store/Storage.lean

What the actions do to the items in storage.  Actions that change, remove or
place one item are written with the first item of an id in mind; where ids are
distinct they are plain maps and filters (`updateFirst_eq_map`,
`eraseP_eq_filter`), and so they commute with taking a view.

Ids stay distinct as long as new ones are fresh (`distinctIds_step`).
-/
import Agenda.Proofs.Store.Operation

namespace Agenda

open Search

/-! ### Changing and removing one item -/

/-- What decides where an item stands: its id, its list and its precedence. -/
def Item.SameKey (a b : Item) : Prop :=
  b.id = a.id ∧ b.listId = a.listId ∧ b.precedence = a.precedence

namespace Store

theorem map_updateFirst {α : Type} {id : String} {f : Item → Item} (g : Item → α)
    (hg : ∀ item, g (f item) = g item) (items : List Item) :
    (updateFirst id f items).map g = items.map g := by
  induction items with
  | nil => rfl
  | cons item items ih =>
    rw [updateFirst]
    split
    · rw [List.map_cons, List.map_cons, hg]
    · rw [List.map_cons, List.map_cons, ih]

theorem updateFirst_of_forall_ne {id : String} {f : Item → Item} {items : List Item}
    (h : ∀ item ∈ items, ¬ item.id = id) : updateFirst id f items = items := by
  induction items with
  | nil => rfl
  | cons item items ih =>
    obtain ⟨hitem, hitems⟩ := List.forall_mem_cons.mp h
    rw [updateFirst, if_neg hitem, ih hitems]

theorem updateFirst_eq_map {items : List Item} (hd : DistinctIds items) (id : String)
    (f : Item → Item) :
    updateFirst id f items = items.map fun item => if item.id = id then f item else item := by
  induction items with
  | nil => rfl
  | cons item items ih =>
    obtain ⟨hnot, hrest⟩ := List.nodup_cons.mp hd
    rw [updateFirst, List.map_cons]
    split
    · next hid =>
      -- no later item has the id
      have hsame : items.map (fun item => if item.id = id then f item else item) = items := by
        refine (List.map_congr_left fun other hother => if_neg fun he => hnot ?_).trans
          (List.map_id' items)
        exact List.mem_map.mpr ⟨other, hother, he.trans hid.symm⟩
      rw [hsame]
    · rw [ih hrest]

theorem eraseP_eq_filter {items : List Item} (hd : DistinctIds items) (id : String) :
    items.eraseP (fun item => item.id = id) = items.filter fun item => !decide (item.id = id) := by
  induction items with
  | nil => rfl
  | cons item items ih =>
    obtain ⟨hnot, hrest⟩ := List.nodup_cons.mp hd
    rw [List.eraseP_cons, List.filter_cons]
    by_cases hid : item.id = id
    · have hsame : items.filter (fun item => !decide (item.id = id)) = items := by
        rw [List.filter_eq_self]
        intro other hother
        have hne : other.id ≠ id := fun he =>
          hnot (List.mem_map.mpr ⟨other, hother, he.trans hid.symm⟩)
        simpa using hne
      simp [hid, hsame]
    · simp [hid, ih hrest]

theorem map_id_renameFirst (id name : String) (lists : List TodoList) :
    (renameFirst id name lists).map TodoList.id = lists.map TodoList.id := by
  induction lists with
  | nil => rfl
  | cons list lists ih =>
    rw [renameFirst]
    split
    · rfl
    · rw [List.map_cons, List.map_cons, ih]

end Store

/-! ### Views of changed storage -/

/-- Changes that leave the keys alone go through a view. -/
theorem viewOf_map {g : Item → Item} (hg : ∀ item : Item, item.SameKey (g item)) {search : String}
    (hblank : Blank search) (items : List Item) (listId : String) :
    viewOf (items.map g) listId search = (viewOf items listId search).map g := by
  rw [viewOf_of_blank hblank, viewOf_of_blank hblank, List.filter_map, sortItems, sortItems]
  have hfilter : ((fun item : Item => decide (item.listId = listId)) ∘ g) =
      fun item => decide (item.listId = listId) := by
    funext item
    rw [Function.comp_apply, (hg item).2.1]
  rw [hfilter]
  -- sorting compares keys only
  refine (List.map_mergeSort fun a _ b _ => ?_).symm
  rw [Item.precedes, Item.precedes, Item.compare, Item.compare, (hg a).1, (hg a).2.2, (hg b).1,
    (hg b).2.2]

/-- Leaving out some items of storage leaves them out of every view. -/
theorem viewOf_filter {items : List Item} (hd : DistinctIds items) (p : Item → Bool)
    (listId search : String) :
    viewOf (items.filter p) listId search = (viewOf items listId search).filter p := by
  have hperm : ((items.filter p).filter ((Query.parse search).admits listId)).Perm
      ((viewOf items listId search).filter p) := by
    rw [List.filter_comm]
    exact ((sortItems_perm _).filter p).symm
  exact sortItems_eq_of_perm ((hd.sublist List.filter_sublist).sublist List.filter_sublist) hperm
    ((inOrder_viewOf items listId search).sublist List.filter_sublist)

/-! ### Ids stay distinct -/

/-- The ids that an operation gives to new items. -/
def Operation.newIds : Operation → List String
  | .addItem _ _ _ newId => [newId]
  | _ => []

/-- The id that an operation gives to a new item does not occur among the items. -/
def Operation.FreshItem (store : Store) : Operation → Prop
  | .addItem _ _ _ newId => newId ∉ store.items.map Item.id
  | _ => True

instance (store : Store) : (op : Operation) → Decidable (op.FreshItem store)
  | .addItem _ _ _ newId => inferInstanceAs (Decidable (newId ∉ store.items.map Item.id))
  | .moveItem .. | .setComplete .. | .toggleComplete .. | .setSummary .. | .removeItem ..
  | .addList .. | .renameList .. | .removeList .. | .ensureInbox | .touch .. =>
    inferInstanceAs (Decidable True)

namespace Store

variable {store store' : Store}

/-- `addItem` reranks the view that it puts the new item into. -/
theorem reranked_placedItem (store : Store) (listId summary : String) (after : Selection)
    (newId : String) :
    List.Forall₂ Item.Reranked (store.view listId "")
      (store.placedItem listId summary after newId).2.2 :=
  (store.spacing.reranked_of_insertAt _ _ _).2

@[simp] theorem listId_placedItem (store : Store) (listId summary : String) (after : Selection)
    (newId : String) : (store.placedItem listId summary after newId).2.1.listId = listId := rfl

theorem map_id_addItem {listId summary newId : String} {after : Selection}
    (h : store.perform (.addItem listId summary after newId) = .ok store') :
    store'.items.map Item.id = store.items.map Item.id ++ [newId] := by
  obtain ⟨-, rfl⟩ := addItem_cases h
  rw [List.map_append, map_id_writeBack (store.reranked_placedItem listId summary after newId)]
  rfl

theorem map_id_moveItem {listId search id : String} {target : Nat}
    (h : store.perform (.moveItem listId search id target) = .ok store') :
    store'.items.map Item.id = store.items.map Item.id := by
  obtain ⟨_, _, hview, rfl⟩ := moveItem_cases h
  exact map_id_writeBack (store.spacing.reranked_of_reorder hview)

/-- A step brings no ids but those that its operation gives to new items. -/
theorem map_id_step_sublist (store : Store) (op : Operation) :
    ((store.step op).items.map Item.id).Sublist (store.items.map Item.id ++ op.newIds) := by
  have hsame := List.sublist_append_left (store.items.map Item.id) op.newIds
  refine step_preserves (P := fun s => (s.items.map Item.id).Sublist _) hsame fun store' h => ?_
  have hupdate : ∀ id f, (∀ item : Item, (f item).id = item.id) →
      ((updateFirst id f store.items).map Item.id).Sublist
        (store.items.map Item.id ++ op.newIds) := by
    intro id f hf
    rw [map_updateFirst Item.id hf]
    exact hsame
  cases op with
  | addItem listId summary after newId => rw [map_id_addItem h, Operation.newIds]
  | moveItem listId search id target =>
    rw [map_id_moveItem h]
    exact hsame
  | setComplete | toggleComplete | setSummary =>
    rw [updateItem_cases h]
    exact hupdate _ _ fun _ => rfl
  | removeItem id =>
    rw [removeItem_cases h]
    exact (List.eraseP_sublist.map Item.id).trans hsame
  | addList name newId =>
    obtain ⟨_, -, rfl⟩ := addList_cases h
    exact hsame
  | renameList id name =>
    obtain ⟨_, -, rfl⟩ := renameList_cases h
    exact hsame
  | removeList id =>
    obtain ⟨-, -, rfl⟩ := removeList_cases h
    exact (List.filter_sublist.map Item.id).trans hsame
  | ensureInbox =>
    obtain rfl := Except.ok.inj h
    rw [withInbox]
    split
    · exact hsame
    · exact hsame
  | touch now =>
    obtain rfl := Except.ok.inj h
    exact hsame

/-- **Ids stay distinct.** -/
theorem distinctIds_step {op : Operation} (hd : DistinctIds store.items)
    (hfresh : op.FreshItem store) : DistinctIds (store.step op).items := by
  refine List.Nodup.sublist (store.map_id_step_sublist op) ?_
  cases op with
  | addItem listId summary after newId =>
    refine List.nodup_append.mpr ⟨hd, List.nodup_singleton _, fun a ha b hb he => hfresh ?_⟩
    rwa [← List.mem_singleton.mp hb, ← he]
  | _ =>
    show (store.items.map Item.id ++ []).Nodup
    rwa [List.append_nil]

end Store

end Agenda

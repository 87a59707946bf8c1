/-
Agenda/Proofs/Store/Step.lean

One step as an equation.  The actions are written with positions in storage
and the first item of an id in mind, and each of them may fail.  Where ids are
distinct none of this matters: whether it succeeds or not, a step changes
every item by itself, and it looks the item up by its id

    items of (step (setComplete id b))  =  items, mapped
    items of (step (removeItem id))     =  items, filtered
    items of (step (moveItem …))        =  items, each as the new view has it

(`writeBack_eq_map_within`), so a step can be read on any part of the storage.
-/
import Agenda.Proofs.Store.Storage

namespace Agenda

open Search

theorem DistinctIds.find?_eq {items : List Item} (hd : DistinctIds items) {item : Item}
    (h : item ∈ items) : (items.find? fun other => other.id = item.id) = some item := by
  cases hfind : items.find? fun other => other.id = item.id with
  | none => exact absurd (decide_eq_true rfl) (List.find?_eq_none.mp hfind item h)
  | some other =>
    have hid : other.id = item.id := by simpa using List.find?_some hfind
    rw [hd.eq_of_id_eq (List.mem_of_find?_eq_some hfind) h hid]

/-! ### Items as a view has them -/

/-- The item as the view has it, looked up by its id, or itself if it is not in the view. -/
def Item.within (view : List Item) (item : Item) : Item :=
  (view.find? fun other => other.id = item.id).getD item

section Within

variable {items view : List Item} {listId search : String}

theorem DistinctIds.of_reranked (hd : DistinctIds items)
    (h : List.Forall₂ Item.Reranked items view) : DistinctIds view := by
  rw [DistinctIds, map_id_of_reranked h]
  exact hd

/-- An item that the search does not admit is not in the view. -/
theorem within_of_not_admits (hd : DistinctIds items)
    (h : List.Forall₂ Item.Reranked (viewOf items listId search) view) {item : Item}
    (hmem : item ∈ items) (hnot : (Query.parse search).admits listId item = false) :
    item.within view = item := by
  have hnone : (view.find? fun other => other.id = item.id) = none := by
    rw [List.find?_eq_none]
    intro other hother heq
    obtain ⟨old, hold, hab⟩ := exists_reranked_of_mem h hother
    obtain ⟨holdMem, hadmits⟩ := mem_viewOf.mp hold
    have hid : old.id = item.id := hab.id_eq.symm.trans (of_decide_eq_true heq)
    rw [hd.eq_of_id_eq holdMem hmem hid, hnot] at hadmits
    cases hadmits
  rw [Item.within, hnone, Option.getD_none]

/-- **Writing a view back, item by item**: positions in storage do not matter. -/
theorem writeBack_eq_map_within (hd : DistinctIds items)
    (h : List.Forall₂ Item.Reranked (viewOf items listId search) view) :
    writeBack items ((slotsOf items listId search).map Prod.snd) view =
      items.map (Item.within view) := by
  have hlength : view.length = (slotsOf items listId search).length := by
    rw [length_slotsOf, h.length_eq]
  have hview := map_written hlength (nodup_map_snd_slotsOf items listId search)
  have hslots := forall₂_writeBack h
  rw [writeBack_eq_map] at hslots ⊢
  conv at hslots => arg 2; rw [← List.zipIdx_map_fst 0 items]
  rw [List.forall₂_map_left_iff, List.forall₂_map_right_iff, List.forall₂_same] at hslots
  conv_rhs => rw [← List.zipIdx_map_fst 0 items, List.map_map]
  refine List.map_congr_left fun slot hslot => ?_
  have hmem : slot.1 ∈ items := by
    rw [← List.zipIdx_map_fst 0 items]
    exact List.mem_map_of_mem hslot
  obtain ⟨hreranked, hkept⟩ := hslots slot hslot
  rw [Function.comp_apply]
  cases hadmits : (Query.parse search).admits listId slot.1 with
  | false => rw [hkept hadmits, within_of_not_admits hd h hmem hadmits]
  | true =>
    have hin : slot ∈ slotsOf items listId search := by
      rw [(slotsOf_perm items listId search).mem_iff, List.mem_filter]
      exact ⟨hslot, hadmits⟩
    have hnew := List.mem_map_of_mem
      (f := written ((slotsOf items listId search).map Prod.snd) view) hin
    rw [hview] at hnew
    rw [Item.within, ← hreranked.id_eq, ((hd.viewOf listId search).of_reranked h).find?_eq hnew,
      Option.getD_some]

theorem reranked_within (hd : DistinctIds items)
    (h : List.Forall₂ Item.Reranked (viewOf items listId search) view) {item : Item}
    (hmem : item ∈ items) : item.Reranked (item.within view) := by
  have hall := reranked_writeBack h
  rw [writeBack_eq_map_within hd h, List.forall₂_map_right_iff, List.forall₂_same] at hall
  exact hall item hmem

end Within

/-! ### Steps -/

namespace Store

variable {store : Store}

theorem step_addItem (store : Store) (listId summary : String) (after : Selection)
    (newId : String) :
    store.step (.addItem listId summary after newId) =
      if store.hasList listId then
        { store with
          items := writeBack store.items ((slotsOf store.items listId "").map Prod.snd)
              (store.placedItem listId summary after newId).2.2 ++
            [(store.placedItem listId summary after newId).2.1] }
      else store := by
  cases h : store.perform (.addItem listId summary after newId) with
  | ok store' =>
    obtain ⟨hlist, rfl⟩ := addItem_cases h
    rw [step_of_ok h, if_pos hlist]
  | error e =>
    have hlist : ¬ store.hasList listId = true := fun hlist => by
      rw [perform, addItem, if_pos hlist] at h
      cases h
    rw [step_of_error h, if_neg hlist]

/-- A move changes nothing unless the item is in the view. -/
theorem step_moveItem (store : Store) (listId search id : String) (target : Nat) :
    store.step (.moveItem listId search id target) =
      match store.spacing.reorder (store.view listId search) id target with
      | some (_, view) =>
        { store with
          items := writeBack store.items ((slotsOf store.items listId search).map Prod.snd) view }
      | none => store := by
  cases h : store.perform (.moveItem listId search id target) with
  | ok store' =>
    obtain ⟨_, _, hview, rfl⟩ := moveItem_cases h
    rw [step_of_ok h, hview]
  | error e =>
    rw [step_of_error h]
    cases hview : store.spacing.reorder (store.view listId search) id target with
    | none => rfl
    | some moved =>
      -- the item is in the view, so it is in the store, and the move would have succeeded
      obtain ⟨origin, item, -, hget, hid, -⟩ := store.spacing.reorder_cases hview
      have hmem : item ∈ store.items := (mem_viewOf.mp (List.mem_of_getElem? hget)).1
      have hsome : (store.item? id).isSome = true :=
        List.find?_isSome.mpr ⟨item, hmem, decide_eq_true hid⟩
      obtain ⟨found, hfound⟩ := Option.isSome_iff_exists.mp hsome
      rw [perform, moveItem, hfound] at h
      dsimp only at h
      rw [map_fst_slotsOf, ← view, hview] at h
      cases h

theorem forall_ne_of_item?_eq_none {id : String} (h : store.item? id = none) :
    ∀ item ∈ store.items, ¬ item.id = id :=
  fun item hitem hid => List.find?_eq_none.mp h item hitem (decide_eq_true hid)

/-- An operation that changes the first item with an id. -/
theorem step_updateItem {op : Operation} {id : String} {f : Item → Item}
    (hop : store.perform op = (store.updateItem id f).map Prod.fst) :
    store.step op = { store with items := updateFirst id f store.items } := by
  cases hfind : store.item? id with
  | some item =>
    refine step_of_ok ?_
    rw [hop, updateItem, hfind]
    rfl
  | none =>
    have h : store.perform op = .error (.itemNotFound id) := by
      rw [hop, updateItem, hfind]
      rfl
    rw [step_of_error h, updateFirst_of_forall_ne (forall_ne_of_item?_eq_none hfind)]

theorem step_removeItem (store : Store) (id : String) :
    store.step (.removeItem id) =
      { store with items := store.items.eraseP fun item => item.id = id } := by
  cases hfind : store.item? id with
  | some item =>
    refine step_of_ok ?_
    rw [perform, removeItem, hfind]
    rfl
  | none =>
    have h : store.perform (.removeItem id) = .error (.itemNotFound id) := by
      rw [perform, removeItem, hfind]
      rfl
    have hsame : store.items.eraseP (fun item => item.id = id) = store.items :=
      List.eraseP_of_forall_not fun item hitem => by
        simpa using forall_ne_of_item?_eq_none hfind item hitem
    rw [step_of_error h, hsame]

/-- Where ids are distinct, every item is changed by itself. -/
theorem step_updateItem_of_distinct (hd : DistinctIds store.items) {op : Operation} {id : String}
    {f : Item → Item} (hop : store.perform op = (store.updateItem id f).map Prod.fst) :
    store.step op =
      { store with
        items := store.items.map fun item => if item.id = id then f item else item } := by
  rw [step_updateItem hop, updateFirst_eq_map hd]

theorem step_removeItem_of_distinct (hd : DistinctIds store.items) (id : String) :
    store.step (.removeItem id) =
      { store with items := store.items.filter fun item => !decide (item.id = id) } := by
  rw [step_removeItem, eraseP_eq_filter hd]

theorem step_addList (store : Store) (name newId : String) :
    store.step (.addList name newId) =
      match checkListName name with
      | .ok name => { store with lists := store.lists ++ [{ id := newId, name }] }
      | .error _ => store := by
  rw [step, perform, addList]
  cases checkListName name <;> rfl

theorem renameFirst_of_forall_ne {id name : String} {lists : List TodoList}
    (h : ∀ list ∈ lists, ¬ list.id = id) : renameFirst id name lists = lists := by
  induction lists with
  | nil => rfl
  | cons list lists ih =>
    obtain ⟨hlist, hlists⟩ := List.forall_mem_cons.mp h
    rw [renameFirst, if_neg hlist, ih hlists]

theorem step_renameList (store : Store) (id name : String) :
    store.step (.renameList id name) =
      match checkListName name with
      | .ok name => { store with lists := renameFirst id name store.lists }
      | .error _ => store := by
  cases hname : checkListName name with
  | error e =>
    refine step_of_error (e := e) ?_
    rw [perform, renameList, hname]
    rfl
  | ok checked =>
    cases hfind : store.lists.find? fun list => list.id = id with
    | some list =>
      refine step_of_ok ?_
      rw [perform, renameList, hname, Except.bind, hfind]
      rfl
    | none =>
      have hperform : store.perform (.renameList id name) = .error (.listNotFound id none) := by
        rw [perform, renameList, hname, Except.bind, hfind]
        rfl
      have hsame : renameFirst id checked store.lists = store.lists :=
        renameFirst_of_forall_ne fun list hlist hid =>
          List.find?_eq_none.mp hfind list hlist (decide_eq_true hid)
      rw [step_of_error hperform]
      dsimp only
      rw [hsame]

theorem step_removeList (store : Store) (id : String) :
    store.step (.removeList id) =
      if id ≠ inboxId ∧ store.hasList id = true then
        { store with
          items := store.items.filter fun item => !decide (item.listId = id)
          lists := store.lists.eraseP fun list => list.id = id }
      else store := by
  cases h : store.perform (.removeList id) with
  | ok store' =>
    obtain ⟨hid, hlist, rfl⟩ := removeList_cases h
    rw [step_of_ok h, if_pos ⟨hid, hlist⟩]
  | error e =>
    rw [step_of_error h, if_neg]
    rintro ⟨hid, hlist⟩
    obtain ⟨list, hmem, hlistId⟩ := List.any_eq_true.mp hlist
    have hsome : (store.lists.find? fun list => list.id = id).isSome = true :=
      List.find?_isSome.mpr ⟨list, hmem, hlistId⟩
    obtain ⟨found, hfound⟩ := Option.isSome_iff_exists.mp hsome
    rw [perform, removeList, hfound] at h
    dsimp only at h
    rw [if_neg hid] at h
    cases h

/-! ### The time of the last save -/

/-- The store without the time of its last save. -/
def unstamped (store : Store) : Store :=
  { store with savedAt := none }

/-- **No operation looks at the time of the last save.** -/
theorem unstamped_step (store : Store) (op : Operation) :
    (store.step op).unstamped = (store.unstamped.step op).unstamped := by
  cases op with
  | addItem listId summary after newId =>
    rw [step_addItem, step_addItem]
    show _ = (if store.hasList listId then _ else _ : Store).unstamped
    split <;> rfl
  | moveItem listId search id target =>
    rw [step_moveItem, step_moveItem]
    show _ = (match store.spacing.reorder (store.view listId search) id target with
      | some (_, view) => _
      | none => _ : Store).unstamped
    split <;> rfl
  | setComplete | toggleComplete | setSummary =>
    rw [step_updateItem rfl, step_updateItem rfl]
    rfl
  | removeItem id =>
    rw [step_removeItem, step_removeItem]
    rfl
  | addList name newId =>
    rw [step_addList, step_addList]
    split <;> rfl
  | renameList id name =>
    rw [step_renameList, step_renameList]
    split <;> rfl
  | removeList id =>
    rw [step_removeList, step_removeList]
    show _ = (if id ≠ inboxId ∧ store.hasList id = true then _ else _ : Store).unstamped
    split <;> rfl
  | ensureInbox =>
    show store.withInbox.unstamped = store.unstamped.withInbox.unstamped
    rw [withInbox, withInbox]
    show _ = (if store.hasList inboxId then _ else _ : Store).unstamped
    split <;> rfl
  | touch now => rfl

theorem unstamped_run_congr {store store' : Store} (h : store.unstamped = store'.unstamped)
    (ops : List Operation) : (store.run ops).unstamped = (store'.run ops).unstamped := by
  induction ops generalizing store store' with
  | nil => exact h
  | cons op ops ih =>
    refine ih ?_
    rw [unstamped_step, h, ← unstamped_step]

/-! ### The inbox -/

/-- No operation takes the inbox away. -/
theorem hasList_inbox_step {store : Store} (h : store.hasList inboxId = true) (op : Operation) :
    (store.step op).hasList inboxId = true := by
  refine step_preserves (P := fun s => s.hasList inboxId = true) h fun store' hok => ?_
  cases op with
  | addItem =>
    obtain ⟨-, rfl⟩ := addItem_cases hok
    exact h
  | moveItem =>
    obtain ⟨_, _, -, rfl⟩ := moveItem_cases hok
    exact h
  | setComplete | toggleComplete | setSummary =>
    rw [updateItem_cases hok]
    exact h
  | removeItem =>
    rw [removeItem_cases hok]
    exact h
  | addList name newId =>
    obtain ⟨_, -, rfl⟩ := addList_cases hok
    rw [hasList_iff, List.map_append]
    exact List.mem_append_left _ (hasList_iff.mp h)
  | renameList id name =>
    obtain ⟨checked, -, rfl⟩ := renameList_cases hok
    rw [hasList_iff, map_id_renameFirst]
    exact hasList_iff.mp h
  | removeList id =>
    obtain ⟨hid, -, rfl⟩ := removeList_cases hok
    obtain ⟨list, hlist, hlistId⟩ := List.mem_map.mp (hasList_iff.mp h)
    rw [hasList_iff, ← hlistId]
    refine List.mem_map_of_mem ((List.mem_eraseP_of_neg ?_).mpr hlist)
    simpa [hlistId] using hid.symm
  | ensureInbox =>
    obtain rfl := Except.ok.inj hok
    rwa [withInbox, if_pos h]
  | touch now =>
    obtain rfl := Except.ok.inj hok
    exact h

theorem hasList_inbox_run {store : Store} (h : store.hasList inboxId = true)
    (ops : List Operation) : (store.run ops).hasList inboxId = true := by
  induction ops generalizing store with
  | nil => exact h
  | cons op ops ih => exact ih (hasList_inbox_step h op)

end Store

end Agenda

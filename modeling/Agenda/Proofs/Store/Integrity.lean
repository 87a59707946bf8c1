/-
Agenda/Proofs/Store/Integrity.lean

What holds of every store that actions can lead to.  Lists and items are kept
in two tables, and the tables fit: there is one inbox, ids are distinct, every
item has a list to be shown in, and all texts are trimmed (`Sound`).  An empty
store is sound and every action keeps it so (`sound_step`), hence every run
does (`sound_run`).

Distinct ids are what makes display order strict, so views of sound stores
have no ties.
-/
import Agenda.Proofs.Store.Storage
import Agenda.Proofs.Text.Blank

namespace Agenda

open Text

/-! ### Sound stores -/

/-- A name that a list may have: trimmed, and of 1 to 25 characters. -/
structure ProperName (name : String) : Prop where
  trimmed : trim name = name
  one_le : 1 ≤ name.length
  length_le : name.length ≤ 25

/-- An item that may stand beside lists with these ids. -/
structure ProperItem (listIds : List String) (item : Item) : Prop where
  home : item.listId ∈ listIds
  trimmed : trim item.summary = item.summary

/-- The two tables of a store fit each other. -/
structure Sound (store : Store) : Prop where
  inbox : (store.lists.map TodoList.id).count inboxId = 1
  listIds : (store.lists.map TodoList.id).Nodup
  itemIds : DistinctIds store.items
  names : ∀ list ∈ store.lists, ProperName list.name
  items : ∀ item ∈ store.items, ProperItem (store.lists.map TodoList.id) item

/-- The id that an operation gives to a new list does not occur among the lists. -/
def Operation.FreshList (store : Store) : Operation → Prop
  | .addList _ newId => newId ∉ store.lists.map TodoList.id
  | _ => True

instance (store : Store) : (op : Operation) → Decidable (op.FreshList store)
  | .addList _ newId => inferInstanceAs (Decidable (newId ∉ store.lists.map TodoList.id))
  | .addItem .. | .moveItem .. | .setComplete .. | .toggleComplete .. | .setSummary ..
  | .removeItem .. | .renameList .. | .removeList .. | .ensureInbox | .touch .. =>
    inferInstanceAs (Decidable True)

theorem properName_of_check {name checked : String} (h : checkListName name = .ok checked) :
    ProperName checked := by
  rw [checkListName] at h
  split at h
  · cases h
  · next hne =>
    split at h
    · cases h
    · next hlen =>
      obtain rfl := Except.ok.inj h
      refine ⟨trim_trim name, ?_, Nat.not_lt.mp hlen⟩
      rw [Nat.one_le_iff_ne_zero]
      intro hzero
      exact hne (String.isEmpty_iff.mpr (String.length_eq_zero_iff.mp hzero))

theorem ProperItem.of_reranked {listIds : List String} {a b : Item} (h : ProperItem listIds a)
    (hab : a.Reranked b) : ProperItem listIds b := by
  rw [hab]
  exact ⟨h.home, h.trimmed⟩

namespace Store

variable {store store' : Store}

theorem name_of_mem_renameFirst {id name : String} {lists : List TodoList} {list : TodoList}
    (h : list ∈ renameFirst id name lists) : list ∈ lists ∨ list.name = name := by
  induction lists with
  | nil => cases h
  | cons head lists ih =>
    rw [renameFirst] at h
    split at h
    · rcases List.mem_cons.mp h with rfl | h
      · exact .inr rfl
      · exact .inl (List.mem_cons_of_mem _ h)
    · rcases List.mem_cons.mp h with rfl | h
      · exact .inl List.mem_cons_self
      · exact (ih h).imp_left (List.mem_cons_of_mem _)

theorem mem_updateFirst {id : String} {f : Item → Item} {items : List Item} {item : Item}
    (h : item ∈ updateFirst id f items) : item ∈ items ∨ ∃ old ∈ items, item = f old := by
  induction items with
  | nil => cases h
  | cons head items ih =>
    rw [updateFirst] at h
    split at h
    · rcases List.mem_cons.mp h with rfl | h
      · exact .inr ⟨head, List.mem_cons_self, rfl⟩
      · exact .inl (List.mem_cons_of_mem _ h)
    · rcases List.mem_cons.mp h with rfl | h
      · exact .inl List.mem_cons_self
      · rcases ih h with h | ⟨old, hold, rfl⟩
        · exact .inl (List.mem_cons_of_mem _ h)
        · exact .inr ⟨old, List.mem_cons_of_mem _ hold, rfl⟩

end Store

/-! ### Steps -/

namespace Sound

open Store

variable {store store' : Store}

theorem mem_inbox (h : Sound store) : inboxId ∈ store.lists.map TodoList.id := by
  rw [← List.count_pos_iff, h.inbox]
  exact Nat.one_pos

/-- A sound store has its inbox. -/
theorem withInbox_eq (h : Sound store) : store.withInbox = store := by
  rw [withInbox, if_pos (hasList_iff.mpr h.mem_inbox)]

/-- Items may be replaced by others that fit. -/
theorem withItems (h : Sound store) {items : List Item} (hids : DistinctIds items)
    (hitems : ∀ item ∈ items, ProperItem (store.lists.map TodoList.id) item) :
    Sound { store with items := items } :=
  ⟨h.inbox, h.listIds, hids, h.names, hitems⟩

theorem addItem {listId summary newId : String} {after : Selection} (h : Sound store)
    (hids : DistinctIds store'.items)
    (hp : store.perform (.addItem listId summary after newId) = .ok store') : Sound store' := by
  obtain ⟨hlist, rfl⟩ := addItem_cases hp
  refine h.withItems hids fun item hitem => ?_
  rcases List.mem_append.mp hitem with hold | hnew
  · obtain ⟨old, hmem, hab⟩ := exists_reranked_of_mem
      (reranked_writeBack (store.reranked_placedItem listId summary after newId)) hold
    exact (h.items old hmem).of_reranked hab
  · rw [List.mem_singleton.mp hnew]
    exact ⟨hasList_iff.mp hlist, trim_trim summary⟩

theorem moveItem {listId search id : String} {target : Nat} (h : Sound store)
    (hids : DistinctIds store'.items)
    (hp : store.perform (.moveItem listId search id target) = .ok store') : Sound store' := by
  obtain ⟨_, _, hview, rfl⟩ := moveItem_cases hp
  refine h.withItems hids fun item hitem => ?_
  obtain ⟨old, hmem, hab⟩ := exists_reranked_of_mem
    (reranked_writeBack (store.spacing.reranked_of_reorder hview)) hitem
  exact (h.items old hmem).of_reranked hab

theorem updateFirst {id : String} {f : Item → Item} (h : Sound store)
    (hids : DistinctIds (Store.updateFirst id f store.items))
    (hf : ∀ item, ProperItem (store.lists.map TodoList.id) item →
      ProperItem (store.lists.map TodoList.id) (f item)) :
    Sound { store with items := Store.updateFirst id f store.items } := by
  refine h.withItems hids fun item hitem => ?_
  rcases mem_updateFirst hitem with hmem | ⟨old, hmem, rfl⟩
  · exact h.items item hmem
  · exact hf old (h.items old hmem)

theorem addList {name newId : String} (h : Sound store)
    (hfresh : newId ∉ store.lists.map TodoList.id)
    (hp : store.perform (.addList name newId) = .ok store') : Sound store' := by
  obtain ⟨checked, hname, rfl⟩ := addList_cases hp
  have hids : (store.lists ++ [({ id := newId, name := checked } : TodoList)]).map TodoList.id =
      store.lists.map TodoList.id ++ [newId] := List.map_append
  have hn : (store.lists.map TodoList.id ++ [newId]).Nodup := by
    rw [← List.concat_eq_append]
    exact h.listIds.concat hfresh
  refine ⟨?_, ?_, h.itemIds, ?_, fun item hitem => ⟨?_, (h.items item hitem).trimmed⟩⟩
  · rw [hids]
    exact List.count_eq_one_of_mem hn (List.mem_append_left _ h.mem_inbox)
  · rw [hids]
    exact hn
  · intro list hlist
    rcases List.mem_append.mp hlist with hold | hnew
    · exact h.names list hold
    · rw [List.mem_singleton.mp hnew]
      exact properName_of_check hname
  · rw [hids]
    exact List.mem_append_left _ (h.items item hitem).home

theorem renameList {id name : String} (h : Sound store)
    (hp : store.perform (.renameList id name) = .ok store') : Sound store' := by
  obtain ⟨checked, hname, rfl⟩ := renameList_cases hp
  have hids := map_id_renameFirst id checked store.lists
  refine ⟨?_, ?_, h.itemIds, ?_, ?_⟩
  · rw [hids]
    exact h.inbox
  · rw [hids]
    exact h.listIds
  · intro list hlist
    rcases name_of_mem_renameFirst hlist with hold | hnew
    · exact h.names list hold
    · rw [hnew]
      exact properName_of_check hname
  · rw [hids]
    exact h.items

/-- The list that goes takes its items along, and it is not the inbox. -/
theorem removeList {id : String} (h : Sound store)
    (hp : store.perform (.removeList id) = .ok store') : Sound store' := by
  obtain ⟨hinbox, -, rfl⟩ := removeList_cases hp
  -- lists with other ids stay, the inbox among them
  have hkept : ∀ listId, listId ≠ id → listId ∈ store.lists.map TodoList.id →
      listId ∈ (store.lists.eraseP fun list => list.id = id).map TodoList.id := by
    intro listId hne hmem
    obtain ⟨list, hlist, rfl⟩ := List.mem_map.mp hmem
    exact List.mem_map_of_mem ((List.mem_eraseP_of_neg (by simpa using hne)).mpr hlist)
  have hn : ((store.lists.eraseP fun list => list.id = id).map TodoList.id).Nodup :=
    h.listIds.sublist (List.eraseP_sublist.map TodoList.id)
  refine ⟨List.count_eq_one_of_mem hn (hkept inboxId (Ne.symm hinbox) h.mem_inbox), hn, ?_, ?_, ?_⟩
  · exact h.itemIds.sublist List.filter_sublist
  · exact fun list hlist => h.names list (List.mem_of_mem_eraseP hlist)
  · intro item hitem
    obtain ⟨hmem, hlist⟩ := List.mem_filter.mp hitem
    have hproper := h.items item hmem
    exact ⟨hkept item.listId (by simpa using hlist) hproper.home, hproper.trimmed⟩

/-- In a sound store no two items tie. -/
theorem pairwise_view (h : Sound store) (listId search : String) :
    (store.view listId search).Pairwise fun a b => a.compare b = .lt :=
  (inOrder_viewOf store.items listId search).pairwise_lt (h.itemIds.viewOf listId search)

end Sound

namespace Store

/-- **Every step keeps a sound store sound.** -/
theorem sound_step {store : Store} {op : Operation} (h : Sound store)
    (hitem : op.FreshItem store) (hlist : op.FreshList store) : Sound (store.step op) := by
  have hids := distinctIds_step h.itemIds hitem
  cases hp : store.perform op with
  | error e => rw [step_of_error hp]; exact h
  | ok store' =>
    rw [step_of_ok hp] at hids ⊢
    cases op with
    | addItem => exact h.addItem hids hp
    | moveItem => exact h.moveItem hids hp
    | setComplete | toggleComplete =>
      obtain rfl := updateItem_cases hp
      exact h.updateFirst hids fun item hproper => ⟨hproper.home, hproper.trimmed⟩
    | setSummary =>
      obtain rfl := updateItem_cases hp
      exact h.updateFirst hids fun item hproper => ⟨hproper.home, trim_trim _⟩
    | removeItem =>
      obtain rfl := removeItem_cases hp
      exact h.withItems hids fun item hmem => h.items item (List.mem_of_mem_eraseP hmem)
    | addList => exact h.addList hlist hp
    | renameList => exact h.renameList hp
    | removeList => exact h.removeList hp
    | ensureInbox =>
      obtain rfl := Except.ok.inj hp
      rw [h.withInbox_eq]
      exact h
    | touch =>
      obtain rfl := Except.ok.inj hp
      exact ⟨h.inbox, h.listIds, h.itemIds, h.names, h.items⟩

/-- The ids that an operation brings along are new. -/
def FreshIds (store : Store) (op : Operation) : Prop :=
  op.FreshItem store ∧ op.FreshList store

instance (store : Store) (op : Operation) : Decidable (FreshIds store op) :=
  inferInstanceAs (Decidable (_ ∧ _))

theorem sound_initial : Sound initial := by
  have hname : ProperName TodoList.inbox.name := ⟨by decide +kernel, by decide, by decide⟩
  refine ⟨by decide, by decide, List.nodup_nil, ?_, nofun⟩
  intro list hlist
  rw [List.mem_singleton.mp hlist]
  exact hname

/-- **Every store that actions lead to is sound**, and its views are in strict order. -/
theorem sound_run {ops : List Operation} (hops : Along FreshIds initial ops) :
    Sound (initial.run ops) ∧
      ∀ listId search, ((initial.run ops).view listId search).Pairwise
        fun a b => a.compare b = .lt := by
  have hsound : Sound (initial.run ops) :=
    hops.run (fun _ _ h hop => sound_step h hop.1 hop.2) sound_initial
  exact ⟨hsound, hsound.pairwise_view⟩

/-- A list with an item comes and goes. -/
theorem sound_run_errands :
    let ops : List Operation := [.addList " Errands " "e", .addItem "e" " post office " {} "p",
      .moveItem "e" "post" "p" 3, .removeList "e", .removeList inboxId]
    Along FreshIds initial ops ∧ Sound (initial.run ops) ∧
      ∀ listId search, ((initial.run ops).view listId search).Pairwise
        fun a b => a.compare b = .lt := by
  intro ops
  have hops : Along FreshIds initial ops := by decide +kernel
  exact ⟨hops, sound_run hops⟩

end Store

end Agenda

/-
Agenda/Proofs/Store/Sequence.lean

Precedences implement plain lists.  What a person sees of a store is, for each
list, the ids of its items in display order: its *sequences*.  Precedences,
midpoints and renumber passes are one way to keep them, and a run of the store
keeps them exactly as list operations would:

    sequences (run ops store)  =  the list operations of ops, on sequences store

(`sequences_run`).  The list operations are `Operation.onSequences`; they know
nothing of precedences.  Whether an operation succeeds is asked of the store.
The only promises are that new ids are fresh, that moves are made in the whole
list, and that the lists are small enough for their steps to fit into 64 bits.
-/
import Agenda.Proofs.Store.Refusal
import Agenda.Proofs.Store.Storage
import Mathlib.Logic.Function.Basic

namespace Agenda

open Search

/-- The ids of every list, in display order. -/
abbrev Sequences := String → List String

/-- What an operation means for plain lists of ids. -/
def Operation.onSequences (sequences : Sequences) : Operation → Sequences
  | .addItem listId _ after newId =>
    let ids := sequences listId
    let index := match after.index with
      | some i => min (i + 1) ids.length
      | none => ids.length
    Function.update sequences listId (ids.insertIdx index newId)
  | .moveItem listId _ id target =>
    let ids := sequences listId
    Function.update sequences listId ((ids.erase id).insertIdx (min target (ids.length - 1)) id)
  | .removeItem id => fun listId => (sequences listId).erase id
  | .removeList id => Function.update sequences id []
  | _ => sequences

/-- Moves are made in the whole list: their search is blank. -/
def Operation.Unfiltered : Operation → Prop
  | .moveItem _ search _ _ => Blank search
  | _ => True

instance : (op : Operation) → Decidable op.Unfiltered
  | .moveItem _ search _ _ => inferInstanceAs (Decidable (Blank search))
  | .addItem .. | .setComplete .. | .toggleComplete .. | .setSummary .. | .removeItem ..
  | .addList .. | .renameList .. | .removeList .. | .ensureInbox | .touch .. =>
    inferInstanceAs (Decidable True)

namespace Store

/-- The ids of every list of the store, in display order. -/
def sequences (store : Store) : Sequences := fun listId =>
  (store.view listId "").map Item.id

/-- The list operation of an operation, where the store lets it succeed. -/
def follow (store : Store) (op : Operation) (sequences : Sequences) : Sequences :=
  match store.perform op with
  | .ok _ => op.onSequences sequences
  | .error _ => sequences

theorem follow_of_accepted {store : Store} {op : Operation} (h : ∀ e, ¬ op.Refused store e)
    (sequences : Sequences) : store.follow op sequences = op.onSequences sequences := by
  rw [follow]
  cases hperform : store.perform op with
  | ok store' => rfl
  | error e => exact absurd (perform_eq_error_iff.mp hperform) (h e)

/-- The list operations of a run. -/
def followAll : Store → List Operation → Sequences → Sequences
  | _, [], sequences => sequences
  | store, op :: ops, sequences => followAll (store.step op) ops (store.follow op sequences)

/-- Every list can be renumbered, with two places to spare, without leaving 64 bits. -/
def Roomy (store : Store) : Prop :=
  ∀ listId, ((store.counts listId).1 + 2 : Int) * store.spacing.step ≤ maxPrecedence

variable {store store' : Store}

theorem roomy_of_length_le
    (h : (store.items.length + 2 : Int) * store.spacing.step ≤ maxPrecedence) : Roomy store := by
  intro listId
  have hcount : (store.counts listId).1 ≤ store.items.length := List.length_filter_le _ _
  have hstep := store.spacing.step_pos
  refine le_trans (mul_le_mul_of_nonneg_right ?_ hstep.le) h
  omega

/-! ### One operation -/

theorem length_view_of_blank {search : String} (h : Blank search) (store : Store)
    (listId : String) : (store.view listId search).length = (store.counts listId).1 := by
  rw [view, viewOf_of_blank h, (sortItems_perm _).length_eq]
  rfl

/-- The ids of a list depend on its own items only. -/
theorem sequences_congr {listId : String}
    (h : store'.items.filter (fun item => item.listId = listId) =
      store.items.filter fun item => item.listId = listId) :
    store'.sequences listId = store.sequences listId := by
  rw [sequences, sequences, view, view, viewOf_of_blank blank_empty, viewOf_of_blank blank_empty,
    h]

/-- A list that was arranged as a whole has the ids of the arrangement. -/
theorem sequences_eq_of_perm {listId : String} (hd : DistinctIds store'.items)
    {sorted : List Item} (hs : InOrder sorted)
    (hp : (store'.items.filter fun item => item.listId = listId).Perm sorted) :
    store'.sequences listId = sorted.map Item.id := by
  rw [sequences, view, viewOf_of_blank blank_empty,
    sortItems_eq_of_perm (hd.sublist List.filter_sublist) hp hs]

/-- Room in a list, as placing an item in its view wants it. -/
theorem Roomy.fits (h : Roomy store) {search : String} (hblank : Blank search)
    (listId : String) :
    ((store.view listId search).length + 2 : Int) * store.spacing.step ≤ maxPrecedence := by
  rw [length_view_of_blank hblank]
  exact h listId

theorem sequences_addItem {listId summary newId : String} {after : Selection}
    (hd : DistinctIds store'.items) (hroom : Roomy store)
    (h : store.perform (.addItem listId summary after newId) = .ok store') :
    store'.sequences =
      (Operation.addItem listId summary after newId).onSequences store.sequences := by
  obtain ⟨-, rfl⟩ := addItem_cases h
  have hreranked := store.reranked_placedItem listId summary after newId
  have hitem := store.listId_placedItem listId summary after newId
  funext other
  -- the list of the new item is arranged anew, the others are not touched
  by_cases hother : other = listId
  · subst hother
    obtain ⟨sorted, hperm, hs, hids⟩ := store.spacing.insertAt_arranges (inOrder_viewOf _ _ _)
      { id := newId, listId := other, summary := Text.trim summary }
      (after.insertionIndex (store.view other "").length) (hroom.fits blank_empty other)
    rw [sequences_eq_of_perm hd hs, hids, Operation.onSequences, Function.update_self]
    · congr 1
      rw [sequences, List.length_map]
      cases hindex : after.index <;> simp [Selection.insertionIndex, hindex, view]
    · rw [List.filter_append, List.filter_singleton, hitem, decide_eq_true rfl]
      refine ((filter_writeBack_self hreranked blank_empty).append_right _).trans ?_
      exact (List.perm_append_singleton _ _).trans hperm.symm
  · rw [Operation.onSequences, Function.update_of_ne hother]
    apply sequences_congr
    rw [List.filter_append, filter_writeBack_of_ne hreranked hother, List.filter_singleton, hitem,
      decide_eq_false (Ne.symm hother), cond_false, List.append_nil]

theorem sequences_moveItem {listId search id : String} {target : Nat}
    (hd : DistinctIds store'.items) (hblank : Blank search) (hroom : Roomy store)
    (h : store.perform (.moveItem listId search id target) = .ok store') :
    store'.sequences =
      (Operation.moveItem listId search id target).onSequences store.sequences := by
  obtain ⟨placement, view', hview, rfl⟩ := moveItem_cases h
  have hreranked := store.spacing.reranked_of_reorder hview
  funext other
  by_cases hother : other = listId
  · subst hother
    -- a blank search shows the whole list
    obtain ⟨sorted, hperm, hs, hids⟩ := store.spacing.reorder_arranges (inOrder_viewOf _ _ _)
      (hroom.fits hblank other) hview
    have hsame : viewOf store.items other search = store.view other "" := by
      rw [view, viewOf_of_blank hblank, viewOf_of_blank blank_empty]
    rw [sequences_eq_of_perm hd hs, hids, Operation.onSequences, Function.update_self, hsame,
      sequences, List.length_map]
    exact (filter_writeBack_self hreranked hblank).trans hperm.symm
  · rw [Operation.onSequences, Function.update_of_ne hother]
    exact sequences_congr (filter_writeBack_of_ne hreranked hother)

/-- Changes of one item that leave its keys alone do not show. -/
theorem sequences_updateFirst {id : String} {f : Item → Item} (hd : DistinctIds store.items)
    (hf : ∀ item : Item, item.SameKey (f item)) :
    sequences { store with items := updateFirst id f store.items } = store.sequences := by
  funext listId
  have hkey : ∀ item : Item, item.SameKey (if item.id = id then f item else item) := by
    intro item
    split
    · exact hf item
    · exact ⟨rfl, rfl, rfl⟩
  rw [sequences, sequences, view, view, updateFirst_eq_map hd, viewOf_map hkey blank_empty,
    List.map_map]
  exact List.map_congr_left fun item _ => (hkey item).1

theorem sequences_removeItem {id : String} (hd : DistinctIds store.items)
    (h : store.perform (.removeItem id) = .ok store') :
    store'.sequences = (Operation.removeItem id).onSequences store.sequences := by
  obtain rfl := removeItem_cases h
  funext listId
  -- where ids are distinct, erasing and filtering are the same
  have hids := (hd.viewOf listId "").erase_eq_filter id
  simp only [Operation.onSequences, sequences, view, eraseP_eq_filter hd, viewOf_filter hd, hids,
    List.filter_map]
  rfl

theorem sequences_removeList {id : String} (h : store.perform (.removeList id) = .ok store') :
    store'.sequences = (Operation.removeList id).onSequences store.sequences := by
  obtain ⟨-, -, rfl⟩ := removeList_cases h
  funext listId
  by_cases hid : listId = id
  · subst hid
    have hempty : (store.items.filter fun item => !decide (item.listId = listId)).filter
        (fun item => item.listId = listId) = [] := by
      rw [List.filter_filter, List.filter_eq_nil_iff]
      simp
    rw [Operation.onSequences, Function.update_self, sequences, view, viewOf_of_blank blank_empty,
      hempty, sortItems, List.mergeSort_nil, List.map_nil]
  · rw [Operation.onSequences, Function.update_of_ne hid]
    apply sequences_congr
    rw [List.filter_filter]
    refine List.filter_congr fun item _ => ?_
    by_cases hitem : item.listId = listId
    · simp [hitem, hid]
    · simp [hitem]

/-! ### Runs -/

/-- What a run of list operations is promised at each of its steps. -/
structure ListLike (store : Store) (op : Operation) : Prop where
  fresh : op.FreshItem store
  unfiltered : op.Unfiltered
  roomy : Roomy store

/-- **One step is one list operation.** -/
theorem sequences_step {op : Operation} (hd : DistinctIds store.items)
    (hop : ListLike store op) : (store.step op).sequences = store.follow op store.sequences := by
  have hd' := distinctIds_step hd hop.fresh
  cases h : store.perform op with
  | error e => rw [step_of_error h, follow, h]
  | ok store' =>
    rw [step_of_ok h] at hd' ⊢
    rw [follow, h]
    cases op with
    | addItem => exact sequences_addItem hd' hop.roomy h
    | moveItem => exact sequences_moveItem hd' hop.unfiltered hop.roomy h
    | setComplete | toggleComplete | setSummary =>
      obtain rfl := updateItem_cases h
      exact sequences_updateFirst hd fun _ => ⟨rfl, rfl, rfl⟩
    | removeItem => exact sequences_removeItem hd h
    | addList =>
      obtain ⟨_, -, rfl⟩ := addList_cases h
      rfl
    | renameList =>
      obtain ⟨_, -, rfl⟩ := renameList_cases h
      rfl
    | removeList => exact sequences_removeList h
    | ensureInbox =>
      obtain rfl := Except.ok.inj h
      exact funext fun listId => sequences_congr (by rw [withInbox]; split <;> rfl)
    | touch =>
      obtain rfl := Except.ok.inj h
      rfl

theorem sequences_run_of_along {ops : List Operation} (hd : DistinctIds store.items)
    (hops : Along ListLike store ops) :
    (store.run ops).sequences = store.followAll ops store.sequences := by
  induction ops generalizing store with
  | nil => rfl
  | cons op ops ih =>
    obtain ⟨hop, hrest⟩ := hops
    rw [run_cons, followAll, ← sequences_step hd hop]
    exact ih (distinctIds_step hd hop.fresh) hrest

/-- **Precedences implement plain lists.**  After each step of a run, the ids of every list stand
in the order that the list operations up to there give them. -/
theorem sequences_run {store : Store} (hd : DistinctIds store.items) {ops : List Operation}
    (hops : Along ListLike store ops) (n : Nat) (listId : String) :
    ((store.run (ops.take n)).view listId "").map Item.id =
      store.followAll (ops.take n) (fun other => (store.view other "").map Item.id) listId :=
  congrFun (sequences_run_of_along hd (hops.take n)) listId

/-- Bread goes after milk and is then moved to the front. -/
theorem sequences_run_shopping :
    let ops : List Operation := [.addItem inboxId "milk" Selection.empty "m",
      .addItem inboxId "bread" (Selection.ofIndex 0) "b", .moveItem inboxId " " "b" 0]
    DistinctIds initial.items ∧ Along ListLike initial ops ∧
      ((initial.run (ops.take 3)).view inboxId "").map Item.id = ["b", "m"] := by
  intro ops
  have hd : DistinctIds initial.items := List.nodup_nil
  have hops : Along ListLike initial ops :=
    ⟨⟨by decide, trivial, roomy_of_length_le (by decide)⟩,
      ⟨by decide +kernel, trivial, roomy_of_length_le (by decide +kernel)⟩,
      ⟨trivial, by decide, roomy_of_length_le (by decide +kernel)⟩, trivial⟩
  refine ⟨hd, hops, ?_⟩
  have hlist : inboxId ∈ initial.lists.map TodoList.id := by decide
  have hlist' : inboxId ∈ (initial.run (ops.take 1)).lists.map TodoList.id := by decide
  -- the bread is in the list by the time it is moved
  have hbread : ∃ item ∈ (initial.run (ops.take 2)).items,
      item.id = "b" ∧ item.listId = inboxId := by decide +kernel
  obtain ⟨item, hitem, hid, hinbox⟩ := hbread
  have hblank : Blank " " := by decide
  have hview := (mem_viewOf_of_blank hblank).mpr ⟨hitem, hinbox⟩
  rw [sequences_run hd hops 3 inboxId]
  show initial.followAll ops _ inboxId = _
  rw [followAll, followAll, followAll, followAll, follow_of_accepted, follow_of_accepted,
    follow_of_accepted]
  · decide +kernel
  · exact fun e he => he.1 hlist
  · exact fun e he => he.1 hlist'
  · rintro e (⟨hnot, -⟩ | ⟨-, hnot, -⟩)
    · exact hnot (List.mem_map.mpr ⟨item, hitem, hid⟩)
    · exact hnot (List.mem_map.mpr ⟨item, hview, hid⟩)

end Store

end Agenda

/-
Agenda/Proofs/Store/Separation.lean

Lists do not interfere.  All items live in one storage, and placing an item may
renumber many of them, but an operation that is aimed at one list works on the
part of the store that belongs to this list,

    part a (step op store)  =  step op (part a store)       op aimed at a
    part a (step op store)  =  part a store                 op aimed at another list

(`part_step_self`, `part_step_of_ne`), whether it succeeds or not.  So in any
interleaving of the operations of two people, each at a list of their own, the
part of a list is what its own operations make of it (`part_run`), and each of
the two finds what they would have found alone (`items_run_interleaved`).
-/
import Agenda.Proofs.Store.Step

namespace Agenda

open Search

/-! ### Operations of two people -/

/-- The third list has the elements of the first and those of the second, each in their order. -/
inductive Interleaved {α : Type} : List α → List α → List α → Prop
  | nil : Interleaved [] [] []
  | left (a : α) {as bs cs : List α} : Interleaved as bs cs → Interleaved (a :: as) bs (a :: cs)
  | right (b : α) {as bs cs : List α} : Interleaved as bs cs → Interleaved as (b :: bs) (b :: cs)

namespace Interleaved

variable {α : Type} {as bs cs : List α}

theorem symm (h : Interleaved as bs cs) : Interleaved bs as cs := by
  induction h with
  | nil => exact .nil
  | left a _ ih => exact .right a ih
  | right b _ ih => exact .left b ih

theorem alone (as : List α) : Interleaved as [] as := by
  induction as with
  | nil => exact .nil
  | cons a as ih => exact .left a ih

theorem perm (h : Interleaved as bs cs) : cs.Perm (as ++ bs) := by
  induction h with
  | nil => exact .nil
  | left a _ ih => exact ih.cons a
  | right b _ ih => exact (ih.cons b).trans List.perm_middle.symm

end Interleaved

/-- The operation works on the list with this id, or on an item with one of the `ids`. -/
def Operation.AimedAt (listId : String) (ids : List String) : Operation → Prop
  | .addItem target _ _ _ | .moveItem target _ _ _ | .removeList target => target = listId
  | .setComplete id _ | .toggleComplete id | .setSummary id _ | .removeItem id => id ∈ ids
  | .addList .. | .renameList .. | .ensureInbox | .touch .. => False

instance (listId : String) (ids : List String) :
    (op : Operation) → Decidable (op.AimedAt listId ids)
  | .addItem target _ _ _ | .moveItem target _ _ _ | .removeList target =>
    inferInstanceAs (Decidable (target = listId))
  | .setComplete id _ | .toggleComplete id | .setSummary id _ | .removeItem id =>
    inferInstanceAs (Decidable (id ∈ ids))
  | .addList .. | .renameList .. | .ensureInbox | .touch .. => inferInstanceAs (Decidable False)

theorem filter_eraseP {α : Type} {p q : α → Bool} (h : ∀ a, p a = true → q a = false)
    (l : List α) : (l.eraseP p).filter q = l.filter q := by
  induction l with
  | nil => rfl
  | cons a l ih =>
    rw [List.eraseP_cons]
    cases hp : p a with
    | true => rw [cond_true, List.filter_cons_of_neg (by simp [h a hp])]
    | false => rw [cond_false, List.filter_cons, List.filter_cons, ih]

namespace Store

variable {store : Store} {listId : String}

/-! ### The part of one list -/

/-- The store as if there were no other lists than the one with this id. -/
def part (store : Store) (listId : String) : Store :=
  { store with
    lists := store.lists.filter fun list => list.id = listId
    items := store.items.filter fun item => item.listId = listId }

@[simp] theorem spacing_part (store : Store) (listId : String) :
    (store.part listId).spacing = store.spacing := rfl

theorem items_part (store : Store) (listId : String) :
    (store.part listId).items = store.items.filter fun item => item.listId = listId := rfl

@[simp] theorem hasList_part (store : Store) (listId : String) :
    (store.part listId).hasList listId = store.hasList listId := by
  rw [hasList, hasList, part, List.any_filter]
  exact congrArg (List.any store.lists) (funext fun list => Bool.and_self _)

theorem distinctIds_part (hd : DistinctIds store.items) (listId : String) :
    DistinctIds (store.part listId).items :=
  hd.sublist List.filter_sublist

/-- A view looks at its own list only. -/
@[simp] theorem view_part (store : Store) (listId search : String) :
    (store.part listId).view listId search = store.view listId search := by
  rw [view, view, viewOf, viewOf, items_part, List.filter_filter]
  congr 1
  refine List.filter_congr fun item _ => ?_
  cases hadmits : (Query.parse search).admits listId item with
  | false => rw [Bool.false_and]
  | true => rw [Bool.true_and, listId_of_admits hadmits, decide_eq_true rfl]

@[simp] theorem placedItem_part (store : Store) (listId summary : String) (after : Selection)
    (newId : String) :
    (store.part listId).placedItem listId summary after newId =
      store.placedItem listId summary after newId := by
  rw [placedItem, placedItem, view_part, spacing_part]

/-- Writing a view back, seen in its own list. -/
theorem filter_writeBack (hd : DistinctIds store.items) {search : String} {view : List Item}
    (h : List.Forall₂ Item.Reranked (store.view listId search) view) :
    (writeBack store.items ((slotsOf store.items listId search).map Prod.snd) view).filter
        (fun item => item.listId = listId) =
      writeBack (store.part listId).items
        ((slotsOf (store.part listId).items listId search).map Prod.snd) view := by
  have hpart : List.Forall₂ Item.Reranked ((store.part listId).view listId search) view := by
    rwa [view_part]
  rw [writeBack_eq_map_within hd h, writeBack_eq_map_within (distinctIds_part hd listId) hpart,
    List.filter_map, items_part]
  congr 1
  refine List.filter_congr fun item hitem => ?_
  rw [Function.comp_apply, (reranked_within hd h hitem).listId_eq]

/-- Changing items leaves them in their lists. -/
theorem part_map {g : Item → Item} (hg : ∀ item, (g item).listId = item.listId) (store : Store)
    (listId : String) :
    ({ store with items := store.items.map g } : Store).part listId =
      { store.part listId with items := (store.part listId).items.map g } := by
  have hfilter : (fun item : Item => decide (item.listId = listId)) ∘ g =
      fun item => decide (item.listId = listId) := by
    funext item
    rw [Function.comp_apply, hg]
  rw [part, part, List.filter_map, hfilter]

theorem listId_ite {f : Item → Item} (hf : ∀ item, (f item).listId = item.listId) (id : String)
    (item : Item) : (if item.id = id then f item else item).listId = item.listId := by
  split
  · exact hf item
  · rfl

/-! ### One step -/

/-- **An operation works on the part of its own list.** -/
theorem part_step_self (hd : DistinctIds store.items) {ids : List String} {op : Operation}
    (hop : op.AimedAt listId ids) :
    (store.step op).part listId = (store.part listId).step op := by
  have hdPart := distinctIds_part hd listId
  cases op with
  | addItem target summary after newId =>
    obtain rfl : target = listId := hop
    rw [step_addItem, step_addItem, hasList_part]
    split
    · rw [placedItem_part, ← filter_writeBack hd (store.reranked_placedItem target _ _ _), part,
        List.filter_append, List.filter_singleton, listId_placedItem, decide_eq_true rfl]
      rfl
    · rfl
  | moveItem target search id index =>
    obtain rfl : target = listId := hop
    rw [step_moveItem, step_moveItem, view_part, spacing_part]
    cases hmoved : store.spacing.reorder (store.view target search) id index with
    | none => rfl
    | some moved =>
      have hview := store.spacing.reranked_of_reorder hmoved
      dsimp only
      rw [← filter_writeBack hd hview]
      rfl
  | setComplete id | toggleComplete id | setSummary id =>
    rw [step_updateItem_of_distinct hd rfl, step_updateItem_of_distinct hdPart rfl, part_map]
    refine listId_ite ?_ id
    exact fun _ => rfl
  | removeItem id =>
    rw [step_removeItem_of_distinct hd, step_removeItem_of_distinct hdPart, part, part,
      List.filter_comm]
  | removeList target =>
    obtain rfl : target = listId := hop
    rw [step_removeList, step_removeList, hasList_part]
    split
    · rw [part, part]
      simp only [List.filter_comm, List.eraseP_filter, Bool.and_self]
    · rfl
  | addList | renameList | ensureInbox | touch => exact hop.elim

section Other

variable {other : String}

/-- Changing an item of another list. -/
theorem part_update_of_forall_ne {id : String} {f : Item → Item}
    (hf : ∀ item, (f item).listId = item.listId)
    (hid : ∀ item ∈ (store.part listId).items, item.id ≠ id) :
    ({ store with
      items := store.items.map fun item => if item.id = id then f item else item } : Store).part
        listId = store.part listId := by
  have hsame : (store.part listId).items.map (fun item => if item.id = id then f item else item) =
      (store.part listId).items :=
    (List.map_congr_left fun item hitem => if_neg (hid item hitem)).trans (List.map_id' _)
  rw [part_map (listId_ite hf id), hsame]

/-- Removing an item of another list. -/
theorem part_remove_of_forall_ne {id : String}
    (hid : ∀ item ∈ (store.part listId).items, item.id ≠ id) :
    ({ store with items := store.items.filter fun item => !decide (item.id = id) } : Store).part
      listId = store.part listId := by
  have hsame : (store.part listId).items.filter (fun item => !decide (item.id = id)) =
      (store.part listId).items := by
    refine List.filter_eq_self.mpr fun item hitem => ?_
    rw [decide_eq_false (hid item hitem), Bool.not_false]
  rw [part, List.filter_comm]
  exact congrArg (fun items => { store.part listId with items }) hsame

/-- Removing another list with its items. -/
theorem part_removeList_of_ne (hne : listId ≠ other) :
    ({ store with
      items := store.items.filter fun item => !decide (item.listId = other)
      lists := store.lists.eraseP fun list => list.id = other } : Store).part listId =
      store.part listId := by
  have hitems : (store.items.filter fun item => !decide (item.listId = other)).filter
      (fun item => item.listId = listId) = (store.part listId).items := by
    rw [List.filter_filter]
    refine List.filter_congr fun item _ => ?_
    by_cases hitem : item.listId = listId <;> simp [hitem, hne]
  have hlists : (store.lists.eraseP fun list => list.id = other).filter
      (fun list => list.id = listId) = (store.part listId).lists :=
    filter_eraseP (fun list hother => by
      rw [of_decide_eq_true hother, decide_eq_false hne.symm]) store.lists
  rw [part, hitems, hlists]
  rfl

/-- **An operation leaves the part of every other list alone.** -/
theorem part_step_of_ne (hd : DistinctIds store.items) (hne : listId ≠ other)
    {ids : List String} (hids : ∀ item ∈ (store.part listId).items, item.id ∉ ids)
    {op : Operation} (hop : op.AimedAt other ids) :
    (store.step op).part listId = store.part listId := by
  have hapart : ∀ id ∈ ids, ∀ item ∈ (store.part listId).items, item.id ≠ id :=
    fun id hid item hitem heq => hids item hitem (heq ▸ hid)
  cases op with
  | addItem target summary after newId =>
    obtain rfl : target = other := hop
    rw [step_addItem]
    split
    · rw [part, List.filter_append,
        filter_writeBack_of_ne (store.reranked_placedItem target _ _ _) hne,
        List.filter_singleton, listId_placedItem, decide_eq_false hne.symm]
      exact congrArg (fun items => { store.part listId with items }) (List.append_nil _)
    · rfl
  | moveItem target search id index =>
    obtain rfl : target = other := hop
    rw [step_moveItem]
    cases hmoved : store.spacing.reorder (store.view target search) id index with
    | none => rfl
    | some moved =>
      dsimp only
      rw [part, filter_writeBack_of_ne (store.spacing.reranked_of_reorder hmoved) hne]
      rfl
  | setComplete id | toggleComplete id | setSummary id =>
    rw [step_updateItem_of_distinct hd rfl]
    refine part_update_of_forall_ne ?_ (hapart id hop)
    exact fun _ => rfl
  | removeItem id =>
    rw [step_removeItem_of_distinct hd]
    exact part_remove_of_forall_ne (hapart id hop)
  | removeList target =>
    obtain rfl : target = other := hop
    rw [step_removeList]
    split
    · exact part_removeList_of_ne hne
    · rfl
  | addList | renameList | ensureInbox | touch => exact hop.elim

end Other

/-! ### Runs -/

/-- The ids of the items that a list has, or that these operations create. -/
def owned (store : Store) (listId : String) (ops : List Operation) : List String :=
  (store.part listId).items.map Item.id ++ ops.flatMap Operation.newIds

variable {a b : String} {opsA opsB ops : List Operation}

/-- Ids that were new before an operation are new after it. -/
theorem nodup_newIds_step {op : Operation}
    (hnew : (store.items.map Item.id ++ (op :: ops).flatMap Operation.newIds).Nodup) :
    ((store.step op).items.map Item.id ++ ops.flatMap Operation.newIds).Nodup := by
  rw [List.flatMap_cons, ← List.append_assoc] at hnew
  exact hnew.sublist ((store.map_id_step_sublist op).append_right _)

/-- **The part of a list is what its own operations make of it.** -/
theorem part_run (hne : a ≠ b) (h : Interleaved opsA opsB ops)
    (hnew : (store.items.map Item.id ++ ops.flatMap Operation.newIds).Nodup)
    {ids others : List String}
    (hA : ∀ op ∈ opsA, op.AimedAt a ids) (hB : ∀ op ∈ opsB, op.AimedAt b others)
    (hdisjoint : ∀ id ∈ store.owned a opsA, id ∉ others) :
    (store.run ops).part a = (store.part a).run opsA := by
  induction h generalizing store with
  | nil => rfl
  | @left op opsA opsB ops h ih =>
    obtain ⟨hop, hA⟩ := List.forall_mem_cons.mp hA
    have hd : DistinctIds store.items := hnew.sublist (List.sublist_append_left _ _)
    have hself := part_step_self hd hop
    rw [run_cons, run_cons, ← hself]
    refine ih (nodup_newIds_step hnew) hA hB fun id hid => hdisjoint id ?_
    rw [owned, hself] at hid
    rw [owned, List.flatMap_cons, ← List.append_assoc]
    exact (((store.part a).map_id_step_sublist op).append_right _).subset hid
  | @right op opsA opsB ops h ih =>
    obtain ⟨hop, hB⟩ := List.forall_mem_cons.mp hB
    have hd : DistinctIds store.items := hnew.sublist (List.sublist_append_left _ _)
    have hother : (store.step op).part a = store.part a :=
      part_step_of_ne hd hne (fun item hitem => hdisjoint item.id
        (List.mem_append_left _ (List.mem_map_of_mem hitem))) hop
    rw [run_cons, ← hother]
    refine ih (nodup_newIds_step hnew) hA hB fun id hid => hdisjoint id ?_
    rwa [owned, hother] at hid

theorem nodup_newIds_of_interleaved (h : Interleaved opsA opsB ops) {ids : List String}
    (hnew : (ids ++ ops.flatMap Operation.newIds).Nodup) :
    (ids ++ (opsA.flatMap Operation.newIds ++ opsB.flatMap Operation.newIds)).Nodup := by
  rw [← List.flatMap_append]
  exact ((h.perm.flatMap_right Operation.newIds).append_left ids).nodup_iff.mp hnew

/-- No id is owned by two lists. -/
theorem notMem_owned (hne : a ≠ b) (h : Interleaved opsA opsB ops)
    (hnew : (store.items.map Item.id ++ ops.flatMap Operation.newIds).Nodup) :
    ∀ id ∈ store.owned a opsA, id ∉ store.owned b opsB := by
  obtain ⟨hd, hnews, hold⟩ := List.nodup_append.mp (nodup_newIds_of_interleaved h hnew)
  obtain ⟨-, -, hapart⟩ := List.nodup_append.mp hnews
  have hmem : ∀ {listId id}, id ∈ (store.part listId).items.map Item.id →
      id ∈ store.items.map Item.id := fun hid => (List.filter_sublist.map Item.id).subset hid
  intro id hA hB
  rcases List.mem_append.mp hA with hA | hA <;> rcases List.mem_append.mp hB with hB | hB
  · obtain ⟨item, hitem, rfl⟩ := List.mem_map.mp hA
    obtain ⟨other, hother, heq⟩ := List.mem_map.mp hB
    obtain ⟨hitem, hlistA⟩ := List.mem_filter.mp hitem
    obtain ⟨hother, hlistB⟩ := List.mem_filter.mp hother
    obtain rfl := DistinctIds.eq_of_id_eq hd hother hitem heq
    exact hne ((of_decide_eq_true hlistA).symm.trans (of_decide_eq_true hlistB))
  · exact hold id (hmem hA) id (List.mem_append_right _ hB) rfl
  · exact hold id (hmem hB) id (List.mem_append_left _ hA) rfl
  · exact hapart id hA id hB rfl

/-- **Each list ends up as its own operations leave it.** -/
theorem items_run_left (hne : a ≠ b) (h : Interleaved opsA opsB ops)
    (hnew : (store.items.map Item.id ++ ops.flatMap Operation.newIds).Nodup)
    (hA : ∀ op ∈ opsA, op.AimedAt a (store.owned a opsA))
    (hB : ∀ op ∈ opsB, op.AimedAt b (store.owned b opsB)) :
    (store.run ops).items.filter (fun item => item.listId = a) =
      (store.run opsA).items.filter fun item => item.listId = a := by
  have hboth := part_run hne h hnew hA hB (notMem_owned hne h hnew)
  have halone : (store.run opsA).part a = (store.part a).run opsA := by
    have hnewA := (nodup_newIds_of_interleaved h hnew).sublist
      ((List.sublist_append_left _ _).append_left _)
    exact part_run hne (.alone opsA) hnewA hA (List.forall_mem_nil _) fun _ _ => List.not_mem_nil
  exact congrArg items (hboth.trans halone.symm)

/-- **Lists do not interfere.**  Of two people each works at a list of their own: on the list, on
items that it has at the start, or on items created there, and the ids of new items are new.  In
whatever order their operations come, the items of each list end up, in storage order, as if the
other person had not been there. -/
theorem items_run_interleaved (hne : a ≠ b) (h : Interleaved opsA opsB ops)
    (hnew : (store.items.map Item.id ++ ops.flatMap Operation.newIds).Nodup)
    (hA : ∀ op ∈ opsA, op.AimedAt a (store.owned a opsA))
    (hB : ∀ op ∈ opsB, op.AimedAt b (store.owned b opsB)) :
    (store.run ops).items.filter (fun item => item.listId = a) =
        (store.run opsA).items.filter (fun item => item.listId = a) ∧
      (store.run ops).items.filter (fun item => item.listId = b) =
        (store.run opsB).items.filter fun item => item.listId = b :=
  ⟨items_run_left hne h hnew hA hB, items_run_left hne.symm h.symm hnew hB hA⟩

/-- An inbox with little room and a list at home. -/
def household : Store where
  lists := [TodoList.inbox, { id := "home", name := "Home" }]
  items := [{ id := "milk", listId := inboxId, summary := "Milk", precedence := 1 },
    { id := "roof", listId := "home", summary := "Mend the roof", precedence := 1 },
    { id := "salt", listId := inboxId, summary := "Salt", precedence := 2 }]

/-- While one renumbers the inbox, the other removes the list at home and fails to add to it. -/
theorem items_run_interleaved_household :
    let shopping : List Operation := [.addItem inboxId "Bread" (Selection.ofIndex 0) "bread",
      .moveItem inboxId "s" "salt" 0, .removeItem "milk", .setComplete "milk" true]
    let moving : List Operation := [.toggleComplete "roof", .removeList "home",
      .addItem "home" "Paint" Selection.empty "paint"]
    let both : List Operation := [.toggleComplete "roof",
      .addItem inboxId "Bread" (Selection.ofIndex 0) "bread", .removeList "home",
      .moveItem inboxId "s" "salt" 0, .removeItem "milk",
      .addItem "home" "Paint" Selection.empty "paint", .setComplete "milk" true]
    (inboxId ≠ "home" ∧ Interleaved shopping moving both ∧
      (household.items.map Item.id ++ both.flatMap Operation.newIds).Nodup ∧
      (∀ op ∈ shopping, op.AimedAt inboxId (household.owned inboxId shopping)) ∧
      ∀ op ∈ moving, op.AimedAt "home" (household.owned "home" moving)) ∧
      (household.run both).items.filter (fun item => item.listId = inboxId) =
          (household.run shopping).items.filter (fun item => item.listId = inboxId) ∧
        (household.run both).items.filter (fun item => item.listId = "home") =
          (household.run moving).items.filter fun item => item.listId = "home" := by
  intro shopping moving both
  have hne : inboxId ≠ "home" := by decide
  have hboth : Interleaved shopping moving both :=
    .right _ (.left _ (.right _ (.left _ (.left _ (.right _ (.left _ .nil))))))
  have hnew : (household.items.map Item.id ++ both.flatMap Operation.newIds).Nodup := by decide
  have hshopping : ∀ op ∈ shopping, op.AimedAt inboxId (household.owned inboxId shopping) := by
    decide
  have hmoving : ∀ op ∈ moving, op.AimedAt "home" (household.owned "home" moving) := by decide
  exact ⟨⟨hne, hboth, hnew, hshopping, hmoving⟩,
    items_run_interleaved hne hboth hnew hshopping hmoving⟩

end Store

end Agenda

/-
Agenda/Proofs/Store/Operation.lean

Runs of the store.  An operation is one action with its arguments, the ids of
what it creates included.  `perform` is the action itself; `step` goes on with
the old store where the action fails; `run` takes one step after another.

What a run is promised about its operations, a fresh id for instance, depends
on the store each of them meets.  `Along ok store ops` says that `ok` holds at
every step of the run, and `Along.run` is the induction over such runs: what
every promised step preserves holds at the end.

The lemmas `…_cases` say, once for each action, what it does where it
succeeds.
-/
import Agenda.Store.Action
import Agenda.Proofs.View

namespace Agenda

/-- An action on the store with its arguments. -/
inductive Operation where
  | addItem (listId summary : String) (after : Selection) (newId : String)
  | moveItem (listId search id : String) (target : Nat)
  | setComplete (id : String) (isComplete : Bool)
  | toggleComplete (id : String)
  | setSummary (id summary : String)
  | removeItem (id : String)
  | addList (name newId : String)
  | renameList (id name : String)
  | removeList (id : String)
  | ensureInbox
  | touch (now : Timestamp)
deriving DecidableEq

namespace Store

/-! ### Steps and runs -/

/-- Does what an operation says, if that is possible. -/
def perform (store : Store) : Operation → Except StoreError Store
  | .addItem listId summary after newId =>
    (store.addItem listId summary after newId).map Prod.fst
  | .moveItem listId search id target => (store.moveItem listId search id target).map Prod.fst
  | .setComplete id isComplete => (store.setComplete id isComplete).map Prod.fst
  | .toggleComplete id => (store.toggleComplete id).map Prod.fst
  | .setSummary id summary => (store.setSummary id summary).map Prod.fst
  | .removeItem id => (store.removeItem id).map Prod.fst
  | .addList name newId => (store.addList name newId).map Prod.fst
  | .renameList id name => (store.renameList id name).map Prod.fst
  | .removeList id => (store.removeList id).map Prod.fst
  | .ensureInbox => .ok store.withInbox
  | .touch now => .ok (store.stamped now)

/-- The store after an operation; it stays as it is if the operation fails. -/
def step (store : Store) (op : Operation) : Store :=
  match store.perform op with
  | .ok store' => store'
  | .error _ => store

/-- The store after some operations, one after another. -/
def run (store : Store) (ops : List Operation) : Store :=
  ops.foldl step store

@[simp] theorem run_nil (store : Store) : store.run [] = store := rfl

@[simp] theorem run_cons (store : Store) (op : Operation) (ops : List Operation) :
    store.run (op :: ops) = (store.step op).run ops := rfl

theorem step_of_ok {store store' : Store} {op : Operation} (h : store.perform op = .ok store') :
    store.step op = store' := by
  rw [step, h]

theorem step_of_error {store : Store} {op : Operation} {e : StoreError}
    (h : store.perform op = .error e) : store.step op = store := by
  rw [step, h]

/-- A property that successful operations preserve is preserved by every step. -/
theorem step_preserves {P : Store → Prop} {store : Store} {op : Operation} (h : P store)
    (hok : ∀ store', store.perform op = .ok store' → P store') : P (store.step op) := by
  cases hp : store.perform op with
  | ok store' => rw [step_of_ok hp]; exact hok store' hp
  | error e => rw [step_of_error hp]; exact h

/-- `ok` holds of every operation of a run and the store it meets. -/
def Along (ok : Store → Operation → Prop) : Store → List Operation → Prop
  | _, [] => True
  | store, op :: ops => ok store op ∧ Along ok (store.step op) ops

instance instDecidableAlong {ok : Store → Operation → Prop} [∀ store op, Decidable (ok store op)] :
    (store : Store) → (ops : List Operation) → Decidable (Along ok store ops)
  | _, [] => inferInstanceAs (Decidable True)
  | store, op :: ops =>
    @instDecidableAnd (ok store op) (Along ok (store.step op) ops) inferInstance
      (instDecidableAlong (store.step op) ops)

/-- What is promised along a run is promised along its beginnings. -/
theorem Along.take {ok : Store → Operation → Prop} {store : Store} {ops : List Operation}
    (h : Along ok store ops) (n : Nat) : Along ok store (ops.take n) := by
  induction ops generalizing store n with
  | nil => rw [List.take_nil]; exact h
  | cons op ops ih =>
    cases n with
    | zero => exact trivial
    | succ n => exact ⟨h.1, ih h.2 n⟩

/-- **Induction over runs.** -/
theorem Along.run {ok : Store → Operation → Prop} {P : Store → Prop}
    (hstep : ∀ store op, P store → ok store op → P (store.step op)) {store : Store}
    {ops : List Operation} (halong : Along ok store ops) (h : P store) : P (store.run ops) := by
  induction ops generalizing store with
  | nil => exact h
  | cons op ops ih =>
    obtain ⟨hop, hrest⟩ := halong
    exact ih hrest (hstep store op h hop)

/-! ### What an action does where it succeeds -/

theorem map_fst_eq_ok {α : Type} {result : Except StoreError (Store × α)} {store' : Store} :
    result.map Prod.fst = .ok store' ↔ ∃ a, result = .ok (store', a) := by
  cases result with
  | error e => simp [Except.map]
  | ok pair =>
    obtain ⟨store'', a⟩ := pair
    simp [Except.map]

variable {store store' : Store}

theorem hasList_iff {id : String} :
    store.hasList id = true ↔ id ∈ store.lists.map TodoList.id := by
  rw [hasList, List.any_eq_true, List.mem_map]
  exact exists_congr fun list => and_congr_right fun _ => decide_eq_true_iff

/-- The view of a list with the item that a new one is made of, as `addItem` places it. -/
def placedItem (store : Store) (listId summary : String) (after : Selection) (newId : String) :
    Placement × Item × List Item :=
  store.spacing.insertAt (store.view listId "")
    { id := newId, listId, summary := Text.trim summary }
    (after.insertionIndex (store.view listId "").length)

theorem addItem_cases {listId summary newId : String} {after : Selection}
    (h : store.perform (.addItem listId summary after newId) = .ok store') :
    store.hasList listId = true ∧
      store' = { store with
        items := writeBack store.items ((slotsOf store.items listId "").map Prod.snd)
            (store.placedItem listId summary after newId).2.2 ++
          [(store.placedItem listId summary after newId).2.1] } := by
  obtain ⟨a, h⟩ := map_fst_eq_ok.mp h
  rw [addItem] at h
  split at h
  · next hlist =>
    dsimp only at h
    rw [length_slotsOf, map_fst_slotsOf] at h
    obtain ⟨h, -⟩ := Prod.mk.inj (Except.ok.inj h)
    exact ⟨hlist, h.symm⟩
  · cases h

theorem moveItem_eq_ok {listId search id : String} {target : Nat} {placement : Placement}
    (h : store.moveItem listId search id target = .ok (store', placement)) :
    ∃ view, store.spacing.reorder (store.view listId search) id target =
        some (placement, view) ∧
      store' = { store with
        items := writeBack store.items ((slotsOf store.items listId search).map Prod.snd)
          view } := by
  rw [moveItem] at h
  split at h
  · cases h
  · dsimp only at h
    rw [map_fst_slotsOf] at h
    split at h
    · cases h
    · next _ view hview =>
      obtain ⟨hstore, rfl⟩ := Prod.mk.inj (Except.ok.inj h)
      exact ⟨view, hview, hstore.symm⟩

theorem moveItem_cases {listId search id : String} {target : Nat}
    (h : store.perform (.moveItem listId search id target) = .ok store') :
    ∃ placement view, store.spacing.reorder (store.view listId search) id target =
        some (placement, view) ∧
      store' = { store with
        items := writeBack store.items ((slotsOf store.items listId search).map Prod.snd)
          view } := by
  obtain ⟨placement, h⟩ := map_fst_eq_ok.mp h
  exact ⟨placement, moveItem_eq_ok h⟩

theorem updateItem_cases {id : String} {f : Item → Item}
    (h : (store.updateItem id f).map Prod.fst = .ok store') :
    store' = { store with items := updateFirst id f store.items } := by
  obtain ⟨a, h⟩ := map_fst_eq_ok.mp h
  rw [updateItem] at h
  split at h
  · cases h
  · exact (Prod.mk.inj (Except.ok.inj h)).1.symm

theorem removeItem_cases {id : String} (h : store.perform (.removeItem id) = .ok store') :
    store' = { store with items := store.items.eraseP fun item => item.id = id } := by
  obtain ⟨a, h⟩ := map_fst_eq_ok.mp h
  rw [removeItem] at h
  split at h
  · cases h
  · exact (Prod.mk.inj (Except.ok.inj h)).1.symm

theorem addList_cases {name newId : String}
    (h : store.perform (.addList name newId) = .ok store') :
    ∃ checked, checkListName name = .ok checked ∧
      store' = { store with lists := store.lists ++ [{ id := newId, name := checked }] } := by
  obtain ⟨a, h⟩ := map_fst_eq_ok.mp h
  rw [addList] at h
  cases hname : checkListName name with
  | error e => rw [hname] at h; cases h
  | ok checked =>
    rw [hname] at h
    exact ⟨checked, rfl, (Prod.mk.inj (Except.ok.inj h)).1.symm⟩

theorem renameList_cases {id name : String}
    (h : store.perform (.renameList id name) = .ok store') :
    ∃ checked, checkListName name = .ok checked ∧
      store' = { store with lists := renameFirst id checked store.lists } := by
  obtain ⟨a, h⟩ := map_fst_eq_ok.mp h
  rw [renameList] at h
  cases hname : checkListName name with
  | error e => rw [hname] at h; cases h
  | ok checked =>
    rw [hname, Except.bind] at h
    split at h
    · cases h
    · exact ⟨checked, rfl, (Prod.mk.inj (Except.ok.inj h)).1.symm⟩

theorem removeList_cases {id : String} (h : store.perform (.removeList id) = .ok store') :
    id ≠ inboxId ∧ store.hasList id = true ∧
      store' = { store with
        items := store.items.filter fun item => !decide (item.listId = id)
        lists := store.lists.eraseP fun list => list.id = id } := by
  obtain ⟨a, h⟩ := map_fst_eq_ok.mp h
  rw [removeList] at h
  split at h
  · cases h
  · next list hfind =>
    split at h
    · cases h
    · next hid =>
      have hlist := List.find?_some hfind
      refine ⟨hid, ?_, (Prod.mk.inj (Except.ok.inj h)).1.symm⟩
      exact List.any_eq_true.mpr ⟨list, List.mem_of_find?_eq_some hfind, hlist⟩

end Store

end Agenda

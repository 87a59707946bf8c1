/-
Agenda/Proofs/Store/Refusal.lean

When an operation fails.  `Operation.Refused` says, one operation after
another, what a store must lack for an operation to fail and which error it
fails with.  Nothing is asked of the store: ids may be shared, and items may
be in lists that do not exist.  An operation that is carried out in place
fails in these cases and no others, and the store that it then leaves is the
one it found:

    op fails with e on store and leaves store'  ↔  op refused with e, store' = store

(`fails_iff_refused`).
-/
import Agenda.Proofs.Order.Landing
import Agenda.Proofs.Store.InPlace

namespace Agenda

open Text

/-- The text cannot be made the name of a list. -/
def NameRefused (name : String) (e : StoreError) : Prop :=
  trim name = "" ∧ e = .invalidListName name .missing ∨
    25 < (trim name).length ∧ e = .invalidListName name .tooLong

/-- The store cannot do what the operation says, and `e` tells why. -/
def Operation.Refused (store : Store) : Operation → StoreError → Prop
  | .addItem listId _ _ _, e =>
    listId ∉ store.lists.map TodoList.id ∧ e = .listNotFound listId none
  | .moveItem listId search id _, e =>
    id ∉ store.items.map Item.id ∧ e = .itemNotFound id ∨
      id ∈ store.items.map Item.id ∧ id ∉ (store.view listId search).map Item.id ∧
        e = .notInView id
  | .setComplete id _, e | .toggleComplete id, e | .setSummary id _, e | .removeItem id, e =>
    id ∉ store.items.map Item.id ∧ e = .itemNotFound id
  | .addList name _, e => NameRefused name e
  | .renameList id name, e =>
    NameRefused name e ∨
      trim name ≠ "" ∧ (trim name).length ≤ 25 ∧ id ∉ store.lists.map TodoList.id ∧
        e = .listNotFound id none
  | .removeList id, e =>
    id ∉ store.lists.map TodoList.id ∧ e = .listNotFound id none ∨
      id = inboxId ∧ ∃ list, (store.lists.find? fun list => list.id = id) = some list ∧
        e = .protectedList list.name
  | .ensureInbox, _ | .touch _, _ => False

/-! ### Names -/

theorem checkListName_eq_error_iff {name : String} {e : StoreError} :
    checkListName name = .error e ↔ NameRefused name e := by
  simp only [checkListName, NameRefused, maxListName, String.isEmpty_iff]
  by_cases hempty : trim name = ""
  · simp [hempty, eq_comm]
  · by_cases hlong : 25 < (trim name).length
    · simp [hempty, hlong, eq_comm]
    · simp [hempty, hlong]

theorem checkListName_eq_ok_iff {name checked : String} :
    checkListName name = .ok checked ↔
      trim name ≠ "" ∧ (trim name).length ≤ 25 ∧ checked = trim name := by
  simp only [checkListName, maxListName, String.isEmpty_iff]
  by_cases hempty : trim name = ""
  · simp [hempty]
  · by_cases hlong : 25 < (trim name).length
    · simp [hempty, hlong]
    · simp [hempty, hlong, eq_comm, Nat.not_lt.mp hlong]

/-! ### Actions -/

namespace Store

variable {store : Store} {id : String} {e : StoreError}

theorem item?_eq_none_iff : store.item? id = none ↔ id ∉ store.items.map Item.id := by
  simp [item?]

theorem findList?_eq_none_iff :
    (store.lists.find? fun list => list.id = id) = none ↔ id ∉ store.lists.map TodoList.id := by
  simp

theorem map_fst_eq_error {α : Type} {result : Except StoreError (Store × α)} :
    result.map Prod.fst = .error e ↔ result = .error e := by
  cases result <;> simp [Except.map]

theorem addItem_eq_error_iff {listId summary newId : String} {after : Selection} :
    store.addItem listId summary after newId = .error e ↔
      listId ∉ store.lists.map TodoList.id ∧ e = .listNotFound listId none := by
  rw [← hasList_iff, addItem]
  split
  · next h => simp [h]
  · next h => simp [h, eq_comm]

theorem moveItem_eq_error_iff {listId search : String} {target : Nat} :
    store.moveItem listId search id target = .error e ↔
      id ∉ store.items.map Item.id ∧ e = .itemNotFound id ∨
        id ∈ store.items.map Item.id ∧ id ∉ (store.view listId search).map Item.id ∧
          e = .notInView id := by
  have hview := store.spacing.reorder_eq_none_iff (store.view listId search) id target
  cases hfind : store.item? id with
  | none =>
    have hnot := item?_eq_none_iff.mp hfind
    simp [moveItem, hfind, hnot, eq_comm]
  | some item =>
    have hmem : id ∈ store.items.map Item.id := by
      by_contra hnot
      rw [item?_eq_none_iff.mpr hnot] at hfind
      cases hfind
    rw [← hview, moveItem, hfind]
    dsimp only
    rw [map_fst_slotsOf, ← view]
    cases store.spacing.reorder (store.view listId search) id target with
    | none => simp [hmem, eq_comm]
    | some moved => simp [hmem]

theorem updateItem_eq_error_iff {f : Item → Item} :
    store.updateItem id f = .error e ↔
      id ∉ store.items.map Item.id ∧ e = .itemNotFound id := by
  rw [← item?_eq_none_iff, updateItem]
  cases store.item? id <;> simp [eq_comm]

theorem removeItem_eq_error_iff :
    store.removeItem id = .error e ↔ id ∉ store.items.map Item.id ∧ e = .itemNotFound id := by
  rw [← item?_eq_none_iff, removeItem]
  cases store.item? id <;> simp [eq_comm]

theorem addList_eq_error_iff {name newId : String} :
    store.addList name newId = .error e ↔ NameRefused name e := by
  rw [← checkListName_eq_error_iff, addList]
  cases checkListName name <;> simp [Except.map]

theorem renameList_eq_error_iff {name : String} :
    store.renameList id name = .error e ↔
      NameRefused name e ∨
        trim name ≠ "" ∧ (trim name).length ≤ 25 ∧ id ∉ store.lists.map TodoList.id ∧
          e = .listNotFound id none := by
  rw [← checkListName_eq_error_iff, ← findList?_eq_none_iff, renameList]
  cases hname : checkListName name with
  | error fault =>
    have hnot : ¬ (trim name ≠ "" ∧ (trim name).length ≤ 25) := by
      rintro ⟨hne, hle⟩
      rw [checkListName_eq_ok_iff.mpr ⟨hne, hle, rfl⟩] at hname
      cases hname
    rw [← and_assoc]
    simp [Except.bind, hnot]
  | ok checked =>
    obtain ⟨hne, hle, rfl⟩ := checkListName_eq_ok_iff.mp hname
    simp only [Except.bind]
    cases store.lists.find? fun list => list.id = id with
    | none => simp [hne, hle, eq_comm]
    | some list => simp

theorem removeList_eq_error_iff :
    store.removeList id = .error e ↔
      id ∉ store.lists.map TodoList.id ∧ e = .listNotFound id none ∨
        id = inboxId ∧ ∃ list, (store.lists.find? fun list => list.id = id) = some list ∧
          e = .protectedList list.name := by
  rw [← findList?_eq_none_iff, removeList]
  cases store.lists.find? fun list => list.id = id with
  | none => simp [eq_comm]
  | some list =>
    by_cases hid : id = inboxId
    · simp [hid, eq_comm]
    · simp [hid]

/-! ### Operations -/

theorem perform_eq_error_iff {op : Operation} :
    store.perform op = .error e ↔ op.Refused store e := by
  cases op with
  | addItem => rw [perform, map_fst_eq_error, addItem_eq_error_iff, Operation.Refused]
  | moveItem => rw [perform, map_fst_eq_error, moveItem_eq_error_iff, Operation.Refused]
  | setComplete | toggleComplete | setSummary =>
    exact map_fst_eq_error.trans updateItem_eq_error_iff
  | removeItem => rw [perform, map_fst_eq_error, removeItem_eq_error_iff, Operation.Refused]
  | addList => rw [perform, map_fst_eq_error, addList_eq_error_iff, Operation.Refused]
  | renameList => rw [perform, map_fst_eq_error, renameList_eq_error_iff, Operation.Refused]
  | removeList => rw [perform, map_fst_eq_error, removeList_eq_error_iff, Operation.Refused]
  | ensureInbox | touch =>
    refine iff_of_false (fun h => ?_) not_false
    cases h

/-- **An operation fails exactly when it is refused, and then it has changed nothing.** -/
theorem fails_iff_refused (store store' : Store) (op : Operation) (e : StoreError) :
    op.inPlace.run store = .error e store' ↔ op.Refused store e ∧ store' = store := by
  rw [inPlace_eq_error_iff, perform_eq_error_iff]

end Store

end Agenda

/-
Agenda/Proofs/Program/Action.lean

Commands are operations.  A command on the store first finds the lists and the
items that its words stand for, and it fails if it does not find them; what is
left are operations on ids (`StoreCommand.operations`).  The answer of a command
agrees with its operations (`StoreCommand.agrees`):

* whatever the command does to the store, they do one after another;
* a command that does not ask for a save leaves the store as it is;
* a command that fails stands for operations that change nothing.

Commands on several items find all of them first, and none of their operations
can fail then: the ids are there, and removals leave the other ids alone.
-/
import Agenda.Program.Action
import Agenda.Proofs.Store.MoveEffect

namespace Agenda

/-! ### Operations of commands -/

/-- What a command on lists does to the store, on ids. -/
def ListsCommand.operations (command : ListsCommand) (scope : Scope) (store : Store) :
    Except StoreError (List Operation) :=
  match command with
  | .overview => .ok []
  | .add name => .ok [.addList name scope.newId]
  | .rename word name => do
    let list ← store.resolveList word
    return [.renameList list.id name]
  | .delete word => do
    let list ← store.resolveList word
    return [.removeList list.id]

/-- What a command does to the store, on ids. -/
def StoreCommand.operations (command : StoreCommand) (scope : Scope) (store : Store) :
    Except StoreError (List Operation) :=
  match command with
  | .list _ => .ok []
  | .add summary after =>
    let selection := match after with
      | some index => Selection.ofIndex index
      | none => Selection.empty
    .ok [.addItem scope.listId summary selection scope.newId]
  | .move word target search => do
    let found ← store.resolveItem word
    return [.moveItem scope.listId search found.id target]
  | .done words => do
    let found ← store.resolveItems words
    return found.map fun item => .setComplete item.id true
  | .reopen words => do
    let found ← store.resolveItems words
    return found.map fun item => .setComplete item.id false
  | .edit word summary => do
    let found ← store.resolveItem word
    return [.setSummary found.id summary]
  | .delete words => do
    let found ← store.resolveItems words
    return (Store.distinct found).map fun item => .removeItem item.id
  | .lists command => command.operations scope store

namespace Store

variable {store : Store}

/-! ### Finding items -/

theorem mem_of_resolveItem {word : String} {item : Item} (h : store.resolveItem word = .ok item) :
    item ∈ store.items := by
  rw [resolveItem] at h
  split at h
  · next found hfind =>
    obtain rfl := Except.ok.inj h
    exact List.mem_of_find?_eq_some hfind
  · split at h
    · cases h
    · split at h
      · cases h
      · next found hfilter =>
        obtain rfl := Except.ok.inj h
        have hmem : found ∈ store.items.filter (startsWith (Text.trim word)) := by
          rw [hfilter]
          exact List.mem_singleton_self found
        exact (List.mem_filter.mp hmem).1
      · cases h

theorem mem_of_mem_resolveItems {words : List String} {items : List Item}
    (h : store.resolveItems words = .ok items) : ∀ item ∈ items, item ∈ store.items := by
  rw [resolveItems] at h
  induction words generalizing items with
  | nil =>
    obtain rfl := Except.ok.inj h
    exact fun item hitem => absurd hitem List.not_mem_nil
  | cons word words ih =>
    rw [List.mapM_cons] at h
    cases hword : store.resolveItem word with
    | error e => rw [hword] at h; cases h
    | ok first =>
      cases hwords : words.mapM store.resolveItem with
      | error e => rw [hword, hwords] at h; cases h
      | ok others =>
        rw [hword, hwords] at h
        obtain rfl := Except.ok.inj h
        exact List.forall_mem_cons.mpr ⟨mem_of_resolveItem hword, ih hwords⟩

theorem mem_map_id_of_mem_resolveItems {words : List String} {items : List Item}
    (h : store.resolveItems words = .ok items) :
    ∀ id ∈ items.map Item.id, id ∈ store.items.map Item.id := by
  intro id hid
  obtain ⟨item, hitem, rfl⟩ := List.mem_map.mp hid
  exact List.mem_map_of_mem (mem_of_mem_resolveItems h item hitem)

theorem item?_isSome {id : String} (h : id ∈ store.items.map Item.id) :
    ∃ item, store.item? id = some item := by
  obtain ⟨item, hitem, hid⟩ := List.mem_map.mp h
  exact Option.isSome_iff_exists.mp (List.find?_isSome.mpr ⟨item, hitem, decide_eq_true hid⟩)

/-- Keeping each id once: the ids are distinct, and they are those of the items. -/
theorem distinct_spec (items : List Item) :
    ((distinct items).map Item.id).Nodup ∧ ∀ item ∈ distinct items, item ∈ items := by
  have hfold : ∀ seen : List Item, (seen.map Item.id).Nodup →
      ((items.foldl (fun seen item =>
          if seen.any fun other => other.id = item.id then seen else seen ++ [item]) seen).map
        Item.id).Nodup ∧
      ∀ item ∈ items.foldl (fun seen item =>
          if seen.any fun other => other.id = item.id then seen else seen ++ [item]) seen,
        item ∈ seen ∨ item ∈ items := by
    induction items with
    | nil => exact fun seen hseen => ⟨hseen, fun item hitem => .inl hitem⟩
    | cons first items ih =>
      intro seen hseen
      rw [List.foldl_cons]
      split
      · obtain ⟨hnodup, hmem⟩ := ih seen hseen
        exact ⟨hnodup, fun item hitem => (hmem item hitem).imp_right (List.mem_cons_of_mem first)⟩
      · next hnew =>
        rw [Bool.not_eq_true, List.any_eq_false] at hnew
        have hseen' : ((seen ++ [first]).map Item.id).Nodup := by
          rw [List.map_append, List.map_singleton, List.nodup_append]
          refine ⟨hseen, List.nodup_singleton _, fun id hid other hother heq => ?_⟩
          obtain ⟨item, hitem, rfl⟩ := List.mem_map.mp hid
          exact hnew item hitem (decide_eq_true (heq.trans (List.mem_singleton.mp hother)))
        obtain ⟨hnodup, hmem⟩ := ih _ hseen'
        refine ⟨hnodup, fun item hitem => ?_⟩
        rcases hmem item hitem with hold | hrest
        · rcases List.mem_append.mp hold with hold | hfirst
          · exact .inl hold
          · exact .inr (List.mem_singleton.mp hfirst ▸ List.mem_cons_self)
        · exact .inr (List.mem_cons_of_mem first hrest)
  obtain ⟨hnodup, hmem⟩ := hfold [] List.nodup_nil
  exact ⟨hnodup, fun item hitem => (hmem item hitem).resolve_left List.not_mem_nil⟩

/-! ### Several items -/

theorem setComplete_of_mem {id : String} (isComplete : Bool)
    (h : id ∈ store.items.map Item.id) :
    ∃ store' item, store.setComplete id isComplete = .ok (store', item) ∧
      store.step (.setComplete id isComplete) = store' ∧
      store'.items.map Item.id = store.items.map Item.id := by
  obtain ⟨item, hitem⟩ := item?_isSome h
  cases hset : store.setComplete id isComplete with
  | error e =>
    rw [setComplete, updateItem, hitem] at hset
    cases hset
  | ok result =>
    have hperform : store.perform (.setComplete id isComplete) = .ok result.1 := by
      rw [perform, hset]
      rfl
    refine ⟨result.1, result.2, rfl, step_of_ok hperform, ?_⟩
    rw [updateItem_cases hperform]
    refine map_updateFirst Item.id ?_ store.items
    exact fun _ => rfl

theorem removeItem_of_mem {id : String} (h : id ∈ store.items.map Item.id) :
    ∃ store' item, store.removeItem id = .ok (store', item) ∧
      store.step (.removeItem id) = store' ∧
      ∀ other ∈ store.items.map Item.id, other ≠ id → other ∈ store'.items.map Item.id := by
  obtain ⟨item, hitem⟩ := item?_isSome h
  cases hremove : store.removeItem id with
  | error e =>
    rw [removeItem, hitem] at hremove
    cases hremove
  | ok result =>
    have hperform : store.perform (.removeItem id) = .ok result.1 := by
      rw [perform, hremove]
      rfl
    refine ⟨result.1, result.2, rfl, step_of_ok hperform, fun other hother hne => ?_⟩
    obtain ⟨kept, hkept, rfl⟩ := List.mem_map.mp hother
    rw [removeItem_cases hperform]
    exact List.mem_map_of_mem ((List.mem_eraseP_of_neg (by simpa using hne)).mpr hkept)

/-- Items that are there can all be marked. -/
theorem setAllComplete_of_mem (isComplete : Bool) {ids : List String}
    (h : ∀ id ∈ ids, id ∈ store.items.map Item.id) :
    ∃ items, store.setAllComplete isComplete ids =
      .ok (store.run (ids.map fun id => .setComplete id isComplete), items) := by
  induction ids generalizing store with
  | nil => exact ⟨[], rfl⟩
  | cons id ids ih =>
    obtain ⟨hid, hids⟩ := List.forall_mem_cons.mp h
    obtain ⟨store', item, hset, hstep, hsame⟩ := setComplete_of_mem isComplete hid
    obtain ⟨items, hrest⟩ := ih (hsame ▸ hids)
    refine ⟨item :: items, ?_⟩
    rw [setAllComplete, hset, List.map_cons, run_cons, hstep]
    show (store'.setAllComplete isComplete ids >>= fun result => _) = _
    rw [hrest]
    rfl

/-- Items that are there, each of them once, can all be removed. -/
theorem removeAll_of_mem {ids : List String} (hnodup : ids.Nodup)
    (h : ∀ id ∈ ids, id ∈ store.items.map Item.id) :
    store.removeAll ids = .ok (store.run (ids.map .removeItem)) := by
  induction ids generalizing store with
  | nil => rfl
  | cons id ids ih =>
    obtain ⟨hnot, hnodup⟩ := List.nodup_cons.mp hnodup
    obtain ⟨hid, hids⟩ := List.forall_mem_cons.mp h
    obtain ⟨store', item, hremove, hstep, hkept⟩ := removeItem_of_mem hid
    have hrest := ih hnodup fun other hother =>
      hkept other (hids other hother) (ne_of_mem_of_not_mem hother hnot)
    rw [removeAll, hremove, List.map_cons, run_cons, hstep, ← hrest]
    rfl

/-! ### Answers and operations -/

/-- The store after some operations, or as it is if there is none to do. -/
def carriedOut (store : Store) : Except StoreError (List Operation) → Store
  | .ok ops => store.run ops
  | .error _ => store

/-- The answer of a command agrees with operations: the store it leads to is what they make of the
store, it differs only if it has to be saved, and a failure stands for operations that change
nothing. -/
structure Agrees (store : Store) (answer : Except StoreError Step)
    (operations : Except StoreError (List Operation)) : Prop where
  /-- A command that succeeds does the operations. -/
  of_ok : ∀ step, answer = .ok step → step.store = store.carriedOut operations ∧
    (step.saves = false → step.store = store)
  /-- A command that fails stands for no change. -/
  of_error : ∀ e, answer = .error e → store.carriedOut operations = store

/-- A command that only tells something. -/
theorem Agrees.tell {outline : Outline} {events : List LogEvent} :
    store.Agrees (.ok { store, saves := false, outline, events }) (.ok []) := by
  refine ⟨fun step h => ?_, nofun⟩
  obtain rfl := Except.ok.inj h
  exact ⟨rfl, fun _ => rfl⟩

/-- What is found first decides about both. -/
theorem Agrees.bind {α : Type} {found : Except StoreError α} {next : α → Except StoreError Step}
    {ops : α → Except StoreError (List Operation)}
    (h : ∀ a, found = .ok a → store.Agrees (next a) (ops a)) :
    store.Agrees (found >>= next) (found >>= ops) := by
  cases found with
  | ok a => exact h a rfl
  | error e =>
    refine ⟨fun step hstep => ?_, fun _ _ => rfl⟩
    have herror : Except.error e = Except.ok step := hstep
    cases herror

/-- A command that does one operation and then tells what it did. -/
theorem Agrees.perform {α : Type} {result : Except StoreError (Store × α)} {op : Operation}
    (hop : store.perform op = result.map Prod.fst) {next : Store × α → Except StoreError Step}
    (hnext : ∀ pair, result = .ok pair → ∃ step, next pair = .ok step ∧ step.store = pair.1 ∧
      (step.saves = false → pair.1 = store)) :
    store.Agrees (result >>= next) (.ok [op]) := by
  cases hresult : result with
  | ok pair =>
    rw [hresult] at hop
    obtain ⟨step, hstep, hstore, hsaves⟩ := hnext pair hresult
    have hrun : store.run [op] = pair.1 := step_of_ok hop
    refine ⟨fun step' h => ?_, fun e h => ?_⟩
    · obtain rfl : step = step' := Except.ok.inj (hstep.symm.trans h)
      exact ⟨hstore.trans hrun.symm, fun hf => hstore.trans (hsaves hf)⟩
    · cases hstep.symm.trans h
  | error e =>
    rw [hresult] at hop
    refine ⟨fun step hstep => ?_, fun _ _ => step_of_error hop⟩
    have herror : Except.error e = Except.ok step := hstep
    cases herror

/-- A command that does several operations, none of which can fail. -/
theorem Agrees.all {ops : List Operation} {outline : Outline} :
    store.Agrees (.ok { store := store.run ops, outline }) (.ok ops) := by
  refine ⟨fun step h => ?_, nofun⟩
  obtain rfl := Except.ok.inj h
  exact ⟨rfl, nofun⟩

theorem agrees_mark (action : BatchAction) (isComplete : Bool) (words : List String) :
    store.Agrees (store.mark action isComplete words) (do
      let found ← store.resolveItems words
      return found.map fun item => .setComplete item.id isComplete) := by
  refine Agrees.bind fun items hitems => ?_
  obtain ⟨marked, hall⟩ := setAllComplete_of_mem isComplete
    (mem_map_id_of_mem_resolveItems hitems)
  rw [hall, List.map_map]
  exact Agrees.all

end Store

theorem ListsCommand.agrees (command : ListsCommand) (scope : Scope) (store : Store) :
    store.Agrees (command.act scope store) (command.operations scope store) := by
  cases command with
  | overview => exact Store.Agrees.tell
  | add name => exact Store.Agrees.perform rfl fun _ _ => ⟨_, rfl, rfl, nofun⟩
  | rename word name =>
    refine Store.Agrees.bind fun list _ => ?_
    exact Store.Agrees.perform rfl fun _ _ => ⟨_, rfl, rfl, nofun⟩
  | delete word =>
    refine Store.Agrees.bind fun list _ => ?_
    exact Store.Agrees.perform rfl fun _ _ => ⟨_, rfl, rfl, nofun⟩

/-- **The answer of every command agrees with its operations.** -/
theorem StoreCommand.agrees (command : StoreCommand) (scope : Scope) (store : Store) :
    store.Agrees (command.act scope store) (command.operations scope store) := by
  cases command with
  | list search => exact Store.Agrees.tell
  | add summary after => exact Store.Agrees.perform rfl fun _ _ => ⟨_, rfl, rfl, nofun⟩
  | move word target search =>
    refine Store.Agrees.bind fun found _ => ?_
    refine Store.Agrees.perform rfl fun ⟨after, placement⟩ hmove => ⟨_, rfl, rfl, fun hsaves => ?_⟩
    obtain rfl : placement = .unchanged := by simpa using hsaves
    exact Store.eq_of_moveItem_unchanged hmove
  | done words => exact Store.agrees_mark .complete true words
  | reopen words => exact Store.agrees_mark .reopen false words
  | edit word summary =>
    refine Store.Agrees.bind fun found _ => ?_
    exact Store.Agrees.perform rfl fun _ _ => ⟨_, rfl, rfl, nofun⟩
  | delete words =>
    refine Store.Agrees.bind fun found hfound => ?_
    obtain ⟨hnodup, hmem⟩ := Store.distinct_spec found
    have hall := Store.removeAll_of_mem hnodup fun id hid => by
      obtain ⟨item, hitem, rfl⟩ := List.mem_map.mp hid
      exact List.mem_map_of_mem (Store.mem_of_mem_resolveItems hfound item (hmem item hitem))
    show store.Agrees (store.removeAll ((Store.distinct found).map Item.id) >>= _) _
    rw [hall, List.map_map]
    exact Store.Agrees.all
  | lists command => exact command.agrees scope store

end Agenda

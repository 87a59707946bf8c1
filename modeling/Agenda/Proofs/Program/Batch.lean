/-
Agenda/Proofs/Program/Batch.lean

Commands on several items.  The words of such a command are ids or starts of
ids, in any order, and several of them may stand for one item.  All of them are
looked up before the first item is changed, so the command does all of its work
or none of it:

* if a word stands for no item, the command fails with the error of the first
  such word, and store and files are as they were;
* otherwise the items are what the action makes of them, with the set of the
  items that the words stand for in mind (`BatchAction.onItems`).

    items after `done words`    =  items, the chosen ones marked
    items after `delete words`  =  items without the chosen ones

(`batch_all_or_nothing`).  Since nothing but this set counts, the order of the
words and their repetition do not matter.  That no word is looked up late and no
item is removed twice is seen on the operations that the command stands for
(`run_setComplete`, `run_removeItem`).
-/
import Agenda.Proofs.Program.Session

namespace Agenda

/-! ### What the commands mean -/

namespace BatchAction

/-- The command that does this to the items that some words stand for. -/
def command : BatchAction → List String → StoreCommand
  | .complete => .done
  | .reopen => .reopen
  | .delete => .delete

/-- What the action makes of some items of which some are chosen. -/
def onItems (action : BatchAction) (chosen : Item → Prop) [DecidablePred chosen]
    (items : List Item) : List Item :=
  match action with
  | .complete =>
    items.map fun item => if chosen item then { item with isComplete := true } else item
  | .reopen => items.map fun item => if chosen item then { item with isComplete := false } else item
  | .delete => items.filter fun item => ¬ chosen item

/-- Only the choice among the items counts. -/
theorem onItems_congr (action : BatchAction) {chosen chosen' : Item → Prop} [DecidablePred chosen]
    [DecidablePred chosen'] {items : List Item} (h : ∀ item ∈ items, chosen item ↔ chosen' item) :
    action.onItems chosen items = action.onItems chosen' items := by
  cases action with
  | complete | reopen =>
    refine List.map_congr_left fun item hitem => ?_
    simp only [h item hitem]
  | delete =>
    refine List.filter_congr fun item hitem => ?_
    simp only [h item hitem]

end BatchAction

namespace Store

variable {store : Store} {words : List String} {found : List Item}

/-- One of the words stands for the item. -/
def Chosen (store : Store) (words : List String) (item : Item) : Prop :=
  ∃ word ∈ words, store.resolveItem word = .ok item

instance (store : Store) (words : List String) : DecidablePred (store.Chosen words) :=
  fun item => inferInstanceAs (Decidable (∃ word ∈ words, store.resolveItem word = .ok item))

/-! ### Looking up all words -/

theorem resolveItems_cons_of_ok {word : String} {item : Item}
    (h : store.resolveItem word = .ok item) (words : List String) :
    store.resolveItems (word :: words) = (store.resolveItems words).map (item :: ·) := by
  rw [resolveItems, List.mapM_cons, h, resolveItems]
  show (words.mapM store.resolveItem >>= fun items => pure (item :: items)) = _
  cases words.mapM store.resolveItem <;> rfl

/-- If all words stand for items, these items are found. -/
theorem exists_resolveItems (h : ∀ word ∈ words, ∃ item, store.resolveItem word = .ok item) :
    ∃ found, store.resolveItems words = .ok found ∧
      ∀ item, item ∈ found ↔ store.Chosen words item := by
  induction words with
  | nil => exact ⟨[], rfl, fun item => by simp [Chosen]⟩
  | cons word words ih =>
    obtain ⟨⟨first, hfirst⟩, hrest⟩ := List.forall_mem_cons.mp h
    obtain ⟨found, hfound, hmem⟩ := ih hrest
    refine ⟨first :: found, ?_, fun item => ?_⟩
    · rw [resolveItems_cons_of_ok hfirst, hfound]
      rfl
    · rw [List.mem_cons, hmem, Chosen, Chosen, List.exists_mem_cons_iff, hfirst, Except.ok.injEq,
        eq_comm]

/-- **Marks, one after another**: they may fall on one item several times. -/
theorem run_setComplete (hd : DistinctIds store.items) (isComplete : Bool) (ids : List String) :
    store.run (ids.map fun id => .setComplete id isComplete) =
      { store with
        items := store.items.map fun item =>
          if item.id ∈ ids then { item with isComplete } else item } := by
  induction ids generalizing store with
  | nil =>
    show store = { store with items := store.items.map fun item => item }
    rw [List.map_id']
  | cons id ids ih =>
    -- marks keep the ids, and these stay distinct for the marks that follow
    have hids : (store.step (.setComplete id isComplete)).items.map Item.id =
        store.items.map Item.id := by
      rw [step_updateItem_of_distinct hd rfl, List.map_map]
      refine List.map_congr_left fun item _ => ?_
      rw [Function.comp_apply]
      split <;> rfl
    rw [List.map_cons, run_cons, ih (by rw [DistinctIds, hids]; exact hd),
      step_updateItem_of_distinct hd rfl]
    dsimp only
    rw [List.map_map]
    congr 1
    refine List.map_congr_left fun item _ => ?_
    rw [Function.comp_apply]
    by_cases hid : item.id = id
    · -- marking twice is marking once
      rw [if_pos hid, if_pos (List.mem_cons.mpr (.inl hid))]
      split <;> rfl
    · rw [if_neg hid]
      simp only [List.mem_cons, hid, false_or]

/-- **Removals, one after another.** -/
theorem run_removeItem (hd : DistinctIds store.items) (ids : List String) :
    store.run (ids.map .removeItem) =
      { store with items := store.items.filter fun item => ¬ item.id ∈ ids } := by
  induction ids generalizing store with
  | nil =>
    show store = { store with items := store.items.filter fun _ => true }
    rw [List.filter_true]
  | cons id ids ih =>
    have hd' : DistinctIds (store.step (.removeItem id)).items := by
      rw [step_removeItem_of_distinct hd]
      exact hd.sublist List.filter_sublist
    rw [List.map_cons, run_cons, ih hd', step_removeItem_of_distinct hd]
    dsimp only
    rw [List.filter_filter]
    congr 1
    refine List.filter_congr fun item _ => ?_
    by_cases hid : item.id = id <;> simp [hid]

/-- No id gets lost where each id is kept once. -/
theorem id_mem_distinct (items : List Item) :
    ∀ item ∈ items, item.id ∈ (distinct items).map Item.id := by
  have hfold : ∀ seen : List Item, ∀ item ∈ seen ++ items,
      item.id ∈ (items.foldl (fun seen item =>
          if seen.any fun other => other.id = item.id then seen else seen ++ [item]) seen).map
        Item.id := by
    induction items with
    | nil =>
      intro seen item hitem
      rw [List.append_nil] at hitem
      exact List.mem_map_of_mem hitem
    | cons first items ih =>
      intro seen item hitem
      rw [List.foldl_cons]
      rw [List.append_cons] at hitem
      split
      · next hseen =>
        obtain ⟨other, hother, hid⟩ := List.any_eq_true.mp hseen
        rcases List.mem_append.mp hitem with hfront | hrest
        · rcases List.mem_append.mp hfront with hold | hfirst
          · exact ih seen item (List.mem_append_left _ hold)
          · -- an item with the same id was kept before
            rw [List.mem_singleton.mp hfirst, ← of_decide_eq_true hid]
            exact ih seen other (List.mem_append_left _ hother)
        · exact ih seen item (List.mem_append_right _ hrest)
      · exact ih _ item hitem
  exact fun item hitem => hfold [] item hitem

/-- Where ids are distinct, an item is known by its id. -/
theorem id_mem_map_iff (hd : DistinctIds store.items) (hfound : ∀ item ∈ found, item ∈ store.items)
    {item : Item} (hitem : item ∈ store.items) : item.id ∈ found.map Item.id ↔ item ∈ found := by
  refine ⟨fun h => ?_, List.mem_map_of_mem⟩
  obtain ⟨other, hother, hid⟩ := List.mem_map.mp h
  rwa [← hd.eq_of_id_eq (hfound other hother) hitem hid]

/-- The items are found and marked. -/
theorem mark_of_resolveItems (hd : DistinctIds store.items) (action : BatchAction)
    (isComplete : Bool) (hfound : store.resolveItems words = .ok found) :
    ∃ outline, store.mark action isComplete words =
      .ok {
        store := { store with
          items := store.items.map fun item =>
            if item ∈ found then { item with isComplete } else item }
        outline } := by
  have hmem := mem_of_mem_resolveItems hfound
  obtain ⟨items, hall⟩ := setAllComplete_of_mem isComplete (mem_map_id_of_mem_resolveItems hfound)
  have hmarked : (store.items.map fun item =>
        if item.id ∈ found.map Item.id then { item with isComplete } else item) =
      store.items.map fun item => if item ∈ found then { item with isComplete } else item := by
    refine List.map_congr_left fun item hitem => ?_
    simp only [id_mem_map_iff hd hmem hitem]
  refine ⟨.batch action items, ?_⟩
  rw [mark, hfound]
  show (store.setAllComplete isComplete (found.map Item.id) >>= _) = _
  rw [hall, run_setComplete hd, hmarked]
  rfl

theorem id_mem_map_distinct_iff (hd : DistinctIds store.items)
    (hfound : ∀ item ∈ found, item ∈ store.items) {item : Item} (hitem : item ∈ store.items) :
    item.id ∈ (distinct found).map Item.id ↔ item ∈ found := by
  rw [← id_mem_map_iff hd hfound hitem, List.mem_map, List.mem_map]
  constructor
  · rintro ⟨other, hother, hid⟩
    exact ⟨other, (distinct_spec found).2 other hother, hid⟩
  · rintro ⟨other, hother, hid⟩
    exact List.mem_map.mp (hid ▸ id_mem_distinct found other hother)

/-- The items are removed once they are found, each of them once. -/
theorem removeAll_of_resolveItems (hd : DistinctIds store.items)
    (hfound : store.resolveItems words = .ok found) :
    store.removeAll ((distinct found).map Item.id) =
      .ok { store with items := store.items.filter fun item => ¬ item ∈ found } := by
  have hmem := mem_of_mem_resolveItems hfound
  obtain ⟨hnodup, hkept⟩ := distinct_spec found
  have hids : ∀ id ∈ (distinct found).map Item.id, id ∈ store.items.map Item.id := by
    intro id hid
    obtain ⟨item, hitem, rfl⟩ := List.mem_map.mp hid
    exact List.mem_map_of_mem (hmem item (hkept item hitem))
  have hremoved : (store.items.filter fun item => ¬ item.id ∈ (distinct found).map Item.id) =
      store.items.filter fun item => ¬ item ∈ found := by
    refine List.filter_congr fun item hitem => ?_
    simp only [id_mem_map_distinct_iff hd hmem hitem]
  rw [removeAll_of_mem hnodup hids, run_removeItem hd, hremoved]

/-- **A command on several items, once they are found**: it does not fail, and it makes of the items
what the action says. -/
theorem act_of_resolveItems (hd : DistinctIds store.items) (action : BatchAction) (scope : Scope)
    (hfound : store.resolveItems words = .ok found) :
    ∃ outline, (action.command words).act scope store =
      .ok { store := { store with items := action.onItems (· ∈ found) store.items }, outline } := by
  cases action with
  | complete => exact mark_of_resolveItems hd .complete true hfound
  | reopen => exact mark_of_resolveItems hd .reopen false hfound
  | delete =>
    refine ⟨.batch .delete (distinct found), ?_⟩
    show (store.resolveItems words >>= _) = _
    rw [hfound]
    show (store.removeAll ((distinct found).map Item.id) >>= _) = _
    rw [removeAll_of_resolveItems hd hfound]
    rfl

/-- **A command on several items fails** if they are not found, and then it has no operations. -/
theorem act_of_resolveItems_error (action : BatchAction) (scope : Scope) {e : StoreError}
    (h : store.resolveItems words = .error e) :
    (action.command words).act scope store = .error e ∧
      (action.command words).operations scope store = .error e := by
  cases action with
  | complete | reopen =>
    refine ⟨?_, ?_⟩
    · show store.mark _ _ words = _
      rw [mark, h]
      rfl
    · show (store.resolveItems words >>= _) = _
      rw [h]
      rfl
  | delete =>
    refine ⟨?_, ?_⟩ <;>
    · show (store.resolveItems words >>= _) = _
      rw [h]
      rfl

end Store

/-! ### Visits -/

namespace Visit

variable {env : Environment} {settings : Settings} {path : Path} {tree : Tree} {visit : Visit env}
  {store : Store}

/-- **A visit that is not disturbed ends as its command answers.** -/
theorem Undisturbed.outcome_eq (h : visit.Undisturbed settings path tree)
    (hstore : storeAt settings path tree = .ok store) :
    visit.outcome tree =
      endingOf (Manner.of visit.options settings)
        (((visit.command.answer visit.options settings (visit.ids 0) store).map
          Step.outline).mapError .store) := by
  obtain ⟨loaded, hfound, hspacing⟩ := exists_found hstore
  obtain ⟨machine, htree, hclock, hid, hrun⟩ := carryOut_eq visit h.settings_eq h.path_eq
  have hmachine : StoreFile.found machine.tree path = .ok loaded := by rwa [htree]
  have hending := ending_runAt visit.command path visit.options settings hmachine hspacing
  rw [hid] at hending
  have hcalls := h.calls
  rw [outcome, hrun] at hcalls ⊢
  clear hrun
  generalize visit.command.answer visit.options settings (visit.ids 0) store = answer at hending ⊢
  generalize ((visit.command.runAt (m := StateM Machine) path visit.options settings).run machine) =
    ending at hending hcalls ⊢
  cases hending with
  | refused => rfl
  | told => rfl
  | saved => rfl
  | unwritten writing =>
    -- no call that writes has failed
    have hfalse := writing.symm.trans hcalls
    cases hfalse

/-- The visit finds the list to work on, and it asks for an action on the items that some words
stand for. -/
structure Batches (settings : Settings) (path : Path) (tree : Tree) (store : Store)
    (action : BatchAction) (words : List String) (visit : Visit env) : Prop where
  /-- Nothing comes in the way of the visit. -/
  undisturbed : visit.Undisturbed settings path tree
  /-- The list to work on is there. -/
  listed : ∃ list, store.resolveList (listName visit.options settings) = .ok list
  /-- The command. -/
  asks : visit.command = action.command words

namespace Batches

variable {action : BatchAction} {words : List String}

/-- A word stands for no item. -/
theorem refused (h : visit.Batches settings path tree store action words)
    (hstore : storeAt settings path tree = .ok store) {e : StoreError}
    (hwords : store.resolveItems words = .error e) :
    visit.outcome tree = .failed (.store e) visit.options.json ∧
      store.serve settings visit = store ∧ visit.filesAfter tree = tree := by
  obtain ⟨list, hlist⟩ := h.listed
  obtain ⟨hact, hoperations⟩ := Store.act_of_resolveItems_error action
    (scopeIn visit.options (visit.ids 0) list) hwords
  have houtcome : visit.outcome tree = .failed (.store e) visit.options.json := by
    rw [h.undisturbed.outcome_eq hstore, StoreCommand.answer, hlist, h.asks]
    show endingOf _ ((((action.command words).act
      (scopeIn visit.options (visit.ids 0) list) store).map Step.outline).mapError _) = _
    rw [hact]
    rfl
  refine ⟨houtcome, ?_, ?_⟩
  · rw [Store.serve, StoreCommand.steps, hlist, h.asks]
    show store.carriedOut ((action.command words).operations
      (scopeIn visit.options (visit.ids 0) list) store) = _
    rw [hoperations]
    rfl
  · exact (h.undisturbed.serves hstore).2 (by rw [houtcome]; rfl)

/-- All words stand for items. -/
theorem carriedOut (h : visit.Batches settings path tree store action words)
    (hstore : storeAt settings path tree = .ok store) (hd : DistinctIds store.items)
    (hwords : ∀ word ∈ words, ∃ item, store.resolveItem word = .ok item) :
    (∃ output, visit.outcome tree = .done output) ∧
      store.serve settings visit =
        { store with items := action.onItems (store.Chosen words) store.items } ∧
      ∃ after, storeAt settings path (visit.filesAfter tree) = .ok after ∧
        after.lists = store.lists ∧
        after.items = action.onItems (store.Chosen words) store.items := by
  obtain ⟨list, hlist⟩ := h.listed
  obtain ⟨found, hfound, hchosen⟩ := Store.exists_resolveItems hwords
  obtain ⟨outline, hact⟩ := Store.act_of_resolveItems hd action
    (scopeIn visit.options (visit.ids 0) list) hfound
  rw [action.onItems_congr fun item _ => hchosen item] at hact
  have hanswer : visit.command.answer visit.options settings (visit.ids 0) store =
      .ok { store := { store with items := action.onItems (store.Chosen words) store.items },
            outline } := by
    rw [StoreCommand.answer, hlist, h.asks]
    exact hact
  -- the operations of the visit lead to the store of its answer
  have hserve : store.serve settings visit =
      { store with items := action.onItems (store.Chosen words) store.items } :=
    (((visit.command.answer_agrees visit.options settings (visit.ids 0) store).of_ok _
      hanswer).1).symm
  obtain ⟨after, hafter, hsame⟩ := (h.undisturbed.serves hstore).1
  rw [hserve] at hsame
  have hlists := congrArg Store.lists hsame
  have hitems := congrArg Store.items hsame
  refine ⟨⟨(Manner.of visit.options settings).tell outline, ?_⟩, hserve, after, hafter, hlists,
    hitems⟩
  rw [h.undisturbed.outcome_eq hstore, hanswer]
  rfl

end Batches

end Visit

end Agenda

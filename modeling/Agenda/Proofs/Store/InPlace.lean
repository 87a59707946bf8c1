/-
Agenda/Proofs/Store/InPlace.lean

The actions in place do what the actions do.  A program in place checks and
writes step by step and leaves a store also where it fails; an action either
returns a new store or fails.  `settle` is how a program ends that goes along
with an action: with the new store, or with the store as it was and the error.

    (InPlace.moveItem …).run store  =  store.settle (store.moveItem …)

and likewise for every operation (`run_inPlace`).  So no program writes
anything before its last check, and operations in place, one after another,
leave the store that their run leaves (`left_run_inPlace`).

For the view, the bridge is that writing back is one write after another
(`writeBack_cons`): a renumber pass in place is an induction over the
positions that it has yet to come to (`run_renumberFrom`).
-/
import Agenda.Proofs.Store.Operation
import Agenda.Store.InPlace

namespace Agenda

/-- How a program in place ends that does what an action does. -/
def Store.settle {α : Type} (store : Store) :
    Except StoreError (Store × α) → EStateM.Result StoreError Store α
  | .ok (store', a) => .ok a store'
  | .error e => .error e store

/-- The store with other items at the positions of a view. -/
def Store.withView (store : Store) (view : List Nat) (changed : List Item) : Store :=
  { store with items := writeBack store.items view changed }

namespace InPlace

variable {store store' : Store} {id : String}

/-! ### Running -/

section

variable {α β : Type} {x : InPlace α} {f : α → InPlace β}

theorem run_bind_of_ok {a : α} (h : x.run store = .ok a store') :
    (x >>= f).run store = (f a).run store' := by
  rw [EStateM.run_bind, h]

theorem run_bind_of_error {e : StoreError} (h : x.run store = .error e store') :
    (x >>= f).run store = .error e store' := by
  rw [EStateM.run_bind, h]

end

/-! ### Checks -/

theorem run_requireList_bind {β : Type} (f : Unit → InPlace β) :
    (requireList id >>= f).run store =
      if store.hasList id then (f ()).run store else .error (.listNotFound id none) store := by
  have hget : requireList id >>= f = get >>= fun store =>
      (if !store.hasList id then throw (.listNotFound id none) else pure ()) >>= f :=
    bind_assoc ..
  rw [hget, run_bind_of_ok (EStateM.run_get store)]
  cases store.hasList id with
  | false => rfl
  | true => rfl

theorem run_ofExcept_bind {α β : Type} (result : Except StoreError α) (f : α → InPlace β) :
    (ofExcept result >>= f).run store = match result with
      | .ok a => (f a).run store
      | .error e => .error e store := by
  cases result with
  | ok a => rfl
  | error e => rfl

/-! ### Looking up by id -/

section

variable {α : Type} {idOf : α → String} {entries : List α}

theorem map_fst_slot? (idOf : α → String) (id : String) (entries : List α) :
    (slot? idOf id entries).map Prod.fst = entries.find? fun a => idOf a = id := by
  conv_rhs => rw [← List.zipIdx_map_fst 0 entries, List.find?_map]
  rfl

theorem map_snd_slot? (idOf : α → String) (id : String) (entries : List α) :
    (slot? idOf id entries).map Prod.snd = entries.findIdx? fun a => idOf a = id := by
  rw [List.findIdx?_eq_fst_find?_zipIdx]
  rfl

theorem run_find_bind {β : Type} (entriesOf : Store → List α) (fault : StoreError)
    (f : α × Nat → InPlace β) :
    (find idOf entriesOf fault id >>= f).run store =
      match slot? idOf id (entriesOf store) with
      | some slot => (f slot).run store
      | none => .error fault store := by
  cases hslot : slot? idOf id (entriesOf store) with
  | none =>
    have hfind : (find idOf entriesOf fault id).run store = .error fault store := by
      rw [find, run_bind_of_ok (EStateM.run_get store), hslot]
      rfl
    exact run_bind_of_error hfind
  | some slot =>
    have hfind : (find idOf entriesOf fault id).run store = .ok slot store := by
      rw [find, run_bind_of_ok (EStateM.run_get store), hslot]
      rfl
    exact run_bind_of_ok hfind

/-- The slot that is found divides the entries: none before it has the id. -/
theorem append_of_slot? {a : α} {i : Nat} (h : slot? idOf id entries = some (a, i)) :
    ∃ before after, entries = before ++ a :: after ∧ i = before.length ∧ idOf a = id ∧
      ∀ b ∈ before, ¬ idOf b = id := by
  obtain ⟨hid, slots, rest, hslots, hnot⟩ := List.find?_eq_some_iff_append.mp h
  obtain ⟨before, tail, rfl, rfl, htail⟩ := List.zipIdx_eq_append_iff.mp hslots
  obtain ⟨b, after, rfl, hb, -⟩ := List.zipIdx_eq_cons_iff.mp htail.symm
  obtain ⟨rfl, rfl⟩ := Prod.mk.inj hb
  refine ⟨before, after, rfl, Nat.zero_add _, of_decide_eq_true hid, fun c hc => ?_⟩
  obtain ⟨slot, hslot, rfl⟩ : ∃ slot ∈ before.zipIdx, slot.1 = c := by
    rw [← List.zipIdx_map_fst 0 before] at hc
    exact List.mem_map.mp hc
  simpa using hnot slot hslot

end

/-- Changing an entry where it was found is changing the first one with its id. -/
theorem modify_of_slot? {α : Type} {idOf : α → String} {entries : List α} {a : α} {i : Nat}
    (h : slot? idOf id entries = some (a, i)) {f : α → α} {change : List α → List α}
    (hhit : ∀ a entries, idOf a = id → change (a :: entries) = f a :: entries)
    (hmiss : ∀ a entries, ¬ idOf a = id → change (a :: entries) = a :: change entries) :
    entries.modify i f = change entries := by
  obtain ⟨before, after, rfl, rfl, hid, hnot⟩ := append_of_slot? h
  clear h
  induction before with
  | nil => exact (hhit a after hid).symm
  | cons b before ih =>
    obtain ⟨hb, hbefore⟩ := List.forall_mem_cons.mp hnot
    rw [List.cons_append, List.length_cons, List.modify_succ_cons, ih hbefore, hmiss _ _ hb]

theorem modify_eq_updateFirst {items : List Item} {item : Item} {i : Nat}
    (h : slot? Item.id id items = some (item, i)) (f : Item → Item) :
    items.modify i f = Store.updateFirst id f items :=
  modify_of_slot? h (fun _ _ hid => if_pos hid) (fun _ _ hid => if_neg hid)

theorem modify_eq_renameFirst {lists : List TodoList} {list : TodoList} {i : Nat}
    (h : slot? TodoList.id id lists = some (list, i)) (name : String) :
    (lists.modify i fun list => { list with name }) = Store.renameFirst id name lists :=
  modify_of_slot? h (fun _ _ hid => if_pos hid) (fun _ _ hid => if_neg hid)

/-- Removing an entry where it was found is removing the first one with its id. -/
theorem eraseIdx_of_slot? {α : Type} {idOf : α → String} {entries : List α} {a : α} {i : Nat}
    (h : slot? idOf id entries = some (a, i)) :
    entries.eraseIdx i = entries.eraseP fun a => idOf a = id := by
  obtain ⟨before, after, rfl, rfl, hid, hnot⟩ := append_of_slot? h
  rw [List.eraseIdx_append_of_length_le (Nat.le_refl _), Nat.sub_self, List.eraseIdx_cons_zero,
    List.eraseP_append_right _ (by simpa using hnot), List.eraseP_cons, decide_eq_true hid,
    cond_true]

/-! ### Views -/

/-- The positions are different ones, and an item stands at each. -/
structure IsView (items : List Item) (view : List Nat) : Prop where
  nodup : view.Nodup
  lt : ∀ position ∈ view, position < items.length

theorem isView_cons {items : List Item} {position : Nat} {view : List Nat} :
    IsView items (position :: view) ↔
      (∃ item, items[position]? = some item) ∧ position ∉ view ∧ IsView items view := by
  constructor
  · rintro ⟨hnodup, hlt⟩
    obtain ⟨hnot, hview⟩ := List.nodup_cons.mp hnodup
    obtain ⟨hposition, hrest⟩ := List.forall_mem_cons.mp hlt
    exact ⟨⟨_, List.getElem?_eq_getElem hposition⟩, hnot, hview, hrest⟩
  · rintro ⟨⟨item, hitem⟩, hnot, hnodup, hlt⟩
    refine ⟨List.nodup_cons.mpr ⟨hnot, hnodup⟩, List.forall_mem_cons.mpr ⟨?_, hlt⟩⟩
    exact (List.getElem?_eq_some_iff.mp hitem).1

theorem IsView.of_length_eq {items items' : List Item} {view : List Nat} (h : IsView items view)
    (hlen : items'.length = items.length) : IsView items' view where
  nodup := h.nodup
  lt := hlen ▸ h.lt

theorem itemsAt_cons {items : List Item} {position : Nat} {item : Item}
    (h : items[position]? = some item) (view : List Nat) :
    itemsAt items (position :: view) = item :: itemsAt items view := by
  rw [itemsAt, List.filterMap_cons_some h, itemsAt]

theorem itemsAt_set {position : Nat} {view : List Nat} (h : position ∉ view)
    (items : List Item) (item : Item) :
    itemsAt (items.set position item) view = itemsAt items view := by
  refine List.filterMap_congr fun other hother => List.getElem?_set_ne ?_
  exact fun he => h (he ▸ hother)

theorem IsView.length_itemsAt {items : List Item} {view : List Nat} (h : IsView items view) :
    (itemsAt items view).length = view.length := by
  induction view with
  | nil => rfl
  | cons position view ih =>
    obtain ⟨⟨item, hitem⟩, -, hview⟩ := isView_cons.mp h
    rw [itemsAt_cons hitem, List.length_cons, List.length_cons, ih hview]

theorem IsView.getElem?_itemsAt {items : List Item} {view : List Nat} (h : IsView items view)
    {k position : Nat} (hk : view[k]? = some position) :
    (itemsAt items view)[k]? = items[position]? := by
  induction view generalizing k with
  | nil => cases hk
  | cons first view ih =>
    obtain ⟨⟨item, hitem⟩, -, hview⟩ := isView_cons.mp h
    rw [itemsAt_cons hitem]
    cases k with
    | zero =>
      obtain rfl := Option.some.inj hk
      exact hitem.symm
    | succ k => exact ih hview hk

/-! ### Writing back, one write after another -/

section

variable {items changed : List Item} {position : Nat} {view : List Nat}

@[simp] theorem length_writeBack (items : List Item) (view : List Nat) (changed : List Item) :
    (writeBack items view changed).length = items.length := by
  rw [writeBack, List.length_mapIdx]

theorem getElem?_writeBack (items : List Item) (view : List Nat) (changed : List Item) (i : Nat) :
    (writeBack items view changed)[i]? =
      items[i]?.map fun item => ((view.zip changed).lookup i).getD item := by
  rw [writeBack, List.getElem?_mapIdx]

theorem getElem?_writeBack_of_notMem (h : position ∉ view) (items changed : List Item) :
    (writeBack items view changed)[position]? = items[position]? := by
  rw [getElem?_writeBack, lookup_zip_of_notMem h]
  exact Option.map_id_apply

@[simp] theorem writeBack_nil (items changed : List Item) : writeBack items [] changed = items := by
  apply List.ext_getElem?
  exact fun i => getElem?_writeBack_of_notMem List.not_mem_nil items changed

theorem writeBack_cons (h : position ∉ view) (items changed : List Item) (item : Item) :
    writeBack items (position :: view) (item :: changed) =
      writeBack (items.set position item) view changed := by
  apply List.ext_getElem?
  intro i
  rw [getElem?_writeBack, List.zip_cons_cons, List.lookup_cons]
  by_cases hi : i = position
  · subst hi
    rw [getElem?_writeBack_of_notMem h, beq_self_eq_true, List.getElem?_set_self']
    rfl
  · rw [beq_false_of_ne hi, getElem?_writeBack, List.getElem?_set_ne (Ne.symm hi)]

/-- Writing to a position outside of the view may be done before or after. -/
theorem set_writeBack (h : position ∉ view) (items changed : List Item) (item : Item) :
    (writeBack items view changed).set position item =
      writeBack (items.set position item) view changed := by
  apply List.ext_getElem?
  intro i
  by_cases hi : i = position
  · subst hi
    rw [getElem?_writeBack_of_notMem h, List.getElem?_set_self', List.getElem?_set_self',
      getElem?_writeBack_of_notMem h]
  · rw [List.getElem?_set_ne (Ne.symm hi), getElem?_writeBack, getElem?_writeBack,
      List.getElem?_set_ne (Ne.symm hi)]

/-- What was written back can be read. -/
theorem itemsAt_writeBack (h : IsView items view) (hlen : changed.length = view.length) :
    itemsAt (writeBack items view changed) view = changed := by
  induction view generalizing items changed with
  | nil => exact (List.length_eq_zero_iff.mp hlen).symm
  | cons position view ih =>
    cases changed with
    | nil => cases hlen
    | cons item changed =>
      obtain ⟨⟨old, hold⟩, hnot, hview⟩ := isView_cons.mp h
      have hitem : (writeBack (items.set position item) view changed)[position]? = some item := by
        rw [getElem?_writeBack_of_notMem hnot, List.getElem?_set_self', hold]
        rfl
      have hset : IsView (items.set position item) view :=
        hview.of_length_eq (List.length_set ..)
      rw [writeBack_cons hnot, itemsAt_cons hitem, ih hset (Nat.succ.inj hlen)]

/-- Writing back the items that are there changes nothing. -/
theorem writeBack_itemsAt (h : IsView items view) :
    writeBack items view (itemsAt items view) = items := by
  induction view with
  | nil => exact writeBack_nil items _
  | cons position view ih =>
    obtain ⟨⟨item, hitem⟩, hnot, hview⟩ := isView_cons.mp h
    obtain ⟨hlt, rfl⟩ := List.getElem?_eq_some_iff.mp hitem
    rw [itemsAt_cons hitem, writeBack_cons hnot, List.set_getElem_self, ih hview]

/-- One more write to a position of the view. -/
theorem writeBack_set (h : view.Nodup) {k : Nat} (hk : view[k]? = some position)
    (hlen : changed.length = view.length) (item : Item) :
    writeBack items view (changed.set k item) =
      (writeBack items view changed).set position item := by
  induction view generalizing items changed k with
  | nil => cases hk
  | cons first view ih =>
    cases changed with
    | nil => cases hlen
    | cons old changed =>
      obtain ⟨hnot, hview⟩ := List.nodup_cons.mp h
      cases k with
      | zero =>
        obtain rfl := Option.some.inj hk
        rw [List.set_cons_zero, writeBack_cons hnot, writeBack_cons hnot, set_writeBack hnot,
          List.set_set]
      | succ k =>
        rw [List.set_cons_succ, writeBack_cons hnot, writeBack_cons hnot,
          ih hview hk (Nat.succ.inj hlen)]

end

/-! ### The view of a list -/

theorem isView_positionsOf (items : List Item) (listId search : String) :
    IsView items (positionsOf items listId search) where
  nodup := nodup_map_snd_slotsOf items listId search
  lt := by
    intro position hposition
    obtain ⟨slot, hslot, rfl⟩ := List.mem_map.mp hposition
    rw [(slotsOf_perm items listId search).mem_iff] at hslot
    exact List.snd_lt_of_mem_zipIdx (List.mem_filter.mp hslot).1

theorem itemsAt_positionsOf (store : Store) (listId search : String) :
    itemsAt store.items (positionsOf store.items listId search) = store.view listId search := by
  rw [Store.view, ← map_fst_slotsOf, itemsAt, positionsOf, List.filterMap_map,
    ← List.filterMap_eq_map]
  refine List.filterMap_congr fun slot hslot => ?_
  rw [(slotsOf_perm _ listId search).mem_iff] at hslot
  exact List.mem_zipIdx_iff_getElem?.mp (List.mem_filter.mp hslot).1

/-! ### Placing -/

@[simp] theorem withView_itemsAt {view : List Nat} (h : IsView store.items view) :
    store.withView view (itemsAt store.items view) = store := by
  rw [Store.withView, writeBack_itemsAt h]

theorem isView_withView {view : List Nat} (h : IsView store.items view) (changed : List Item) :
    IsView (store.withView view changed).items view :=
  h.of_length_eq (length_writeBack ..)

theorem itemsAt_withView {view : List Nat} (h : IsView store.items view) {changed : List Item}
    (hlen : changed.length = view.length) :
    itemsAt (store.withView view changed).items view = changed :=
  itemsAt_writeBack h hlen

theorem run_readRank (store : Store) (view : List Nat) (index : Option Nat) (fallback : Int64) :
    (readRank view index fallback).run store =
      .ok (rankAt ((itemsAt store.items view).map Item.precedence) index fallback) store := rfl

theorem run_writeRank {position : Nat} {item : Item} (h : store.items[position]? = some item)
    (precedence : Int64) :
    (writeRank position precedence).run store =
      .ok () { store with items := store.items.set position { item with precedence } } := by
  rw [writeRank, EStateM.run_modify, List.modify_eq_set_getElem?, h]
  rfl

theorem withView_cons {position : Nat} {view : List Nat} (h : position ∉ view) (store : Store)
    (item : Item) (changed : List Item) :
    store.withView (position :: view) (item :: changed) =
      ({ store with items := store.items.set position item } : Store).withView view changed := by
  rw [Store.withView, writeBack_cons h, Store.withView]

/-- **The renumber pass in place**: it writes to the rest of the view what the pass has for it. -/
theorem run_renumberFrom (spacing : Spacing) (skip prev : Option Nat) {view : List Nat}
    (h : IsView store.items view) (index : Nat) (value : Int64) :
    (renumberFrom spacing skip prev index value view).run store =
      .ok () (store.withView view (withRanks (itemsAt store.items view)
        (Agenda.renumberFrom spacing skip prev index value
          ((itemsAt store.items view).map Item.precedence)))) := by
  induction view generalizing store index value with
  | nil =>
    rw [Store.withView, writeBack_nil]
    rfl
  | cons position view ih =>
    obtain ⟨⟨item, hitem⟩, hnot, hview⟩ := isView_cons.mp h
    rw [itemsAt_cons hitem, List.map_cons, renumberFrom, Agenda.renumberFrom]
    dsimp only
    split
    · -- the skipped slot keeps its item
      obtain ⟨hlt, rfl⟩ := List.getElem?_eq_some_iff.mp hitem
      rw [ih hview, withRanks_cons, withView_cons hnot, List.set_getElem_self]
    · -- what is written here is not read or written again
      rw [run_bind_of_ok (run_writeRank hitem value),
        ih (hview.of_length_eq (List.length_set ..)), withRanks_cons, withView_cons hnot,
        itemsAt_set hnot]

theorem run_place (spacing : Spacing) {view : List Nat} (h : IsView store.items view)
    (origin : Option Nat) (target : Nat) :
    (place spacing view origin target).run store =
      let room := spacing.roomAt ((itemsAt store.items view).map Item.precedence) origin target
      .ok (room.precedence, room.renumbered)
        (store.withView view (withRanks (itemsAt store.items view) room.ranks)) := by
  rw [place, Spacing.roomAt, List.length_map, h.length_itemsAt]
  obtain ⟨prev, next⟩ := neighbours origin target view.length
  rw [run_bind_of_ok (run_readRank ..), run_bind_of_ok (run_readRank ..)]
  dsimp only
  split
  · have hlen := length_renumberFrom spacing origin prev 0 (saturate spacing.step)
      ((itemsAt store.items view).map Item.precedence)
    rw [List.length_map] at hlen
    have hread := map_precedence_withRanks hlen
    rw [run_bind_of_ok (run_renumberFrom spacing origin prev h ..),
      run_bind_of_ok (run_readRank ..), run_bind_of_ok (run_readRank ..),
      itemsAt_withView h ((length_withRanks hlen).trans h.length_itemsAt), hread]
    rfl
  · rw [withRanks_self, withView_itemsAt h]
    rfl

/-- One more write to an item of a view. -/
theorem run_writeRankAt {view : List Nat} (h : IsView store.items view) {changed : List Item}
    (hlen : changed.length = view.length) {k : Nat} {item : Item} (hitem : changed[k]? = some item)
    (precedence : Int64) :
    (writeRankAt view k precedence).run (store.withView view changed) =
      .ok () (store.withView view (changed.set k { item with precedence })) := by
  obtain ⟨position, hk⟩ : ∃ position, view[k]? = some position := by
    have hlt := (List.getElem?_eq_some_iff.mp hitem).1
    exact ⟨_, List.getElem?_eq_getElem (hlen ▸ hlt)⟩
  have hstored : (store.withView view changed).items[position]? = some item := by
    rw [← (isView_withView h changed).getElem?_itemsAt hk, itemsAt_withView h hlen, hitem]
  rw [writeRankAt, hk]
  dsimp only
  rw [run_writeRank hstored, Store.withView, Store.withView, writeBack_set h.nodup hk hlen]

theorem run_reorder (spacing : Spacing) {view : List Nat} (h : IsView store.items view)
    (id : String) (target : Nat) :
    (reorder spacing view id target).run store =
      match spacing.reorder (itemsAt store.items view) id target with
      | none => .ok none store
      | some (placement, changed) => .ok (some placement) (store.withView view changed) := by
  rw [reorder, run_bind_of_ok (EStateM.run_get store), Spacing.reorder, ← map_snd_slot? Item.id,
    h.length_itemsAt]
  cases hslot : slot? Item.id id (itemsAt store.items view) with
  | none => rfl
  | some slot =>
    obtain ⟨item, origin⟩ := slot
    have hitem : (itemsAt store.items view)[origin]? = some item :=
      List.mem_zipIdx_iff_getElem?.mp (List.mem_of_find?_eq_some hslot)
    dsimp only [Option.map_some]
    split
    · rw [withView_itemsAt h]
      rfl
    · next hne =>
      have hranks := spacing.length_roomAt_ranks (fun he => hne (Option.some.inj he))
        ((itemsAt store.items view).map Item.precedence)
      rw [List.length_map] at hranks
      obtain ⟨hlt, -⟩ := List.getElem?_eq_some_iff.mp hitem
      rw [← hranks] at hlt
      have hrank := getElem?_withRanks hitem (List.getElem?_eq_getElem hlt)
      have hlen := (length_withRanks hranks).trans h.length_itemsAt
      rw [run_bind_of_ok (run_place spacing h ..), withRanks_set hitem]
      dsimp only
      rw [run_bind_of_ok (run_writeRankAt h hlen hrank _)]
      rfl

theorem run_insertAt (spacing : Spacing) {view : List Nat} (h : IsView store.items view)
    (item : Item) (target : Nat) :
    (insertAt spacing view item target).run store =
      let (placement, item, changed) := spacing.insertAt (itemsAt store.items view) item target
      .ok (item, placement) (store.withView view changed) := by
  rw [insertAt, run_bind_of_ok (run_place spacing h ..), Spacing.insertAt, h.length_itemsAt]
  rfl

/-! ### Items -/

theorem run_addItem (store : Store) (listId summary newId : String) (after : Selection) :
    (addItem listId summary after newId).run store =
      store.settle (store.addItem listId summary after newId) := by
  rw [addItem, run_requireList_bind, Store.addItem]
  split
  · have hview := isView_positionsOf store.items listId ""
    rw [run_bind_of_ok (EStateM.run_get store)]
    dsimp only
    rw [run_bind_of_ok (run_insertAt store.spacing hview ..), itemsAt_positionsOf,
      map_fst_slotsOf, positionsOf, List.length_map]
    rfl
  · rfl

theorem run_moveItem (store : Store) (listId search id : String) (target : Nat) :
    (moveItem listId search id target).run store =
      store.settle (store.moveItem listId search id target) := by
  have hreorder := run_reorder store.spacing (isView_positionsOf store.items listId search) id
    target
  rw [itemsAt_positionsOf] at hreorder
  rw [moveItem, findItem, run_find_bind, Store.moveItem, Store.item?, ← map_fst_slot? Item.id]
  cases slot? Item.id id store.items with
  | none => rfl
  | some slot =>
    dsimp only [Option.map_some]
    rw [run_bind_of_ok (EStateM.run_get store), map_fst_slotsOf, ← Store.view]
    -- whether the item is in the view is seen before anything is written
    cases hmoved : store.spacing.reorder (store.view listId search) id target with
    | none =>
      rw [hmoved] at hreorder
      rw [run_bind_of_ok hreorder]
      rfl
    | some moved =>
      rw [hmoved] at hreorder
      rw [run_bind_of_ok hreorder]
      rfl

theorem run_updateItem (store : Store) (id : String) (f : Item → Item) :
    (updateItem id f).run store = store.settle (store.updateItem id f) := by
  rw [updateItem, findItem, run_find_bind, Store.updateItem, Store.item?,
    ← map_fst_slot? Item.id]
  cases hslot : slot? Item.id id store.items with
  | none => rfl
  | some slot =>
    dsimp only [Option.map_some]
    rw [run_bind_of_ok (EStateM.run_modify ..), modify_eq_updateFirst hslot]
    rfl

theorem run_removeItem (store : Store) (id : String) :
    (removeItem id).run store = store.settle (store.removeItem id) := by
  rw [removeItem, findItem, run_find_bind, Store.removeItem, Store.item?,
    ← map_fst_slot? Item.id]
  cases hslot : slot? Item.id id store.items with
  | none => rfl
  | some slot =>
    dsimp only [Option.map_some]
    rw [run_bind_of_ok (EStateM.run_modify ..), eraseIdx_of_slot? hslot]
    rfl

/-! ### Lists -/

theorem run_addList (store : Store) (name newId : String) :
    (addList name newId).run store = store.settle (store.addList name newId) := by
  rw [addList, run_ofExcept_bind, Store.addList]
  cases checkListName name with
  | error e => rfl
  | ok checked => rfl

theorem run_renameList (store : Store) (id name : String) :
    (renameList id name).run store = store.settle (store.renameList id name) := by
  rw [renameList, run_ofExcept_bind, Store.renameList]
  cases checkListName name with
  | error e => rfl
  | ok checked =>
    dsimp only [Except.bind]
    rw [findList, run_find_bind, ← map_fst_slot? TodoList.id]
    cases hslot : slot? TodoList.id id store.lists with
    | none => rfl
    | some slot =>
      dsimp only [Option.map_some]
      rw [run_bind_of_ok (EStateM.run_modify ..), modify_eq_renameFirst hslot]
      rfl

theorem run_removeList (store : Store) (id : String) :
    (removeList id).run store = store.settle (store.removeList id) := by
  rw [removeList, Store.removeList, findList, run_find_bind, ← map_fst_slot? TodoList.id]
  cases hslot : slot? TodoList.id id store.lists with
  | none => rfl
  | some slot =>
    dsimp only [Option.map_some]
    split
    · rfl
    · rw [← eraseIdx_of_slot? hslot]
      rfl

end InPlace

/-! ### Operations -/

/-- What an operation does to a store in place. -/
def Operation.inPlace : Operation → InPlace Unit
  | .addItem listId summary after newId => discard (InPlace.addItem listId summary after newId)
  | .moveItem listId search id target => discard (InPlace.moveItem listId search id target)
  | .setComplete id isComplete => discard (InPlace.setComplete id isComplete)
  | .toggleComplete id => discard (InPlace.toggleComplete id)
  | .setSummary id summary => discard (InPlace.setSummary id summary)
  | .removeItem id => discard (InPlace.removeItem id)
  | .addList name newId => discard (InPlace.addList name newId)
  | .renameList id name => discard (InPlace.renameList id name)
  | .removeList id => discard (InPlace.removeList id)
  | .ensureInbox => modify Store.withInbox
  | .touch now => modify fun store => store.stamped now

namespace Store

/-- The store that a program leaves, whether it fails or not. -/
def left {α : Type} : EStateM.Result StoreError Store α → Store
  | .ok _ store => store
  | .error _ store => store

theorem run_discard_of_settle {α : Type} {x : InPlace α} {store : Store}
    {result : Except StoreError (Store × α)} (h : x.run store = store.settle result) :
    (discard x).run store = match result.map Prod.fst with
      | .ok store' => .ok () store'
      | .error e => .error e store := by
  have hbind : (discard x).run store = (x >>= fun _ => pure ()).run store := rfl
  rw [hbind, EStateM.run_bind, h]
  cases result with
  | ok pair => rfl
  | error e => rfl

/-- **An operation in place does what the operation does**, and leaves the store as it was where
it fails. -/
theorem run_inPlace (store : Store) (op : Operation) :
    op.inPlace.run store = match store.perform op with
      | .ok store' => .ok () store'
      | .error e => .error e store := by
  cases op with
  | addItem => rw [Operation.inPlace, perform, run_discard_of_settle (InPlace.run_addItem ..)]
  | moveItem => rw [Operation.inPlace, perform, run_discard_of_settle (InPlace.run_moveItem ..)]
  | setComplete | toggleComplete | setSummary =>
    exact run_discard_of_settle (InPlace.run_updateItem ..)
  | removeItem =>
    rw [Operation.inPlace, perform, run_discard_of_settle (InPlace.run_removeItem ..)]
  | addList => rw [Operation.inPlace, perform, run_discard_of_settle (InPlace.run_addList ..)]
  | renameList =>
    rw [Operation.inPlace, perform, run_discard_of_settle (InPlace.run_renameList ..)]
  | removeList =>
    rw [Operation.inPlace, perform, run_discard_of_settle (InPlace.run_removeList ..)]
  | ensureInbox | touch => rfl

theorem inPlace_eq_error_iff {store store' : Store} {op : Operation} {e : StoreError} :
    op.inPlace.run store = .error e store' ↔ store.perform op = .error e ∧ store' = store := by
  rw [run_inPlace]
  cases store.perform op with
  | ok store'' => simp
  | error fault => simp [eq_comm]

/-- What a run of operations in place leaves is the store after their run. -/
theorem left_run_inPlace (store : Store) (ops : List Operation) :
    ops.foldl (fun store op => left (op.inPlace.run store)) store = store.run ops := by
  have hstep : (fun store op => left (Operation.inPlace op |>.run store)) = step := by
    funext store op
    rw [run_inPlace, step]
    cases store.perform op with
    | ok store' => rfl
    | error e => rfl
  rw [hstep, run]

end Store

end Agenda

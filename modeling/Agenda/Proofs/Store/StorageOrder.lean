/-
Agenda/Proofs/Store/StorageOrder.lean

The order of items in storage never shows.  Items are stored in the order of
their creation, and whatever is looked up or displayed starts from there: the
first item with an id, the items whose ids start alike, views with their ties.
And yet two stores that differ in nothing but this order give the same replies
to the same requests, however many,

    replies store'  =  replies store

and still differ in nothing else afterwards (`replies_of_perm`).

A new id may be the id of an old item, so ids do not stay distinct.  What one
request hands on to the next is that items with the same id are stored in the
same order (`Reordered`).
-/
import Agenda.Proofs.Order.Rearranged
import Agenda.Proofs.Store.Step
import Agenda.Store.Lookup

namespace Agenda

open Search

/-! ### Requests -/

/-- What a store is asked to show or to do. -/
inductive Request where
  | view (listId search : String)
  | counts (listId : String)
  | resolveItem (start : String)
  | perform (op : Operation)
deriving DecidableEq

/-- What comes back. -/
inductive Reply where
  | view (items : List Item)
  | counts (all done : Nat)
  | item (item : Item)
  | added (item : Item) (placement : Placement)
  | moved (placement : Placement)
  | list (list : TodoList)
  | removedList (list : TodoList) (items : Nat)
  | done
  | refused (error : StoreError)
deriving DecidableEq

/-- The reply that a result is passed on in. -/
def Reply.of {α : Type} (reply : α → Reply) : Except StoreError α → Reply
  | .ok result => reply result
  | .error e => .refused e

namespace Store

/-- What an operation replies. -/
def replyTo (store : Store) : Operation → Reply
  | .addItem listId summary after newId =>
    .of (fun (item, placement) => .added item placement)
      ((store.addItem listId summary after newId).map Prod.snd)
  | .moveItem listId search id target =>
    .of .moved ((store.moveItem listId search id target).map Prod.snd)
  | .setComplete id isComplete => .of .item ((store.setComplete id isComplete).map Prod.snd)
  | .toggleComplete id => .of .item ((store.toggleComplete id).map Prod.snd)
  | .setSummary id summary => .of .item ((store.setSummary id summary).map Prod.snd)
  | .removeItem id => .of .item ((store.removeItem id).map Prod.snd)
  | .addList name newId => .of .list ((store.addList name newId).map Prod.snd)
  | .renameList id name => .of .list ((store.renameList id name).map Prod.snd)
  | .removeList id =>
    .of (fun (list, items) => .removedList list items) ((store.removeList id).map Prod.snd)
  | .ensureInbox | .touch _ => .done

/-- What a request replies. -/
def reply (store : Store) : Request → Reply
  | .view listId search => .view (store.view listId search)
  | .counts listId => .counts (store.counts listId).1 (store.counts listId).2
  | .resolveItem start => .of .item (store.resolveItem start)
  | .perform op => store.replyTo op

/-- The store after a request. -/
def after (store : Store) : Request → Store
  | .perform op => store.step op
  | .view .. | .counts .. | .resolveItem .. => store

/-- The replies to some requests, one after another. -/
def replies : Store → List Request → List Reply
  | _, [] => []
  | store, request :: requests => store.reply request :: replies (store.after request) requests

/-- The store after some requests. -/
def afterAll (store : Store) (requests : List Request) : Store :=
  requests.foldl after store

end Store

/-! ### Rearranged storage -/

section Storage

variable {items items' view : List Item}

theorem viewOf_eq_of_rearranged (h : Rearranged Item.id items items') (listId search : String) :
    viewOf items' listId search = viewOf items listId search :=
  (sortItems_eq_of_rearranged (h.filter _) fun _ _ heq => (Item.compare_eq_eq_iff.mp heq).2).symm

/-- Other names for the positions change nothing. -/
theorem lookup_zip_map {σ : Nat → Nat} (hσ : σ.Injective) (positions : List Nat)
    (view : List Item) (i : Nat) :
    ((positions.map σ).zip view).lookup (σ i) = (positions.zip view).lookup i := by
  induction positions generalizing view with
  | nil => rfl
  | cons p positions ih =>
    cases view with
    | nil => rfl
    | cons item view =>
      rw [List.map_cons, List.zip_cons_cons, List.zip_cons_cons, List.lookup_cons,
        List.lookup_cons, ih]
      by_cases hp : i = p
      · simp [hp]
      · rw [beq_false_of_ne hp, beq_false_of_ne (hσ.ne hp)]

/-- The view of rearranged storage has the same slots, up to the names of their positions. -/
theorem slotsOf_eq_map {σ : Nat → Nat}
    (h : Rearranged (Item.id ∘ Prod.fst) items.zipIdx (items'.zipIdx.map (Prod.map id σ)))
    (listId search : String) :
    slotsOf items listId search = (slotsOf items' listId search).map (Prod.map id σ) := by
  have htrans : ∀ a b c : Item × Nat,
      a.1.precedes b.1 → b.1.precedes c.1 → a.1.precedes c.1 := fun _ _ _ => Item.precedes_trans
  have hties : ∀ a b : Item × Nat, a.1.precedes b.1 → b.1.precedes a.1 →
      (Item.id ∘ Prod.fst) a = (Item.id ∘ Prod.fst) b := by
    intro a b hab hba
    by_contra hne
    exact (Item.precedes_iff_not hne).mp hab hba
  have hsorted := (h.filter fun slot => (Query.parse search).admits listId slot.1).mergeSort_eq
    htrans (fun a b => Item.precedes_total a.1 b.1) hties
  rw [slotsOf, slotsOf, hsorted, List.filter_map]
  exact (List.map_mergeSort (f := Prod.map id σ) fun _ _ _ _ => rfl).symm

/-- **Writing a view back keeps storage rearranged.** -/
theorem rearranged_writeBack (h : Rearranged Item.id items items') {listId search : String}
    (hview : List.Forall₂ Item.Reranked (viewOf items listId search) view) :
    Rearranged Item.id
      (writeBack items ((slotsOf items listId search).map Prod.snd) view)
      (writeBack items' ((slotsOf items' listId search).map Prod.snd) view) := by
  obtain ⟨σ, hσ, -, hslots⟩ := h.exists_zipIdx 0
  -- both views are written through the positions of the first storage
  have hwritten : written ((slotsOf items' listId search).map Prod.snd) view =
      written ((slotsOf items listId search).map Prod.snd) view ∘ Prod.map id σ := by
    funext slot
    rw [slotsOf_eq_map hslots, List.map_map, Function.comp_apply, written, written]
    show _ = (((((slotsOf items' listId search).map (σ ∘ Prod.snd)).zip view).lookup
      (σ slot.2)).getD slot.1)
    rw [← List.map_map, lookup_zip_map hσ]
  have hids : ∀ slot ∈ items.zipIdx,
      (written ((slotsOf items listId search).map Prod.snd) view slot).id = slot.1.id := by
    have hall := reranked_writeBack hview
    rw [writeBack_eq_map] at hall
    conv at hall => arg 2; rw [← List.zipIdx_map_fst 0 items]
    rw [List.forall₂_map_left_iff, List.forall₂_map_right_iff, List.forall₂_same] at hall
    exact fun slot hslot => (hall slot hslot).id_eq
  rw [writeBack_eq_map, writeBack_eq_map, hwritten, ← List.map_map]
  exact hslots.map hids

theorem rearranged_updateFirst (h : Rearranged Item.id items items') {id : String}
    {f : Item → Item} (hf : ∀ item, (f item).id = item.id) :
    Rearranged Item.id (Store.updateFirst id f items) (Store.updateFirst id f items') := by
  induction h with
  | nil => exact .nil
  | @cons item items items' h ih =>
    rw [Store.updateFirst, Store.updateFirst]
    split
    · exact .cons (f item) h
    · exact .cons item ih
  | @swap a b hne items =>
    simp only [Store.updateFirst]
    by_cases ha : a.id = id
    · have hb : ¬ b.id = id := fun hb => hne (ha.trans hb.symm)
      rw [if_pos ha, if_neg hb, if_pos ha]
      exact .swap (by rwa [hf]) items
    · by_cases hb : b.id = id
      · rw [if_neg ha, if_pos hb, if_pos hb]
        exact .swap (by rwa [hf]) items
      · rw [if_neg ha, if_neg hb, if_neg hb, if_neg ha]
        exact .swap hne _
  | trans _ _ ih₁ ih₂ => exact .trans ih₁ ih₂

end Storage

namespace Store

variable {store store' : Store}

/-! ### Stores that differ in the order of storage -/

/-- The stores differ in nothing but their items, and these are related. -/
structure SameButItems (related : List Item → List Item → Prop) (store store' : Store) : Prop where
  lists_eq : store'.lists = store.lists
  spacing_eq : store'.spacing = store.spacing
  savedAt_eq : store'.savedAt = store.savedAt
  items_related : related store.items store'.items

theorem SameButItems.imp {related related' : List Item → List Item → Prop}
    (h : SameButItems related store store')
    (himp : related store.items store'.items → related' store.items store'.items) :
    SameButItems related' store store' :=
  { h with items_related := himp h.items_related }

/-- The stores differ in the order of their items, but not of those that share their id. -/
abbrev Reordered : Store → Store → Prop :=
  SameButItems (Rearranged Item.id)

theorem addList_eq (store store' : Store) (name newId : String) :
    (store'.addList name newId).map Prod.snd = (store.addList name newId).map Prod.snd := by
  rw [addList, addList]
  cases checkListName name <;> rfl

namespace Reordered

/-! ### Replies -/

theorem hasList_eq (h : Reordered store store') (id : String) :
    store'.hasList id = store.hasList id := by
  rw [hasList, hasList, h.lists_eq]

theorem item?_eq (h : Reordered store store') (id : String) :
    store'.item? id = store.item? id := by
  refine (h.items_related.find?_eq fun a b ha hb => ?_).symm
  exact (of_decide_eq_true ha).trans (of_decide_eq_true hb).symm

theorem view_eq (h : Reordered store store') (listId search : String) :
    store'.view listId search = store.view listId search :=
  viewOf_eq_of_rearranged h.items_related listId search

theorem placedItem_eq (h : Reordered store store') (listId summary : String) (after : Selection)
    (newId : String) :
    store'.placedItem listId summary after newId = store.placedItem listId summary after newId := by
  rw [placedItem, placedItem, h.spacing_eq, h.view_eq]

theorem counts_eq (h : Reordered store store') (listId : String) :
    store'.counts listId = store.counts listId := by
  have hperm := h.items_related.perm.symm.filter fun item => item.listId = listId
  exact Prod.ext hperm.length_eq (hperm.countP_eq Item.isComplete)

theorem resolveItem_eq (h : Reordered store store') (start : String) :
    store'.resolveItem start = store.resolveItem start := by
  have hfind := h.item?_eq (Text.trim start)
  rw [item?, item?] at hfind
  have hperm := h.items_related.perm.symm.filter (startsWith (Text.trim start))
  rw [resolveItem, resolveItem, hfind]
  -- one item whose id starts like this is the same one; of several, only the number counts
  generalize store'.items.filter (startsWith (Text.trim start)) = found' at hperm ⊢
  generalize store.items.filter (startsWith (Text.trim start)) = found at hperm ⊢
  match found, hperm with
  | [], hperm => rw [hperm.eq_nil]
  | [item], hperm => rw [hperm.eq_singleton]
  | item :: other :: found, hperm =>
    match found', hperm.length_eq with
    | item' :: other' :: found', hlength =>
      dsimp only
      rw [hlength]

theorem addItem_eq (h : Reordered store store') (listId summary : String) (after : Selection)
    (newId : String) :
    (store'.addItem listId summary after newId).map Prod.snd =
      (store.addItem listId summary after newId).map Prod.snd := by
  have hplaced := h.placedItem_eq listId summary after newId
  rw [placedItem, placedItem, view, view, ← length_slotsOf, ← length_slotsOf, ← map_fst_slotsOf,
    ← map_fst_slotsOf] at hplaced
  rw [addItem, addItem, h.hasList_eq]
  dsimp only
  rw [hplaced]
  split <;> rfl

theorem moveItem_eq (h : Reordered store store') (listId search id : String) (target : Nat) :
    (store'.moveItem listId search id target).map Prod.snd =
      (store.moveItem listId search id target).map Prod.snd := by
  have hview := h.view_eq listId search
  rw [view, view, ← map_fst_slotsOf, ← map_fst_slotsOf] at hview
  rw [moveItem, moveItem, h.item?_eq, h.spacing_eq]
  dsimp only
  rw [hview]
  cases store.item? id with
  | none => rfl
  | some item =>
    dsimp only
    cases store.spacing.reorder ((slotsOf store.items listId search).map Prod.fst) id target <;> rfl

theorem updateItem_eq (h : Reordered store store') (id : String) (f : Item → Item) :
    (store'.updateItem id f).map Prod.snd = (store.updateItem id f).map Prod.snd := by
  rw [updateItem, updateItem, h.item?_eq]
  cases store.item? id <;> rfl

theorem removeItem_eq (h : Reordered store store') (id : String) :
    (store'.removeItem id).map Prod.snd = (store.removeItem id).map Prod.snd := by
  rw [removeItem, removeItem, h.item?_eq]
  cases store.item? id <;> rfl

theorem renameList_eq (h : Reordered store store') (id name : String) :
    (store'.renameList id name).map Prod.snd = (store.renameList id name).map Prod.snd := by
  rw [renameList, renameList, h.lists_eq]
  cases checkListName name with
  | error e => rfl
  | ok checked =>
    dsimp only [Except.bind]
    cases store.lists.find? fun list => list.id = id <;> rfl

theorem removeList_eq (h : Reordered store store') (id : String) :
    (store'.removeList id).map Prod.snd = (store.removeList id).map Prod.snd := by
  have hperm := h.items_related.perm.symm
  have hkept := (hperm.filter fun item => !decide (item.listId = id)).length_eq
  rw [removeList, removeList, h.lists_eq]
  dsimp only
  rw [hperm.length_eq, hkept]
  cases store.lists.find? fun list => list.id = id with
  | none => rfl
  | some list => dsimp only; split <;> rfl

theorem replyTo_eq (h : Reordered store store') (op : Operation) :
    store'.replyTo op = store.replyTo op := by
  cases op with
  | addItem => rw [replyTo, replyTo, h.addItem_eq]
  | moveItem => rw [replyTo, replyTo, h.moveItem_eq]
  | setComplete => exact congrArg (Reply.of .item) (h.updateItem_eq _ _)
  | toggleComplete => exact congrArg (Reply.of .item) (h.updateItem_eq _ _)
  | setSummary => exact congrArg (Reply.of .item) (h.updateItem_eq _ _)
  | removeItem => rw [replyTo, replyTo, h.removeItem_eq]
  | addList => rw [replyTo, replyTo, addList_eq]
  | renameList => rw [replyTo, replyTo, h.renameList_eq]
  | removeList => rw [replyTo, replyTo, h.removeList_eq]
  | ensureInbox | touch => rfl

/-- **No single reply tells the order of storage.** -/
theorem reply_eq (h : Reordered store store') (request : Request) :
    store'.reply request = store.reply request := by
  cases request with
  | view listId search => rw [reply, reply, h.view_eq]
  | counts listId => rw [reply, reply, h.counts_eq]
  | resolveItem start => rw [reply, reply, h.resolveItem_eq]
  | perform op => exact h.replyTo_eq op

/-! ### Steps -/

/-- **A step keeps the difference down to the order of storage.** -/
theorem step (h : Reordered store store') (op : Operation) :
    Reordered (store.step op) (store'.step op) := by
  have hitems := h.items_related
  cases op with
  | addItem listId summary after newId =>
    rw [step_addItem, step_addItem, h.hasList_eq, h.placedItem_eq]
    split
    · have hwritten := rearranged_writeBack hitems
        (store.reranked_placedItem listId summary after newId)
      exact { h with items_related := hwritten.append_right _ }
    · exact h
  | moveItem listId search id target =>
    rw [step_moveItem, step_moveItem, h.spacing_eq, h.view_eq]
    split
    · next hmoved =>
      have hwritten := rearranged_writeBack hitems (store.spacing.reranked_of_reorder hmoved)
      exact { h with spacing_eq := rfl, items_related := hwritten }
    · exact h
  | setComplete | toggleComplete | setSummary =>
    rw [step_updateItem rfl, step_updateItem rfl]
    exact { h with items_related := rearranged_updateFirst hitems fun _ => rfl }
  | removeItem id =>
    rw [step_removeItem, step_removeItem]
    refine { h with items_related := hitems.eraseP fun a b ha hb => ?_ }
    exact (of_decide_eq_true ha).trans (of_decide_eq_true hb).symm
  | addList name newId =>
    rw [step_addList, step_addList, h.lists_eq]
    split
    · exact { h with lists_eq := rfl }
    · exact h
  | renameList id name =>
    rw [step_renameList, step_renameList, h.lists_eq]
    split
    · exact { h with lists_eq := rfl }
    · exact h
  | removeList id =>
    rw [step_removeList, step_removeList, h.hasList_eq, h.lists_eq]
    split
    · exact { h with lists_eq := rfl, items_related := hitems.filter _ }
    · exact h
  | ensureInbox =>
    show Reordered store.withInbox store'.withInbox
    rw [withInbox, withInbox, h.hasList_eq, h.lists_eq]
    split
    · exact h
    · exact { h with lists_eq := rfl }
  | touch now => exact { h with savedAt_eq := rfl }

theorem after (h : Reordered store store') (request : Request) :
    Reordered (store.after request) (store'.after request) := by
  cases request with
  | perform op => exact h.step op
  | view | counts | resolveItem => exact h

theorem replies_eq (h : Reordered store store') (requests : List Request) :
    store'.replies requests = store.replies requests ∧
      Reordered (store.afterAll requests) (store'.afterAll requests) := by
  induction requests generalizing store store' with
  | nil => exact ⟨rfl, h⟩
  | cons request requests ih =>
    obtain ⟨hreplies, hafter⟩ := ih (h.after request)
    refine ⟨?_, hafter⟩
    rw [replies, replies, h.reply_eq, hreplies]

end Reordered

/-- **Storage order does not show.**  Stores with distinct ids that differ in nothing but the order
of their items give the same replies, and that order is all they differ in afterwards. -/
theorem replies_of_perm (h : SameButItems List.Perm store store')
    (hd : DistinctIds store.items) (requests : List Request) :
    store'.replies requests = store.replies requests ∧
      SameButItems List.Perm (store.afterAll requests) (store'.afterAll requests) := by
  have hreordered : Reordered store store' := h.imp fun hperm => .of_perm hperm hd
  obtain ⟨hreplies, hafter⟩ := hreordered.replies_eq requests
  exact ⟨hreplies, hafter.imp Rearranged.perm⟩

/-- Three items with the same precedence. -/
def pantry : Store where
  lists := [TodoList.inbox]
  items := [{ id := "oil", listId := inboxId, summary := "Oil", precedence := 1 },
    { id := "oats", listId := inboxId, summary := "Oats", precedence := 1 },
    { id := "salt", listId := inboxId, summary := "Salt", precedence := 1 }]

/-- The pantry is turned around.  Olives come in under the id of the oil; of the two, the oil is
done and removed, and the olives are moved while the search hides the oil. -/
theorem replies_of_perm_pantry :
    let turned : Store := { pantry with items := pantry.items.reverse }
    let requests : List Request := [.view inboxId "s", .resolveItem "o",
      .perform (.addItem inboxId "Olives" (Selection.ofIndex 0) "oil"),
      .perform (.toggleComplete "oil"), .perform (.moveItem inboxId "is:notdone" "oil" 5),
      .counts inboxId, .perform (.removeItem "oil"), .resolveItem "oil",
      .perform (.removeList inboxId), .view inboxId ""]
    (SameButItems List.Perm pantry turned ∧ DistinctIds pantry.items) ∧
      turned.replies requests = pantry.replies requests ∧
      SameButItems List.Perm (pantry.afterAll requests) (turned.afterAll requests) := by
  intro turned requests
  have hturned : SameButItems List.Perm pantry turned :=
    ⟨rfl, rfl, rfl, (List.reverse_perm pantry.items).symm⟩
  have hd : DistinctIds pantry.items := by decide
  exact ⟨⟨hturned, hd⟩, replies_of_perm hturned hd requests⟩

end Store

end Agenda

/-
Agenda/Proofs/Store/Meaning.lean

What documents mean to a store.  `itemMeaning`, `listMeaning` and `storeMeaning` say
which item, list or store a document is, field by field: `itemSlot name v` is what the
value `v` of the field `name` does to the draft of an item.  A text describes a store
exactly if it is the text of a document that is one (`Store.ofDocument_eq_ok_iff`).

The fields of each record are independent, and a field that was left out is worth what
its default is.
-/
import Agenda.Proofs.Json.Acceptance
import Agenda.Proofs.Json.Revision
import Agenda.Store.Document

namespace Agenda

open Json

variable {name : String} {v : Document}

/-- A value that is read into a draft. -/
theorem understands_readInto {α δ : Type} {reader : Reader α} {meaning : Document → Option α}
    (h : Understands reader meaning) (set : α → δ → δ) (draft : δ) :
    Understands (readInto reader fun a => set a draft)
      fun v => ((meaning v).map set).map (· draft) := by
  intro v input rest hv hrest
  have hread := (h v hv hrest).map fun a => set a draft
  rwa [← Function.comp_def (· draft) set, ← Option.map_map] at hread

/-! ### Items -/

/-- What the value of a field does to the draft of an item. -/
def itemSlot (name : String) (v : Document) : Option (ItemDraft → ItemDraft) :=
  if name = "id" then v.text?.map fun x draft => { draft with id := some x }
  else if name = "listId" then v.text?.map fun x draft => { draft with listId := some x }
  else if name = "summary" then v.text?.map fun x draft => { draft with summary := some x }
  else if name = "isComplete" then v.truth?.map fun x draft => { draft with isComplete := some x }
  else v.int64?.map fun x draft => { draft with precedence := some x }

/-- What each field of an item is worth if it is left out. -/
def itemDefaults : List (String × Document) :=
  [("summary", .string []), ("isComplete", .bool false), ("precedence", .number .zero)]

/-- The field `name` of an item is set by this function. -/
inductive ItemDraft.Sets : String → (ItemDraft → ItemDraft) → Prop
  | id (x : String) : Sets "id" fun draft => { draft with id := some x }
  | listId (x : String) : Sets "listId" fun draft => { draft with listId := some x }
  | summary (x : String) : Sets "summary" fun draft => { draft with summary := some x }
  | isComplete (x : Bool) : Sets "isComplete" fun draft => { draft with isComplete := some x }
  | precedence (x : Int64) : Sets "precedence" fun draft => { draft with precedence := some x }

theorem mem_itemNames :
    name ∈ itemFields.names ↔ name = "id" ∨ name = "listId" ∨ name = "summary" ∨
      name = "isComplete" ∨ name = "precedence" := by
  simp [itemFields]

theorem understood_item : itemFields.Understood itemSlot := by
  intro name hname draft
  rcases mem_itemNames.mp hname with rfl | rfl | rfl | rfl | rfl
  · exact understands_readInto understands_text (fun x draft => { draft with id := some x }) draft
  · exact understands_readInto understands_text (fun x draft => { draft with listId := some x })
      draft
  · exact understands_readInto understands_text (fun x draft => { draft with summary := some x })
      draft
  · exact understands_readInto understands_truth
      (fun x draft => { draft with isComplete := some x }) draft
  · exact understands_readInto understands_int64
      (fun x draft => { draft with precedence := some x }) draft

theorem sets_of_itemSlot {set : ItemDraft → ItemDraft} (hname : name ∈ itemFields.names)
    (h : itemSlot name v = some set) : ItemDraft.Sets name set := by
  rcases mem_itemNames.mp hname with rfl | rfl | rfl | rfl | rfl <;>
    obtain ⟨x, -, rfl⟩ := Option.map_eq_some_iff.mp h
  · exact .id x
  · exact .listId x
  · exact .summary x
  · exact .isComplete x
  · exact .precedence x

-- Two fields are told apart by their names; then both sides compute to the same draft.
theorem independent_item : itemFields.Independent itemSlot where
  isSet_blank := by decide
  isSet_self name hname v set hset draft := by
    cases sets_of_itemSlot hname hset <;> rfl
  isSet_other name hname other hother hne v set hset draft := by
    cases sets_of_itemSlot hname hset <;>
      rcases mem_itemNames.mp hother with rfl | rfl | rfl | rfl | rfl <;>
      first | rfl | exact absurd rfl hne
  set_comm name hname other hother hne v set v' set' hset hset' draft := by
    cases sets_of_itemSlot hname hset <;> cases sets_of_itemSlot hother hset' <;>
      first | rfl | exact absurd rfl hne

theorem defaultsTo_item :
    ∀ name v, (name, v) ∈ itemDefaults → itemFields.DefaultsTo itemSlot name v := by
  intro name v h
  simp only [itemDefaults, List.mem_cons, List.not_mem_nil, or_false, Prod.mk.injEq] at h
  rcases h with ⟨rfl, rfl⟩ | ⟨rfl, rfl⟩ | ⟨rfl, rfl⟩
  · refine ⟨by decide, _, rfl, fun draft hfree => ?_⟩
    obtain ⟨id, listId, _ | summary, isComplete, precedence⟩ := draft
    · rfl
    · cases hfree
  · refine ⟨by decide, _, rfl, fun draft hfree => ?_⟩
    obtain ⟨id, listId, summary, _ | isComplete, precedence⟩ := draft
    · rfl
    · cases hfree
  · refine ⟨by decide, _, rfl, fun draft hfree => ?_⟩
    obtain ⟨id, listId, summary, isComplete, _ | precedence⟩ := draft
    · rfl
    · cases hfree

/-- The item that a document is. -/
def itemMeaning : Document → Option Item :=
  itemFields.meaning itemSlot

/-! ### Lists -/

/-- What the value of a field does to the draft of a list. -/
def listSlot (name : String) (v : Document) : Option (TodoListDraft → TodoListDraft) :=
  if name = "id" then v.text?.map fun x draft => { draft with id := some x }
  else v.text?.map fun x draft => { draft with name := some x }

/-- What each field of a list is worth if it is left out. -/
def listDefaults : List (String × Document) :=
  [("name", .string [])]

/-- The field `name` of a list is set by this function. -/
inductive TodoListDraft.Sets : String → (TodoListDraft → TodoListDraft) → Prop
  | id (x : String) : Sets "id" fun draft => { draft with id := some x }
  | name (x : String) : Sets "name" fun draft => { draft with name := some x }

theorem mem_listNames :
    name ∈ listFields.names ↔ name = "id" ∨ name = "name" := by
  simp [listFields]

theorem understood_list : listFields.Understood listSlot := by
  intro name hname draft
  rcases mem_listNames.mp hname with rfl | rfl
  · exact understands_readInto understands_text (fun x draft => { draft with id := some x }) draft
  · exact understands_readInto understands_text (fun x draft => { draft with name := some x }) draft

theorem sets_of_listSlot {set : TodoListDraft → TodoListDraft} (hname : name ∈ listFields.names)
    (h : listSlot name v = some set) : TodoListDraft.Sets name set := by
  rcases mem_listNames.mp hname with rfl | rfl <;> obtain ⟨x, -, rfl⟩ := Option.map_eq_some_iff.mp h
  · exact .id x
  · exact .name x

theorem independent_list : listFields.Independent listSlot where
  isSet_blank := by decide
  isSet_self name hname v set hset draft := by
    cases sets_of_listSlot hname hset <;> rfl
  isSet_other name hname other hother hne v set hset draft := by
    cases sets_of_listSlot hname hset <;> rcases mem_listNames.mp hother with rfl | rfl <;>
      first | rfl | exact absurd rfl hne
  set_comm name hname other hother hne v set v' set' hset hset' draft := by
    cases sets_of_listSlot hname hset <;> cases sets_of_listSlot hother hset' <;>
      first | rfl | exact absurd rfl hne

theorem defaultsTo_list :
    ∀ name v, (name, v) ∈ listDefaults → listFields.DefaultsTo listSlot name v := by
  intro name v h
  simp only [listDefaults, List.mem_cons, List.not_mem_nil, or_false, Prod.mk.injEq] at h
  obtain ⟨rfl, rfl⟩ := h
  refine ⟨by decide, _, rfl, fun draft hfree => ?_⟩
  obtain ⟨id, _ | name⟩ := draft
  · rfl
  · cases hfree

/-- The list that a document is. -/
def listMeaning : Document → Option TodoList :=
  listFields.meaning listSlot

/-! ### Stores -/

/-- What the value of a field does to the draft of a store. -/
def storeSlot (name : String) (v : Document) : Option (StoreDraft → StoreDraft) :=
  if name = "savedAt" then
    (orNull (fun v => v.text?.bind Timestamp.read?) v).map fun x draft =>
      { draft with savedAt := some x }
  else if name = "lists" then
    (arrayOf listMeaning v).map fun x draft => { draft with lists := some x }
  else (arrayOf itemMeaning v).map fun x draft => { draft with items := some x }

/-- What each field of a store is worth if it is left out. -/
def storeDefaults : List (String × Document) :=
  [("savedAt", .null), ("lists", .array []), ("items", .array [])]

/-- The field `name` of a store is set by this function. -/
inductive StoreDraft.Sets : String → (StoreDraft → StoreDraft) → Prop
  | savedAt (x : Option Timestamp) : Sets "savedAt" fun draft => { draft with savedAt := some x }
  | lists (x : List TodoList) : Sets "lists" fun draft => { draft with lists := some x }
  | items (x : List Item) : Sets "items" fun draft => { draft with items := some x }

theorem mem_storeNames :
    name ∈ storeFields.names ↔ name = "savedAt" ∨ name = "lists" ∨ name = "items" := by
  simp [storeFields]

theorem understood_store : storeFields.Understood storeSlot := by
  intro name hname draft
  rcases mem_storeNames.mp hname with rfl | rfl | rfl
  · exact understands_readInto (understands_nullable (understands_textAs Timestamp.read?))
      (fun x draft => { draft with savedAt := some x }) draft
  · exact understands_readInto (understands_array (understands_record understood_list))
      (fun x draft => { draft with lists := some x }) draft
  · exact understands_readInto (understands_array (understands_record understood_item))
      (fun x draft => { draft with items := some x }) draft

theorem sets_of_storeSlot {set : StoreDraft → StoreDraft} (hname : name ∈ storeFields.names)
    (h : storeSlot name v = some set) : StoreDraft.Sets name set := by
  rcases mem_storeNames.mp hname with rfl | rfl | rfl <;>
    obtain ⟨x, -, rfl⟩ := Option.map_eq_some_iff.mp h
  · exact .savedAt x
  · exact .lists x
  · exact .items x

theorem independent_store : storeFields.Independent storeSlot where
  isSet_blank := by decide
  isSet_self name hname v set hset draft := by
    cases sets_of_storeSlot hname hset <;> rfl
  isSet_other name hname other hother hne v set hset draft := by
    cases sets_of_storeSlot hname hset <;> rcases mem_storeNames.mp hother with rfl | rfl | rfl <;>
      first | rfl | exact absurd rfl hne
  set_comm name hname other hother hne v set v' set' hset hset' draft := by
    cases sets_of_storeSlot hname hset <;> cases sets_of_storeSlot hother hset' <;>
      first | rfl | exact absurd rfl hne

theorem defaultsTo_store :
    ∀ name v, (name, v) ∈ storeDefaults → storeFields.DefaultsTo storeSlot name v := by
  intro name v h
  simp only [storeDefaults, List.mem_cons, List.not_mem_nil, or_false, Prod.mk.injEq] at h
  rcases h with ⟨rfl, rfl⟩ | ⟨rfl, rfl⟩ | ⟨rfl, rfl⟩
  · refine ⟨by decide, _, rfl, fun draft hfree => ?_⟩
    obtain ⟨_ | savedAt, lists, items⟩ := draft
    · rfl
    · cases hfree
  · refine ⟨by decide, _, rfl, fun draft hfree => ?_⟩
    obtain ⟨savedAt, _ | lists, items⟩ := draft
    · rfl
    · cases hfree
  · refine ⟨by decide, _, rfl, fun draft hfree => ?_⟩
    obtain ⟨savedAt, lists, _ | items⟩ := draft
    · rfl
    · cases hfree

/-- The store that a document is, with the usual spacing. -/
def storeMeaning : Document → Option Store :=
  storeFields.meaning storeSlot

theorem accepts_readInto {α δ : Type} {reader : Reader α} (h : Accepts reader) (f : α → δ) :
    Accepts (readInto reader f) := by
  intro input r hr
  obtain ⟨s, hs, rfl⟩ := exists_of_map_eq_ok hr
  exact h hs

theorem accepted_item : itemFields.Accepted := by
  intro name hname draft
  rcases mem_itemNames.mp hname with rfl | rfl | rfl | rfl | rfl
  · exact accepts_readInto accepts_text _
  · exact accepts_readInto accepts_text _
  · exact accepts_readInto accepts_text _
  · exact accepts_readInto accepts_truth _
  · exact accepts_readInto accepts_int64 _

theorem accepted_list : listFields.Accepted := by
  intro name hname draft
  rcases mem_listNames.mp hname with rfl | rfl
  · exact accepts_readInto accepts_text _
  · exact accepts_readInto accepts_text _

theorem accepted_store : storeFields.Accepted := by
  intro name hname draft
  rcases mem_storeNames.mp hname with rfl | rfl | rfl
  · exact accepts_readInto (accepts_nullable (accepts_textAs _)) _
  · exact accepts_readInto (accepts_array (accepts_record accepted_list)) _
  · exact accepts_readInto (accepts_array (accepts_record accepted_item)) _

/-- **A text describes a store** if it is the text of a document that is one. -/
theorem Store.ofDocument_eq_ok_iff {text : String} {store : Store} :
    Store.ofDocument text = .ok store ↔
      ∃ v : Document, v.Written text ∧ storeMeaning v = some store :=
  readWhole_eq_ok_iff_exists (accepts_record accepted_store) (understands_record understood_store)

end Agenda

/-
Agenda/Proofs/Store/Document.lean

Loading undoes saving.  The document of a store is read back as the store, but
for its spacing, which is not part of the document
(`ofDocument_of_representable`), and a loaded store has an inbox, put before the
other lists if none of them is one (`parse_document`).
-/
import Agenda.Host.Memory
import Agenda.Store.File
import Agenda.Timestamp.Clock
import Agenda.Proofs.Json.Reader
import Agenda.Proofs.Timestamp

namespace Agenda

open Json

/-! ### Records -/

/-- A value that is read into a draft. -/
theorem recovers_readInto {α δ : Type} {reader : Reader α} {v : Value} {a : α}
    (h : Recovers reader v a) (f : α → δ) : Recovers (readInto reader f) v (f a) :=
  fun depth _ _ hgap hrest => (h depth hgap hrest).map f

theorem fills_item (item : Item) :
    itemFields.Fills {}
      [("id", .str item.id), ("listId", .str item.listId), ("summary", .str item.summary),
        ("isComplete", .bool item.isComplete), ("precedence", .int item.precedence.toInt)]
      ⟨some item.id, some item.listId, some item.summary, some item.isComplete,
        some item.precedence⟩ :=
  .cons (by decide) rfl (recovers_readInto (recovers_text _) _) <|
  .cons (by decide) rfl (recovers_readInto (recovers_text _) _) <|
  .cons (by decide) rfl (recovers_readInto (recovers_text _) _) <|
  .cons (by decide) rfl (recovers_readInto (recovers_truth _) _) <|
  .cons (by decide) rfl (recovers_readInto (recovers_int64 _) _) <| .nil _

theorem recovers_item (item : Item) : Recovers (record itemFields) item.toJson item :=
  recovers_record (by simp) (fills_item item) rfl

theorem fills_list (list : TodoList) :
    listFields.Fills {} [("id", .str list.id), ("name", .str list.name)]
      ⟨some list.id, some list.name⟩ :=
  .cons (by decide) rfl (recovers_readInto (recovers_text _) _) <|
  .cons (by decide) rfl (recovers_readInto (recovers_text _) _) <| .nil _

theorem recovers_list (list : TodoList) : Recovers (record listFields) list.toJson list :=
  recovers_record (by simp) (fills_list list) rfl

/-- The lists and the items fill what is left of a store. -/
theorem fills_lists_items (savedAt : Option (Option Timestamp)) (lists : List TodoList)
    (items : List Item) :
    storeFields.Fills { savedAt }
      [("lists", .arr (lists.map TodoList.toJson)), ("items", .arr (items.map Item.toJson))]
      { savedAt, lists := some lists, items := some items } :=
  .cons (by decide) rfl
    (recovers_readInto (recovers_array fun list _ => recovers_list list) _) <|
  .cons (by decide) rfl
    (recovers_readInto (recovers_array fun item _ => recovers_item item) _) <| .nil _

/-- The time of the last save is a text, never `null`. -/
theorem recovers_savedAt {t : Timestamp} (h : Timestamp.read? t.render = some t) :
    Recovers (nullable (textAs Timestamp.read?)) (.str t.render) (some t) :=
  recovers_nullable (recovers_textAs h) fun depth rest => by rintro ⟨⟩

/-! ### Stores -/

/-- The year of the last save, if there is one, can be represented. -/
def Store.Representable (store : Store) : Prop :=
  ∀ t ∈ store.savedAt, yearInRange t.date.year = true

/-- The time of the last save, if there is one, has a year of four digits. -/
def Store.FourDigitYear (store : Store) : Prop :=
  ∀ t ∈ store.savedAt, 0 ≤ t.date.year ∧ t.date.year ≤ 9999

theorem Store.FourDigitYear.representable {store : Store} (h : store.FourDigitYear) :
    store.Representable := by
  intro t ht
  obtain ⟨hlow, hhigh⟩ := h t ht
  simp only [yearInRange, Bool.and_eq_true, decide_eq_true_eq]
  omega

theorem recovers_store {store : Store} (h : store.Representable) :
    Recovers (record storeFields) store.toJson { store with spacing := Spacing.default } := by
  obtain ⟨savedAt, lists, items, spacing⟩ := store
  cases savedAt with
  | none => exact recovers_record (by simp) (fills_lists_items none lists items) rfl
  | some t =>
    have hsavedAt := recovers_savedAt (t.read?_render (h t rfl))
    have hfirst := recovers_readInto hsavedAt fun v => { savedAt := some v : StoreDraft }
    exact recovers_record (by simp)
      (.cons (by decide) rfl hfirst (fills_lists_items (some (some t)) lists items)) rfl

/-- **The document of a store is accepted, and nothing but the spacing is lost.** -/
theorem Store.ofDocument_of_representable {store : Store} (h : store.Representable) :
    Store.ofDocument store.document = .ok { store with spacing := Spacing.default } :=
  readWhole_pretty (recovers_store h)

theorem Store.ofDocument_document {store : Store} (h : store.FourDigitYear) :
    Store.ofDocument store.document = .ok { store with spacing := Spacing.default } :=
  Store.ofDocument_of_representable h.representable

/-! ### Files -/

theorem Store.hasList_inboxId_iff (store : Store) :
    store.hasList inboxId = true ↔ inboxId ∈ store.lists.map TodoList.id := by
  simp [hasList]

namespace StoreFile

variable {m : Type → Type} [Monad m] [LawfulMonad m] [Host m]

/-- A text that describes a store is accepted; it is noted if the store has no inbox. -/
theorem parse_of_ofDocument (path : Path) {text : String} {store : Store}
    (h : Store.ofDocument text = .ok store) :
    (parse (m := m) path text).run =
      (if store.hasList inboxId then pure () else Host.log (.restoredInbox path))
        >>= fun _ => pure (.ok store.withInbox) := by
  have hread : (attempt .document (pure (Store.ofDocument text)) :
      ExceptT StoreFileError m Store).run = pure (.ok store) := by
    rw [attempt, map_pure, h]
    rfl
  rw [parse, ExceptT.run_bind, hread, pure_bind]
  by_cases hinbox : store.hasList inboxId = true
  · simp [hinbox]
  · simp [hinbox, Except.map]

/-- **Loading undoes saving.**  What was saved is accepted, and the store that is loaded has the
time, the lists and the items of the one that was saved, in their order.  Its spacing is the usual
one, and an inbox is put before its lists, and that noted, exactly if none of them is the inbox. -/
theorem parse_document (path : Path) {store : Store} (h : store.FourDigitYear) :
    (parse (m := m) path store.document).run =
      (if inboxId ∈ store.lists.map TodoList.id then pure () else Host.log (.restoredInbox path))
        >>= fun _ => pure (.ok {
          savedAt := store.savedAt
          lists := (if inboxId ∈ store.lists.map TodoList.id then store.lists
            else TodoList.inbox :: store.lists)
          items := store.items
          spacing := Spacing.default }) := by
  have hiff := Store.hasList_inboxId_iff { store with spacing := Spacing.default }
  rw [parse_of_ofDocument path (Store.ofDocument_document h), Store.withInbox]
  by_cases hinbox : inboxId ∈ store.lists.map TodoList.id
  · rw [if_pos (hiff.mpr hinbox), if_pos (hiff.mpr hinbox), if_pos hinbox, if_pos hinbox]
  · rw [if_neg (mt hiff.mp hinbox), if_neg (mt hiff.mp hinbox), if_neg hinbox, if_neg hinbox]

/-- Quotes, backslashes and controls, the ends of the range of precedences, a fraction of a second
and no inbox. -/
theorem parse_document_journal :
    let path : Path := Path.ofString "todos.json"
    let machine : Machine := { clock := Timestamp.epoch, ids := fun _ => "" }
    let store : Store := {
      savedAt := some {
        date := { year := 2024, month := 2, day := 29, valid := by decide }
        second := 86399
        nanosecond := 250000000
        second_lt := by decide
        nanosecond_lt := by decide }
      lists := [{ id := "journal", name := "\"a\\b\"\n\x01\u007f" }]
      items := [
        { id := "1", listId := "journal", summary := "\u001f😀", precedence := Int64.minValue },
        { id := "2", listId := "none", isComplete := true, precedence := Int64.maxValue }]
      spacing := Spacing.clamped 100 10 }
    store.FourDigitYear ∧
      ((parse (m := StateM Machine) path store.document).run machine).1 = .ok { store with
        lists := TodoList.inbox :: store.lists, spacing := Spacing.default } := by
  intro path machine store
  have h : store.FourDigitYear := by
    rintro t ⟨⟩
    decide
  refine ⟨h, ?_⟩
  rw [parse_document path h]
  rfl

end StoreFile

end Agenda

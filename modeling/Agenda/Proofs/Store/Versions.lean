/-
Agenda/Proofs/Store/Versions.lean

Store files of older and newer versions.  Whatever members another version leaves out,
adds or puts into another order, a file that is accepted is accepted again, and the same
store is loaded from it (`StoreFile.parse_of_revised`).
-/
import Mathlib.Logic.Relation
import Agenda.Proofs.Store.File
import Agenda.Proofs.Store.Meaning

namespace Agenda

open Json

variable {name : String} {v v' : Document}

/-! ### Other versions -/

/-- An item as another version may write it. -/
def Item.Revised : Document → Document → Prop :=
  Json.Revised itemFields.names itemDefaults fun _ _ _ => False

/-- A list as another version may write it. -/
def TodoList.Revised : Document → Document → Prop :=
  Json.Revised listFields.names listDefaults fun _ _ _ => False

/-- One of the lists, or one of the items, as another version may write it. -/
inductive Store.PartRevised : String → Document → Document → Prop
  | list (before after : List Document) {v v' : Document} (h : TodoList.Revised v v') :
      PartRevised "lists" (.array (before ++ v :: after)) (.array (before ++ v' :: after))
  | item (before after : List Document) {v v' : Document} (h : Item.Revised v v') :
      PartRevised "items" (.array (before ++ v :: after)) (.array (before ++ v' :: after))

/-- A store as another version may write it: any number of changes to the store, its lists and its
items. -/
def Store.Revised : Document → Document → Prop :=
  Relation.ReflTransGen (Json.Revised storeFields.names storeDefaults Store.PartRevised)

theorem itemMeaning_of_revised (h : Item.Revised v v') (item : Item)
    (hmeaning : itemMeaning v = some item) : itemMeaning v' = some item :=
  independent_item.meaning_of_revised defaultsTo_item nofun h hmeaning

theorem listMeaning_of_revised (h : TodoList.Revised v v') (list : TodoList)
    (hmeaning : listMeaning v = some list) : listMeaning v' = some list :=
  independent_list.meaning_of_revised defaultsTo_list nofun h hmeaning

theorem storeSlot_of_partRevised (h : Store.PartRevised name v v') (set : StoreDraft → StoreDraft)
    (hslot : storeSlot name v = some set) : storeSlot name v' = some set := by
  cases h with
  | list before after h =>
    obtain ⟨lists, hlists, hset⟩ := Option.map_eq_some_iff.mp hslot
    exact Option.map_eq_some_iff.mpr
      ⟨lists, mapM_of_revised (listMeaning_of_revised h) before after hlists, hset⟩
  | item before after h =>
    obtain ⟨items, hitems, hset⟩ := Option.map_eq_some_iff.mp hslot
    exact Option.map_eq_some_iff.mpr
      ⟨items, mapM_of_revised (itemMeaning_of_revised h) before after hitems, hset⟩

/-- **Another version of a store is the same store.** -/
theorem storeMeaning_of_revised (h : Store.Revised v v') {store : Store}
    (hmeaning : storeMeaning v = some store) : storeMeaning v' = some store := by
  induction h with
  | refl => exact hmeaning
  | tail _ hstep ih =>
    exact independent_store.meaning_of_revised defaultsTo_store
      (fun _ _ _ => storeSlot_of_partRevised) hstep ih

/-! ### Files -/

/-- Whatever another version makes of a text that describes a store describes the same store. -/
theorem Store.ofDocument_of_revised {text text' : String} {store : Store}
    (h : Store.ofDocument text = .ok store) (hv : v.Written text) (hrevised : Store.Revised v v')
    (hv' : v'.Written text') : Store.ofDocument text' = .ok store := by
  have hunderstands := understands_record understood_store
  rw [Store.ofDocument, readWhole_eq_ok_iff hunderstands hv] at h
  rw [Store.ofDocument, readWhole_eq_ok_iff hunderstands hv']
  exact storeMeaning_of_revised hrevised h

namespace StoreFile

theorem exists_of_ofText {text : String} {loaded : Store} (h : ofText text = .ok loaded) :
    ∃ store, Store.ofDocument text = .ok store := by
  rw [ofText] at h
  cases hdocument : Store.ofDocument text with
  | error fault =>
    rw [hdocument] at h
    cases h
  | ok store => exact ⟨store, rfl⟩

/-- **Store files of older and newer versions load alike.**  A text that is accepted is JSON.
Whatever another version makes of its document, in whatever layout, is accepted as well, and the
same store is loaded and the same noted in the log. -/
theorem parse_of_revised {path : Path} {machine : Machine} {text : String} {loaded : Store}
    (h : ((parse (m := StateM Machine) path text).run machine).1 = .ok loaded) :
    (∃ v : Document, v.Written text) ∧
    ∀ {v v' : Document} {text' : String}, v.Written text → Store.Revised v v' → v'.Written text' →
      ((parse (m := StateM Machine) path text').run machine).1 = .ok loaded ∧
      ∀ {m : Type → Type} [Monad m] [LawfulMonad m] [Host m],
        (parse (m := m) path text').run = (parse (m := m) path text).run := by
  obtain ⟨_, hrun⟩ := run_parse path text machine
  rw [hrun] at h
  obtain ⟨store, hstore⟩ := exists_of_ofText h
  obtain ⟨v, hv, -⟩ := Store.ofDocument_eq_ok_iff.mp hstore
  refine ⟨⟨v, hv⟩, fun {v v' text'} hv hrevised hv' => ?_⟩
  have hstore' := Store.ofDocument_of_revised hstore hv hrevised hv'
  obtain ⟨_, hrun'⟩ := run_parse path text' machine
  constructor
  · rw [hrun', ofText, hstore', ← hstore]
    exact h
  · intro m _ _ _
    rw [parse_of_ofDocument path hstore', parse_of_ofDocument path hstore]

/-- A file that another version wrote again: it left out the lists, of which there are none, and
gave the only item its precedence and a member that is not known, before its id and list in another
order. -/
theorem parse_of_revised_errand :
    let path : Path := Path.ofString "todos.json"
    let machine : Machine := { clock := Timestamp.epoch, ids := fun _ => "" }
    let id := plainGlyphs ['i', 'd'] (by decide)
    let listId := plainGlyphs ['l', 'i', 's', 't', 'I', 'd'] (by decide)
    let lists := plainGlyphs ['l', 'i', 's', 't', 's'] (by decide)
    let items := plainGlyphs ['i', 't', 'e', 'm', 's'] (by decide)
    let precedence := plainGlyphs ['p', 'r', 'e', 'c', 'e', 'd', 'e', 'n', 'c', 'e'] (by decide)
    let tags := plainGlyphs ['t', 'a', 'g', 's'] (by decide)
    let one : Document := .string (plainGlyphs ['1'] (by decide))
    let a : Document := .string (plainGlyphs ['a'] (by decide))
    let deep : Document := .array [.null, .object []]
    let v : Document :=
      .object [(lists, .array []), (items, .array [.object [(id, one), (listId, a)]])]
    let v' : Document := .object [(items, .array [.object
      [(precedence, .number .zero), (tags, deep), (listId, a), (id, one)]])]
    let text := "\x7b\"lists\":[],\"items\":[\x7b\"id\":\"1\",\"listId\":\"a\"\x7d]\x7d"
    let text' := " \x7b \"items\" : [ \x7b \"precedence\":0,\n\"tags\":[null, \x7b\x7d], " ++
      "\"listId\":\"a\",\"id\":\"1\"\x7d] \x7d\n"
    let loaded : Store := { lists := [TodoList.inbox], items := [{ id := "1", listId := "a" }] }
    ((parse (m := StateM Machine) path text).run machine).1 = .ok loaded ∧
      v.Written text ∧ Store.Revised v v' ∧ v'.Written text' ∧
      ((parse (m := StateM Machine) path text').run machine).1 = .ok loaded := by
  intro path machine id listId lists items precedence tags one a deep v v' text text' loaded
  have hwritten : v.Written text := by decide
  have hwritten' : v'.Written text' := by decide
  have haccepted : ((parse (m := StateM Machine) path text).run machine).1 = .ok loaded := by
    obtain ⟨_, hrun⟩ := run_parse path text machine
    rw [hrun, ofText, Store.ofDocument_eq_ok_iff.mpr ⟨v, hwritten, rfl⟩]
    rfl
  -- one change after the other, the later ones within the only item
  have hitem : ∀ {w w' : Document}, Item.Revised w w' →
      Store.Revised (.object [(items, .array [w])]) (.object [(items, .array [w'])]) := fun h =>
    .single (.within [] [] (rfl : spelled? items = some "items") (.item [] [] h))
  have hshort : Store.Revised v (.object [(items, .array [.object [(id, one), (listId, a)]])]) :=
    .single (.leaveOut [] [(items, _)] (rfl : spelled? lists = some "lists")
      (by simp [storeDefaults]))
  have hordered := hitem (.reorder (.swap (listId, a) (id, one) []))
  have htagged := hitem (.extend [] [(listId, a), (id, one)] deep
    (rfl : spelled? tags = some "tags") (by decide))
  have hzero : ("precedence", Document.number .zero) ∈ itemDefaults := by simp [itemDefaults]
  have hwhole := hitem (.putIn [] [(tags, deep), (listId, a), (id, one)]
    (rfl : spelled? precedence = some "precedence") hzero (by decide))
  have hrevised : Store.Revised v v' := ((hshort.trans hordered).trans htagged).trans hwhole
  exact ⟨haccepted, hwritten, hrevised, hwritten',
    ((parse_of_revised haccepted).2 hwritten hrevised hwritten').1⟩

end StoreFile

end Agenda

/-
Agenda/Proofs/Store/ItemLookup.lean

Finding items by what people type.  `Resolves` lists what a look-up can come to,
by the ids that are there, and every look-up comes to one of these
(`resolves_resolveItem`).

Where ids are distinct, an item is found exactly if the word, without the blanks
around it, *names* it: it is the item's id, or else the start of this id and of
no other:

    resolveItem word = ok item  ↔  Names (trim word) item

(`resolveItem_eq_ok_iff`).  So a word that finds an item goes on finding it while
it is extended towards the item's id (`Names.extend`), and what people see of an
id, its first six characters, never leads to another item.
-/
import Agenda.Store.Lookup
import Agenda.Report.Cell
import Agenda.Proofs.Order.Compare
import Agenda.Proofs.Text.Blank

namespace Agenda.Store

open Text Report

variable {store : Store} {word longer : String} {item other : Item}

/-! ### What a look-up comes to -/

theorem startsWith_iff {start : String} :
    startsWith start item = true ↔ start.toList <+: item.id.toList :=
  List.isPrefixOf_iff_prefix

/-- What the look-up of a word without blanks around it comes to. -/
inductive Resolves (store : Store) (word : String) : Except StoreError Item → Prop
  /-- The word is an id. -/
  | id {item : Item} : item ∈ store.items → item.id = word → Resolves store word (.ok item)
  /-- The word is the start of one id. -/
  | start {item : Item} : (∀ other ∈ store.items, other.id ≠ word) → word ≠ "" →
      store.items.filter (startsWith word) = [item] → Resolves store word (.ok item)
  /-- The word is empty, or no id starts with it. -/
  | notFound : (∀ other ∈ store.items, other.id ≠ word) →
      (word = "" ∨ ∀ other ∈ store.items, ¬ startsWith word other) →
      Resolves store word (.error (.itemNotFound word))
  /-- Several ids start with the word. -/
  | ambiguous : (∀ other ∈ store.items, other.id ≠ word) → word ≠ "" →
      2 ≤ store.items.countP (startsWith word) →
      Resolves store word
        (.error (.ambiguousItem word (store.items.countP (startsWith word))))

/-- **Every look-up comes to one of these.** -/
theorem resolves_resolveItem (store : Store) (word : String) :
    store.Resolves (trim word) (store.resolveItem word) := by
  rw [resolveItem]
  split
  · next item hfind =>
    exact .id (List.mem_of_find?_eq_some hfind) (by simpa using List.find?_some hfind)
  · next hfind =>
    have hnone : ∀ other ∈ store.items, other.id ≠ trim word := by simpa using hfind
    split
    · next hempty => exact .notFound hnone (.inl (by simpa using hempty))
    · next hempty =>
      have hne : trim word ≠ "" := by simpa using hempty
      split
      · next hfound =>
        exact .notFound hnone (.inr fun other hother => by
          simpa using List.filter_eq_nil_iff.mp hfound other hother)
      · next item hfound => exact .start hnone hne hfound
      · next hnil hsingle =>
        rw [← List.countP_eq_length_filter]
        refine .ambiguous hnone hne ?_
        rw [List.countP_eq_length_filter]
        match hfound : store.items.filter (startsWith (trim word)) with
        | [] => exact absurd hfound hnil
        | [item] => exact absurd hfound (hsingle item)
        | _ :: _ :: others => exact Nat.le_add_left 2 others.length

/-! ### Names -/

/-- The word stands for the item: it is its id, or it is the start of its id and of no other. -/
def Names (store : Store) (word : String) (item : Item) : Prop :=
  item ∈ store.items ∧
    (item.id = word ∨
      word ≠ "" ∧ startsWith word item ∧
        ∀ other ∈ store.items, startsWith word other → other = item)

theorem names_id (h : item ∈ store.items) : store.Names item.id item :=
  ⟨h, .inl rfl⟩

theorem Names.starts (h : store.Names word item) : startsWith word item := by
  obtain ⟨-, rfl | ⟨-, hstart, -⟩⟩ := h
  · exact startsWith_iff.mpr (List.prefix_refl _)
  · exact hstart

/-- A word names one item. -/
theorem Names.unique (hd : DistinctIds store.items) (h : store.Names word item)
    (h' : store.Names word other) : other = item := by
  have hstart := h'.starts
  obtain ⟨hitem, hid | ⟨-, -, hsole⟩⟩ := h
  · obtain ⟨hother, hid' | ⟨-, -, hsole'⟩⟩ := h'
    · exact hd.eq_of_id_eq hother hitem (hid'.trans hid.symm)
    · exact (hsole' item hitem (Names.starts ⟨hitem, .inl hid⟩)).symm
  · exact hsole other h'.1 hstart

/-- A word that is extended towards the id of the item that it names still names it. -/
theorem Names.extend (h : store.Names word item) (hword : word.toList <+: longer.toList)
    (hlonger : longer.toList <+: item.id.toList) : store.Names longer item := by
  obtain ⟨hitem, rfl | ⟨hne, -, hsole⟩⟩ := h
  · -- nothing can be added to the id itself
    have hsame : item.id.toList = longer.toList := hword.eq_of_length_le hlonger.length_le
    exact ⟨hitem, .inl (String.toList_inj.mp hsame)⟩
  · refine ⟨hitem, .inr ⟨?_, startsWith_iff.mpr hlonger, fun other hother hstart => ?_⟩⟩
    · rintro rfl
      exact hne (String.toList_eq_nil_iff.mp (List.prefix_nil.mp hword))
    · exact hsole other hother (startsWith_iff.mpr (hword.trans (startsWith_iff.mp hstart)))

/-- Of the ids that start with a word that names an item, and is no id, there is one. -/
theorem Names.countP_le (hd : DistinctIds store.items) (h : store.Names word item)
    (hnone : ∀ other ∈ store.items, other.id ≠ word) :
    store.items.countP (startsWith word) ≤ 1 := by
  obtain ⟨hitem, hid | ⟨-, -, hsole⟩⟩ := h
  · exact absurd hid (hnone item hitem)
  · calc store.items.countP (startsWith word)
        ≤ store.items.count item :=
          List.countP_mono_left fun other hother hstart => by
            rw [hsole other hother hstart, beq_self_eq_true]
      _ ≤ 1 := List.nodup_iff_count_le_one.mp (List.Nodup.of_map Item.id hd) item

/-! ### The outcomes, one by one -/

/-- **An item is found if and only if the word names it.** -/
theorem resolveItem_eq_ok_iff (hd : DistinctIds store.items) :
    store.resolveItem word = .ok item ↔ store.Names (trim word) item := by
  have names_of_ok :
      ∀ {item}, store.resolveItem word = .ok item → store.Names (trim word) item := by
    intro item h
    have hresolves := store.resolves_resolveItem word
    rw [h] at hresolves
    cases hresolves with
    | id hitem hid => exact ⟨hitem, .inl hid⟩
    | start _ hne hfound =>
      have hmem : ∀ other, other = item ↔ other ∈ store.items ∧ startsWith (trim word) other := by
        intro other
        rw [← List.mem_filter, hfound, List.mem_singleton]
      obtain ⟨hitem, hstart⟩ := (hmem item).mp rfl
      exact ⟨hitem, .inr ⟨hne, hstart, fun other hother h => (hmem other).mpr ⟨hother, h⟩⟩⟩
  refine ⟨names_of_ok, fun h => ?_⟩
  have hresolves := store.resolves_resolveItem word
  cases hresult : store.resolveItem word with
  | ok found => rw [h.unique hd (names_of_ok hresult)]
  | error e =>
    rw [hresult] at hresolves
    cases hresolves with
    | notFound hnone hmissing =>
      obtain ⟨hitem, hid | ⟨hne, hstart, -⟩⟩ := h
      · exact absurd hid (hnone item hitem)
      · exact absurd hstart (hmissing.resolve_left hne item hitem)
    | ambiguous hnone _ htwo =>
      have hone := h.countP_le hd hnone
      omega

/-- **Several ids start with the word**, which is none of them, and this is how many. -/
theorem resolveItem_eq_ambiguousItem_iff {start : String} {count : Nat} :
    store.resolveItem word = .error (.ambiguousItem start count) ↔
      start = trim word ∧ (∀ item ∈ store.items, item.id ≠ start) ∧ start ≠ "" ∧ 2 ≤ count ∧
        count = store.items.countP fun item => decide (start.toList <+: item.id.toList) := by
  have hcount : (fun item : Item => decide (start.toList <+: item.id.toList)) =
      Store.startsWith start := by
    funext item
    rw [Bool.eq_iff_iff, decide_eq_true_iff, startsWith_iff]
  rw [hcount]
  have hresolves := store.resolves_resolveItem word
  constructor
  · intro h
    rw [h] at hresolves
    cases hresolves with
    | ambiguous hnone hne htwo => exact ⟨rfl, hnone, hne, htwo, rfl⟩
  · rintro ⟨rfl, hnone, hne, htwo, rfl⟩
    generalize store.resolveItem word = result at hresolves
    cases hresolves with
    | id hitem hid => exact absurd hid (hnone _ hitem)
    | start _ _ hfound =>
      rw [List.countP_eq_length_filter, hfound, List.length_singleton] at htwo
      omega
    | notFound _ hmissing =>
      have hzero := List.countP_eq_zero.mpr (hmissing.resolve_left hne)
      omega
    | ambiguous => rfl

/-- What starts an id is never missed. -/
theorem resolveItem_of_startsWith (hitem : item ∈ store.items) (hne : trim word ≠ "")
    (hstart : startsWith (trim word) item) :
    (∃ found, store.resolveItem word = .ok found) ∨
      ∃ count, store.resolveItem word = .error (.ambiguousItem (trim word) count) := by
  have hresolves := store.resolves_resolveItem word
  generalize store.resolveItem word = result at hresolves
  cases hresolves with
  | id | start => exact .inl ⟨_, rfl⟩
  | notFound _ hmissing => exact absurd hstart (hmissing.resolve_left hne item hitem)
  | ambiguous => exact .inr ⟨_, rfl⟩

/-! ### Ids as people see them -/

theorem startsWith_shortId (item : Item) : startsWith (shortId item.id) item = true := by
  rw [startsWith_iff, toList_shortId]
  exact List.take_prefix 6 item.id.toList

/-- Of ids of one length none is the start of another. -/
theorem eq_of_id_eq_shortId (hd : DistinctIds store.items) (hitem : item ∈ store.items)
    (hother : other ∈ store.items) (hlength : other.id.length = item.id.length)
    (h : other.id = shortId item.id) : other = item := by
  have hstarts : other.id.toList <+: item.id.toList := by
    rw [h]
    exact startsWith_iff.mp (startsWith_shortId item)
  refine hd.eq_of_id_eq hother hitem (String.toList_inj.mp (hstarts.eq_of_length ?_))
  rw [String.length_toList, String.length_toList, hlength]

/-- Where ids are words of one length, the short form of an id is ambiguous if it does not find its
item. -/
theorem resolveItem_shortId (hd : DistinctIds store.items) (hitem : item ∈ store.items)
    (hne : item.id ≠ "") (hword : ∀ c ∈ item.id.toList, isBlank c = false)
    (hlength : ∀ other ∈ store.items, other.id.length = item.id.length) :
    store.resolveItem (shortId item.id) = .ok item ∨
      ∃ count, store.resolveItem (shortId item.id) =
        .error (.ambiguousItem (shortId item.id) count) := by
  have htrim : trim (shortId item.id) = shortId item.id := by
    apply trim_eq_self
    rw [toList_shortId]
    exact fun c hc => hword c (List.mem_of_mem_take hc)
  have hshort : shortId item.id ≠ "" := by
    rw [ne_eq, ← String.toList_eq_nil_iff, toList_shortId, List.take_eq_nil_iff,
      String.toList_eq_nil_iff]
    simp [hne]
  rcases resolveItem_of_startsWith hitem (htrim.symm ▸ hshort)
    (htrim.symm ▸ startsWith_shortId item) with ⟨found, hfound⟩ | ⟨count, hcount⟩
  · have hnames := (resolveItem_eq_ok_iff hd).mp hfound
    rw [htrim] at hnames
    obtain ⟨hmem, hid | ⟨-, -, hsole⟩⟩ := hnames
    · rw [eq_of_id_eq_shortId hd hitem hmem (hlength found hmem) hid] at hfound
      exact .inl hfound
    · rw [← hsole item hitem (startsWith_shortId item)] at hfound
      exact .inl hfound
  · rw [htrim] at hcount
    exact .inr ⟨count, hcount⟩

/-- **Ids of items resolve stably.**  Where ids are distinct,

* a word that finds an item finds it also when it is extended towards the item's id, as long as no
  blanks come to stand around it;
* every id finds its item, also if other ids start with it, unless there are blanks around the id;
* a word is ambiguous if and only if it is no id and several ids start with it, and their number is
  given;
* and where ids are words of one length, the short form that people see of an id finds its item or
  is ambiguous, and never finds another item or none. -/
theorem resolveItem_stable (hd : DistinctIds store.items) :
    (∀ word longer item, store.resolveItem word = .ok item →
        (trim word).toList <+: longer.toList → longer.toList <+: item.id.toList →
        trim longer = longer → store.resolveItem longer = .ok item) ∧
      (∀ item ∈ store.items, trim item.id = item.id → store.resolveItem item.id = .ok item) ∧
      (∀ word start count, store.resolveItem word = .error (.ambiguousItem start count) ↔
        start = trim word ∧ (∀ item ∈ store.items, item.id ≠ start) ∧ start ≠ "" ∧ 2 ≤ count ∧
          count = store.items.countP fun item => decide (start.toList <+: item.id.toList)) ∧
      ((∀ item ∈ store.items, item.id ≠ "" ∧ ∀ c ∈ item.id.toList, isBlank c = false) →
        (∀ item ∈ store.items, ∀ other ∈ store.items, other.id.length = item.id.length) →
        ∀ item ∈ store.items, store.resolveItem (shortId item.id) = .ok item ∨
          ∃ count, store.resolveItem (shortId item.id) =
            .error (.ambiguousItem (shortId item.id) count)) := by
  refine ⟨fun word longer item hfound hword hlonger htrim => ?_, fun item hitem htrim => ?_,
    fun word start count => resolveItem_eq_ambiguousItem_iff, fun hwords hlength item hitem => ?_⟩
  · have hnames := ((resolveItem_eq_ok_iff hd).mp hfound).extend hword hlonger
    rwa [resolveItem_eq_ok_iff hd, htrim]
  · rw [resolveItem_eq_ok_iff hd, htrim]
    exact names_id hitem
  · obtain ⟨hne, hword⟩ := hwords item hitem
    exact resolveItem_shortId hd hitem hne hword (hlength item hitem)

/-- Items with ids of seven characters, two of which start alike. -/
def ledger : Store where
  lists := [.inbox]
  items := [{ id := "abc1230", listId := inboxId, summary := "rent" },
    { id := "abd4561", listId := inboxId, summary := "milk" },
    { id := "abc1239", listId := inboxId, summary := "phone" }]

/-- A longer word finds what a shorter one found, and two of the short ids are the same. -/
theorem resolveItem_stable_ledger :
    let milk : Item := { id := "abd4561", listId := inboxId, summary := "milk" }
    let phone : Item := { id := "abc1239", listId := inboxId, summary := "phone" }
    DistinctIds ledger.items ∧
      (ledger.resolveItem " abd\n" = .ok milk ∧ ledger.resolveItem "abd45" = .ok milk) ∧
      (phone ∈ ledger.items ∧ ledger.resolveItem "abc1239" = .ok phone) ∧
      ledger.resolveItem "abc123\t" = .error (.ambiguousItem "abc123" 2) ∧
      (ledger.resolveItem (shortId phone.id) = .ok phone ∨
        ∃ count, ledger.resolveItem (shortId phone.id) =
          .error (.ambiguousItem (shortId phone.id) count)) := by
  intro milk phone
  have hd : DistinctIds ledger.items := by decide
  have hphone : phone ∈ ledger.items := by decide
  have hmilk : ledger.resolveItem " abd\n" = .ok milk := by decide +kernel
  have hwords : ∀ item ∈ ledger.items,
      item.id ≠ "" ∧ ∀ c ∈ item.id.toList, isBlank c = false := by
    have hall : ledger.items.all (fun item => item.id != "" && item.id.toList.all (!isBlank ·)) =
        true := by decide +kernel
    simpa using hall
  obtain ⟨hextend, hid, hambiguous, hshort⟩ := resolveItem_stable hd
  refine ⟨hd, ⟨hmilk, ?_⟩, ⟨hphone, ?_⟩, ?_, ?_⟩
  · exact hextend " abd\n" "abd45" milk hmilk (by decide +kernel) (by decide +kernel)
      (by decide +kernel)
  · exact hid phone hphone (by decide +kernel)
  · exact (hambiguous "abc123\t" "abc123" 2).mpr (by decide +kernel)
  · exact hshort hwords (by decide +kernel) phone hphone

end Agenda.Store

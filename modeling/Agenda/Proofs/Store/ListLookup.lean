/-
Agenda/Proofs/Store/ListLookup.lean

Finding lists by what people type, and what is suggested where none is found.

A list is found by its id, or else by its name without regard to case
(`ListResolves`).  Otherwise the *nearest* list may be suggested: the first one
with the least distance, the number of single characters to put in, take out or
replace until the word has become the list's name (`Away`, `Nearest`).  Lists
without a name are passed over, and what is more than `maxSuggestionDistance`
away is not suggested (`Suggests`).

Looking up and suggesting are different searches, and they agree:

* a name at distance zero would have been found (`pos_of_nearest`), so that the
  lower bound in `similarName?` never leaves a name out;
* what is suggested is found in turn, if there are no blanks around the names of
  lists (`exists_resolveList_of_listed`).
-/
import Agenda.Store.Lookup
import Agenda.Proofs.Text.Blank
import Agenda.Proofs.Text.EditDistance

namespace Agenda

open Text

/-! ### The nearest name -/

section Nearest

variable {distance : String → Nat} {names : List String} {name : String}

theorem nearest?_eq_none_iff : nearest? distance names = none ↔ names = [] := by
  constructor
  · intro h
    cases names with
    | nil => rfl
    | cons name names =>
      rw [nearest?] at h
      split at h
      · split at h <;> cases h
      · cases h
  · rintro rfl
    rfl

/-- **The nearest name is the first with its distance, and no name is closer.** -/
theorem find?_of_nearest? (h : nearest? distance names = some name) :
    names.find? (fun other => distance other = distance name) = some name ∧
      ∀ other ∈ names, distance name ≤ distance other := by
  induction names generalizing name with
  | nil => cases h
  | cons head names ih =>
    rw [nearest?] at h
    -- a later name is taken only if it is closer, so that the first one wins a tie
    split at h
    · next best hbest =>
      obtain ⟨hfirst, hleast⟩ := ih hbest
      split at h
      · next hlt =>
        obtain rfl : best = name := Option.some.inj h
        refine ⟨?_, List.forall_mem_cons.mpr ⟨hlt.le, hleast⟩⟩
        rw [List.find?_cons_of_neg (by simpa using hlt.ne'), hfirst]
      · next hge =>
        obtain rfl : head = name := Option.some.inj h
        have hhead : distance head ≤ distance best := not_lt.mp hge
        exact ⟨List.find?_cons_of_pos (decide_eq_true rfl),
          List.forall_mem_cons.mpr
            ⟨le_refl _, fun other hother => hhead.trans (hleast other hother)⟩⟩
    · next hnone =>
      obtain rfl : head = name := Option.some.inj h
      rw [nearest?_eq_none_iff.mp hnone]
      exact ⟨List.find?_cons_of_pos (decide_eq_true rfl), List.forall_mem_singleton.mpr (le_refl _)⟩

end Nearest

namespace Store

variable {store : Store} {lists : List TodoList} {list other : TodoList} {query word : String}
  {d : Nat} {suggestion : Option String}

/-! ### What a look-up comes to -/

/-- The list has the property, and none before it has. -/
def FirstIn (p : TodoList → Prop) (lists : List TodoList) (list : TodoList) : Prop :=
  ∃ front back, lists = front ++ list :: back ∧ p list ∧ ∀ other ∈ front, ¬ p other

/-- The word is so many edits away from the name of the list, case ignored. -/
def Away (word : String) (list : TodoList) (d : Nat) : Prop :=
  IsLeast {n | Edits n (lower word).toList (lower list.name).toList} d

/-- The first list with the least distance, among those that have a name. -/
def Nearest (lists : List TodoList) (word : String) (list : TodoList) (d : Nat) : Prop :=
  FirstIn (fun list => list.name ≠ "" ∧ Away word list d) lists list ∧
    ∀ other ∈ lists, other.name ≠ "" → ∀ n, Away word other n → d ≤ n

/-- What is suggested for a word that no list has for its name. -/
inductive Suggests (lists : List TodoList) (word : String) : Option String → Prop
  /-- The name of the nearest list. -/
  | near {list : TodoList} {d : Nat} : Nearest lists word list d → d ≤ maxSuggestionDistance →
      Suggests lists word (some list.name)
  /-- No list is near. -/
  | far : (∀ list d, Nearest lists word list d → maxSuggestionDistance < d) →
      Suggests lists word none

/-- What the look-up of a word without blanks around it comes to. -/
inductive ListResolves (store : Store) (word : String) : Except StoreError TodoList → Prop
  /-- The word is an id. -/
  | id {list : TodoList} : FirstIn (fun list => list.id = word) store.lists list →
      ListResolves store word (.ok list)
  /-- The word is a name. -/
  | name {list : TodoList} : (∀ other ∈ store.lists, other.id ≠ word) →
      FirstIn (fun list => lower list.name = lower word) store.lists list →
      ListResolves store word (.ok list)
  /-- The word is neither. -/
  | missing {suggestion : Option String} : (∀ other ∈ store.lists, other.id ≠ word) →
      (∀ other ∈ store.lists, lower other.name ≠ lower word) →
      Suggests store.lists word suggestion →
      ListResolves store word (.error (.listNotFound word suggestion))

/-! ### Searching lists -/

theorem FirstIn.mem {p : TodoList → Prop} (h : FirstIn p lists list) : list ∈ lists := by
  obtain ⟨front, back, rfl, -, -⟩ := h
  exact List.mem_append_right front List.mem_cons_self

theorem firstIn_of_find? {p : TodoList → Prop} {found : TodoList → Bool}
    (hfound : ∀ list, found list = true ↔ p list) (h : lists.find? found = some list) :
    FirstIn p lists list := by
  obtain ⟨hlist, front, back, hlists, hfront⟩ := List.find?_eq_some_iff_append.mp h
  refine ⟨front, back, hlists, (hfound list).mp hlist, fun other hother hp => ?_⟩
  have hnot := hfront other hother
  rw [(hfound other).mpr hp] at hnot
  cases hnot

/-- What is at a distance is at this distance only. -/
theorem away_iff : Away word list d ↔ editDistance (lower word) (lower list.name) = d := by
  have hleast := isLeast_editDistance (lower word) (lower list.name)
  refine ⟨fun h => hleast.unique h, ?_⟩
  rintro rfl
  exact hleast

/-- **No name at distance zero is left to suggest**: it would have been found. -/
theorem pos_of_nearest (hname : ∀ other ∈ lists, lower other.name ≠ lower word)
    (h : Nearest lists word list d) : 0 < d := by
  have hmem := h.1.mem
  obtain ⟨⟨front, back, -, ⟨-, haway⟩, -⟩, -⟩ := h
  rw [Nat.pos_iff_ne_zero]
  rintro rfl
  have hsame : (lower word).toList = (lower list.name).toList := edits_zero_iff.mp haway.1
  exact hname list hmem (String.toList_inj.mp hsame).symm

/-! ### Suggestions -/

/-- Of the names that are not empty, the nearest one is that of the nearest list. -/
theorem exists_nearest_of_nearest? {name : String}
    (h : nearest? (fun name => editDistance (lower word) (lower name))
      ((lists.map TodoList.name).filter fun name => !name.isEmpty) = some name) :
    ∃ list, list.name = name ∧
      Nearest lists word list (editDistance (lower word) (lower name)) := by
  obtain ⟨hfirst, hleast⟩ := find?_of_nearest? h
  rw [List.find?_filter, List.find?_map, Option.map_eq_some_iff] at hfirst
  obtain ⟨list, hlist, hname⟩ := hfirst
  refine ⟨list, hname, firstIn_of_find? (fun other => ?_) hlist, ?_⟩
  · rw [away_iff]
    simp
  · intro other hother hne n haway
    rw [← away_iff.mp haway]
    refine hleast other.name (List.mem_filter.mpr ⟨List.mem_map_of_mem hother, ?_⟩)
    simpa using hne

/-- There is one least distance. -/
theorem Nearest.unique {n : Nat} (h : Nearest lists word list d) (h' : Nearest lists word other n) :
    d = n := by
  have hmem := h.1.mem
  have hmem' := h'.1.mem
  obtain ⟨⟨_, _, -, ⟨hne, haway⟩, -⟩, hleast⟩ := h
  obtain ⟨⟨_, _, -, ⟨hne', haway'⟩, -⟩, hleast'⟩ := h'
  exact le_antisymm (hleast other hmem' hne' n haway') (hleast' list hmem hne d haway)

/-- **What is suggested where no list has the word for its name.** -/
theorem suggests_similarName? (hname : ∀ other ∈ lists, lower other.name ≠ lower word) :
    Suggests lists word (similarName? word (lists.map TodoList.name)) := by
  rw [similarName?]
  cases h : nearest? (fun name => editDistance (lower word) (lower name))
      ((lists.map TodoList.name).filter fun name => !name.isEmpty) with
  | none =>
    -- all names are empty, and no list is the nearest
    refine .far fun list d hnearest => ?_
    have hmem := hnearest.1.mem
    obtain ⟨⟨_, _, -, ⟨hne, -⟩, -⟩, -⟩ := hnearest
    rw [nearest?_eq_none_iff, List.filter_eq_nil_iff] at h
    exact absurd (by simpa using hne) (h list.name (List.mem_map_of_mem hmem))
  | some name =>
    obtain ⟨list, rfl, hnearest⟩ := exists_nearest_of_nearest? h
    -- of the two bounds the one from below always holds
    have hpos := pos_of_nearest hname hnearest
    by_cases hnear : editDistance (lower word) (lower list.name) ≤ maxSuggestionDistance
    · rw [Option.filter_some_pos (by simp [hpos, hnear])]
      exact .near hnearest hnear
    · rw [Option.filter_some_neg (by simp [hnear])]
      refine .far fun other n hother => ?_
      rw [hother.unique hnearest]
      exact not_le.mp hnear

theorem Suggests.mem {name : String} (h : Suggests lists word (some name)) :
    ∃ list ∈ lists, list.name = name := by
  cases h with
  | near hnearest _ => exact ⟨_, hnearest.1.mem, rfl⟩

/-! ### Looking up and suggesting -/

/-- **Every look-up comes to one of these.** -/
theorem listResolves_resolveList (store : Store) (query : String) :
    store.ListResolves (trim query) (store.resolveList query) := by
  simp only [resolveList]
  cases hid : store.lists.find? fun list => list.id = trim query with
  | some list => exact .id (firstIn_of_find? (fun _ => decide_eq_true_iff) hid)
  | none =>
    have hnone : ∀ other ∈ store.lists, other.id ≠ trim query := by simpa using hid
    rw [Option.none_or]
    cases hname : store.lists.find? fun list => lower list.name = lower (trim query) with
    | some list => exact .name hnone (firstIn_of_find? (fun _ => decide_eq_true_iff) hname)
    | none =>
      have hmissing : ∀ other ∈ store.lists, lower other.name ≠ lower (trim query) := by
        simpa using hname
      exact .missing hnone hmissing (suggests_similarName? hmissing)

/-- **A name that a list has finds a list**, if there are no blanks around it. -/
theorem exists_resolveList_of_listed (hlist : list ∈ store.lists)
    (htrim : trim list.name = list.name) :
    ∃ found, store.resolveList list.name = .ok found := by
  have hresolves := store.listResolves_resolveList list.name
  rw [htrim] at hresolves
  generalize store.resolveList list.name = result at hresolves
  cases hresolves with
  | id | name => exact ⟨_, rfl⟩
  | missing _ hmissing _ => exact absurd rfl (hmissing list hlist)

/-- **Looking a list up and suggesting one agree.**

* A look-up finds the first list whose id is the word, or else the first whose name is the word,
  case ignored.  Otherwise it names the word, without the blanks around it, and the suggestion is
  the name of the nearest list, if there is one and it is at most three edits away.
* Where no list is found, the nearest one is never at distance zero.
* If there are no blanks around the names of lists, what is suggested is found. -/
theorem resolveList_agrees (store : Store) (query : String) :
    store.ListResolves (trim query) (store.resolveList query) ∧
      (∀ e, store.resolveList query = .error e →
        ∀ list d, Nearest store.lists (trim query) list d → 0 < d) ∧
      ((∀ list ∈ store.lists, trim list.name = list.name) →
        ∀ word name, store.resolveList query = .error (.listNotFound word (some name)) →
          ∃ list, store.resolveList name = .ok list) := by
  have hresolves := store.listResolves_resolveList query
  refine ⟨hresolves, ?_, ?_⟩
  · intro e he list d hnearest
    rw [he] at hresolves
    cases hresolves with
    | missing _ hmissing _ => exact pos_of_nearest hmissing hnearest
  · intro htrim word name he
    rw [he] at hresolves
    cases hresolves with
    | missing _ _ hsuggests =>
      obtain ⟨list, hlist, rfl⟩ := hsuggests.mem
      exact exists_resolveList_of_listed hlist (htrim list hlist)

/-- Lists of which one has no name and two are as near to `wokr`. -/
def desks : Store where
  lists := [.inbox, { id := "d1" }, { id := "d2", name := "Work" }, { id := "d3", name := "Word" }]

/-- The first of the two is suggested, and it is found. -/
theorem resolveList_agrees_desks :
    (∀ list ∈ desks.lists, trim list.name = list.name) ∧
      desks.resolveList " Wokr\t" = .error (.listNotFound "Wokr" (some "Work")) ∧
      Suggests desks.lists "Wokr" (some "Work") ∧
      ∃ list, desks.resolveList "Work" = .ok list := by
  have htrim : ∀ list ∈ desks.lists, trim list.name = list.name := by decide +kernel
  have hquery : trim " Wokr\t" = "Wokr" := by decide +kernel
  have hmissing : desks.resolveList " Wokr\t" = .error (.listNotFound "Wokr" (some "Work")) := by
    decide +kernel
  obtain ⟨hresolves, -, hfound⟩ := resolveList_agrees desks " Wokr\t"
  rw [hquery, hmissing] at hresolves
  refine ⟨htrim, hmissing, ?_, hfound htrim "Wokr" "Work" hmissing⟩
  cases hresolves with
  | missing _ _ hsuggests => exact hsuggests

end Store

end Agenda

/-
Agenda/Proofs/Report/Colors.lean

Colours in the table of a view, seen by a reader who takes them away again.
`uncolored` removes the sequences `ESC [ … m` from a text, and

    ShownAs painted plain

says that `painted` leaves `plain` when this is done, wherever it stands.  Painted
text is shown as the text itself, and so is a row of painted cells, with one
exception: the check box of a done item is painted before it is padded, and the
sequences count for its width.  So nothing fills its column, and the summary of a
done item stands one place further to the left than without colours:

    uncolored (viewTable view true)  =  the table whose check boxes take
                                        3 places if the item is done, and else 4

(`uncolored_viewTable`).  The two tables are the same exactly if no item of the view
is done.  In the table of lists only the last cell of a row is painted, and its layout
is the same with and without colours (`uncolored_listsTable`).
-/
import Agenda.Proofs.Text.Digits
import Agenda.Proofs.Timestamp
import Agenda.Report.Table
import Mathlib.Data.List.Forall2

namespace Agenda.Report

/-! ### Taking colours away -/

/-- What follows a sequence `ESC [ … m` at the start of a text.  Between its brackets stand digits
and semicolons. -/
def afterSequence? : List Char → Option (List Char)
  | '\x1b' :: '[' :: cs =>
    match cs.dropWhile fun c => c.isDigit || c = ';' with
    | 'm' :: rest => some rest
    | _ => none
  | _ => none

theorem length_lt_of_afterSequence? {cs rest : List Char} (h : afterSequence? cs = some rest) :
    rest.length < cs.length := by
  unfold afterSequence? at h
  split at h
  · next cs =>
    have hle : (cs.dropWhile fun c => c.isDigit || c = ';').length ≤ cs.length :=
      (List.dropWhile_suffix _).length_le
    split at h
    · next hdrop =>
      obtain rfl := Option.some.inj h
      rw [hdrop] at hle
      simp only [List.length_cons] at hle ⊢
      omega
    · cases h
  · cases h

/-- The characters of a text without its colour sequences. -/
def uncoloredChars (cs : List Char) : List Char :=
  match h : afterSequence? cs with
  | some rest =>
    have := length_lt_of_afterSequence? h
    uncoloredChars rest
  | none =>
    match cs with
    | [] => []
    | c :: cs => c :: uncoloredChars cs
termination_by cs.length

theorem uncoloredChars_of_afterSequence? {cs rest : List Char} (h : afterSequence? cs = some rest) :
    uncoloredChars cs = uncoloredChars rest := by
  rw [uncoloredChars]
  split
  · next hsome =>
    cases h.symm.trans hsome
    rfl
  · next hnone => cases h.symm.trans hnone

theorem uncoloredChars_cons {c : Char} {cs : List Char} (h : afterSequence? (c :: cs) = none) :
    uncoloredChars (c :: cs) = c :: uncoloredChars cs := by
  rw [uncoloredChars]
  split
  · next hsome => cases h.symm.trans hsome
  · rfl

@[simp] theorem uncoloredChars_nil : uncoloredChars [] = [] := by
  rw [uncoloredChars]
  rfl

/-- A text without its colour sequences. -/
def uncolored (s : String) : String :=
  String.ofList (uncoloredChars s.toList)

/-- There is no escape character in the text. -/
def NoEscape (s : String) : Prop :=
  '\x1b' ∉ s.toList

instance (s : String) : Decidable (NoEscape s) :=
  inferInstanceAs (Decidable (_ ∉ _))

theorem NoEscape.append {s t : String} (hs : NoEscape s) (ht : NoEscape t) : NoEscape (s ++ t) := by
  rw [NoEscape, String.toList_append, List.mem_append]
  exact not_or.mpr ⟨hs, ht⟩

theorem escape_notMem_digits {digits : List Char} (h : ∀ c ∈ digits, c.isDigit = true) :
    '\x1b' ∉ digits := by
  intro hmem
  cases h _ hmem

/-- Numbers are written with digits only. -/
theorem noEscape_toString (n : Nat) : NoEscape (toString n) := by
  have hdigits := escape_notMem_digits (Text.isDigit_of_mem_toDigits (n := n))
  simpa [NoEscape] using hdigits

theorem noEscape_shortId {id : String} (h : NoEscape id) : NoEscape (shortId id) := by
  rw [NoEscape, toList_shortId]
  exact fun hmem => h (List.mem_of_mem_take hmem)

theorem noEscape_padded (width : Nat) {s : String} (h : NoEscape s) :
    NoEscape (padded width s) := by
  refine h.append ?_
  rw [NoEscape, String.toList_ofList]
  intro hmem
  cases (List.mem_replicate.mp hmem).2

/-! ### What painted text is shown as -/

/-- Without its colours, `painted` is `plain`, whatever follows. -/
def ShownAs (painted plain : String) : Prop :=
  ∀ rest, uncoloredChars (painted.toList ++ rest) = plain.toList ++ uncoloredChars rest

namespace ShownAs

variable {painted plain painted' plain' : String}

theorem uncolored_eq (h : ShownAs painted plain) : uncolored painted = plain := by
  have hall := h []
  rw [List.append_nil] at hall
  rw [uncolored, hall, uncoloredChars_nil, List.append_nil, String.ofList_toList]

theorem append (h : ShownAs painted plain) (h' : ShownAs painted' plain') :
    ShownAs (painted ++ painted') (plain ++ plain') := by
  intro rest
  rw [String.toList_append, List.append_assoc, h, h', String.toList_append, List.append_assoc]

/-- A text without escape characters is shown as it stands. -/
theorem of_noEscape {s : String} (h : NoEscape s) : ShownAs s s := by
  intro rest
  unfold NoEscape at h
  generalize s.toList = chars at h ⊢
  induction chars with
  | nil => rfl
  | cons c cs ih =>
    obtain ⟨hc, hcs⟩ := not_or.mp (List.mem_cons.not.mp h)
    have hnone : afterSequence? (c :: (cs ++ rest)) = none := by
      unfold afterSequence?
      split
      · next heq => exact absurd (List.cons.inj heq).1.symm hc
      · rfl
    rw [List.cons_append, uncoloredChars_cons hnone, ih hcs, List.cons_append]

/-- The sequences of a rendition are taken away. -/
theorem paint (style : Style) (h : ShownAs painted plain) :
    ShownAs (style.paint painted) plain := by
  have hstart : ∀ cs, afterSequence? (style.start.toList ++ cs) = some cs := by
    intro cs
    cases style <;> rfl
  have hstop : ∀ cs, afterSequence? (style.stop.toList ++ cs) = some cs := by
    intro cs
    cases style <;> rfl
  intro rest
  rw [Style.paint, String.toList_append, String.toList_append, List.append_assoc,
    List.append_assoc, uncoloredChars_of_afterSequence? (hstart _), h,
    uncoloredChars_of_afterSequence? (hstop _)]

/-- Pieces that are shown as others, one by one. -/
theorem join {painted plain : List String} (h : List.Forall₂ ShownAs painted plain) :
    ShownAs (String.join painted) (String.join plain) := by
  intro rest
  rw [String.toList_join, String.toList_join]
  induction h with
  | nil => rfl
  | cons hs _ ih =>
    rw [List.flatMap_cons, List.flatMap_cons, List.append_assoc, hs, ih, List.append_assoc]

end ShownAs

/-! ### Rows -/

/-- The row of an item without colours, whose check box takes this many places. -/
def plainRow (width : Nat) (item : Item) (index : Nat) : String :=
  padded 4 (toString index) ++ " " ++ padded 8 (shortId item.id) ++ " " ++
    padded width (statusCell item.isComplete false) ++ " " ++ item.summary ++ "\n"

/-- The table of a view without colours, whose check boxes take these many places. -/
def plainTable (width : Item → Nat) (view : List Item) : String :=
  if view.isEmpty then "No items found.\n"
  else
    itemLine "#" "ID" "Done" "Summary" ++ "\n" ++
      String.join (view.mapIdx fun index item => plainRow (width item) item index)

/-- The places that the check box of an item takes where colours are shown. -/
def coloredWidth (item : Item) : Nat :=
  if item.isComplete then 3 else 4

theorem viewTable_false (view : List Item) : viewTable view false = plainTable (fun _ => 4) view :=
  rfl

theorem shownAs_summaryCell {summary : String} (h : NoEscape summary) (isComplete : Bool) :
    ShownAs (summaryCell summary isComplete true) summary := by
  rw [summaryCell, Bool.true_and]
  cases isComplete with
  | true => exact ((ShownAs.of_noEscape h).paint Style.dimmed).paint Style.struck
  | false => exact .of_noEscape h

/-- A painted check box fills its column by itself, as far as its characters are counted. -/
theorem shownAs_statusCell (item : Item) :
    ShownAs (padded 4 (statusCell item.isComplete true))
      (padded (coloredWidth item) (statusCell item.isComplete false)) := by
  rw [coloredWidth]
  cases item.isComplete with
  | true =>
    have hpadded : padded 4 (statusCell true true) = Style.green.paint "[x]" := by decide
    rw [hpadded]
    exact (ShownAs.of_noEscape (s := "[x]") (by decide)).paint Style.green
  | false => exact .of_noEscape (by decide)

theorem shownAs_itemRow {item : Item} (hid : NoEscape item.id) (hsummary : NoEscape item.summary)
    (index : Nat) :
    ShownAs (itemRow true item index) (plainRow (coloredWidth item) item index) := by
  have hblank : ShownAs " " " " := .of_noEscape (by decide)
  have hindex := ShownAs.of_noEscape (noEscape_padded 4 (noEscape_toString index))
  have hshort := ShownAs.of_noEscape (noEscape_padded 8 (noEscape_shortId hid))
  exact (((((hindex.append hblank).append hshort).append hblank).append
    (shownAs_statusCell item)).append hblank).append
      (shownAs_summaryCell hsummary item.isComplete) |>.append (.of_noEscape (by decide))

/-! ### Tables -/

theorem shownAs_viewTable {view : List Item}
    (h : ∀ item ∈ view, NoEscape item.id ∧ NoEscape item.summary) :
    ShownAs (viewTable view true) (plainTable coloredWidth view) := by
  rw [viewTable, plainTable]
  split
  · exact .of_noEscape (by decide)
  · have hheader : ShownAs (headerLine (itemLine "#" "ID" "Done" "Summary") true)
        (itemLine "#" "ID" "Done" "Summary" ++ "\n") :=
      ((ShownAs.of_noEscape (by decide)).paint Style.dimmed).append (.of_noEscape (by decide))
    refine hheader.append (.join ?_)
    rw [List.forall₂_iff_get]
    refine ⟨by simp, fun i hi _ => ?_⟩
    have hslot : i < view.length := by simpa using hi
    obtain ⟨hid, hsummary⟩ := h view[i] (List.getElem_mem hslot)
    simpa using shownAs_itemRow hid hsummary i

/-! ### The width of a column -/

@[simp] theorem length_padded (width : Nat) (s : String) :
    (padded width s).length = max width s.length := by
  rw [padded, String.length_append, String.length_ofList, List.length_replicate]
  omega

/-- A check box takes three characters, and a column of four one more. -/
theorem length_plainRow (item : Item) (index : Nat) :
    (plainRow (coloredWidth item) item index).length + (if item.isComplete then 1 else 0) =
      (plainRow 4 item index).length := by
  have hbox : (statusCell item.isComplete false).length = 3 := by
    cases item.isComplete <;> rfl
  simp only [plainRow, String.length_append, length_padded, hbox, coloredWidth]
  split <;> omega

theorem length_join_mapIdx (view : List Item) {row row' : Nat → Item → String}
    {missing : Item → Bool}
    (h : ∀ index item, (row index item).length + (if missing item then 1 else 0) =
      (row' index item).length) :
    (String.join (view.mapIdx row)).length + view.countP missing =
      (String.join (view.mapIdx row')).length := by
  have hjoin : ∀ (s : String) (l : List String),
      (String.join (s :: l)).length = s.length + (String.join l).length := by
    intro s l
    rw [← String.length_append]
    congr 1
    rw [← String.toList_inj, String.toList_append, String.toList_join, String.toList_join,
      List.flatMap_cons]
  induction view generalizing row row' with
  | nil => rfl
  | cons item view ih =>
    have hfirst := h 0 item
    have hrest : (String.join (view.mapIdx fun i => row (i + 1))).length + view.countP missing =
        (String.join (view.mapIdx fun i => row' (i + 1))).length :=
      ih fun index item => h (index + 1) item
    rw [List.mapIdx_cons, List.mapIdx_cons, hjoin, hjoin, List.countP_cons]
    omega

/-- Where colours are taken away, one place is missing for each done item. -/
theorem length_plainTable (view : List Item) :
    (plainTable coloredWidth view).length + view.countP Item.isComplete =
      (plainTable (fun _ => 4) view).length := by
  have hrows := length_join_mapIdx view fun index item => length_plainRow item index
  rw [plainTable, plainTable]
  split
  · next hempty =>
    rw [List.isEmpty_iff.mp hempty]
    rfl
  · simp only [String.length_append]
    omega

/-- **The table of a view, seen without its colours.**  Ids and summaries may hold any characters
but escapes.  Each row is as it is without colours, but for the check box of a done item, which
takes three places instead of four; so the table is the same exactly if no item of the view is
done. -/
theorem uncolored_viewTable (view : List Item)
    (h : ∀ item ∈ view, NoEscape item.id ∧ NoEscape item.summary) :
    uncolored (viewTable view true) = plainTable coloredWidth view ∧
      (uncolored (viewTable view true) = viewTable view false ↔
        ∀ item ∈ view, item.isComplete = false) := by
  have huncolored := (shownAs_viewTable h).uncolored_eq
  refine ⟨huncolored, ?_⟩
  have hlength := length_plainTable view
  rw [huncolored, viewTable_false]
  constructor
  · intro hsame item hitem
    rw [hsame] at hlength
    have hnone : view.countP Item.isComplete = 0 := by omega
    exact Bool.eq_false_iff.mpr (List.countP_eq_zero.mp hnone item hitem)
  · intro hopen
    have hwidth : ∀ item ∈ view, coloredWidth item = 4 := fun item hitem => by
      rw [coloredWidth, hopen item hitem]
      rfl
    have hrows : (view.mapIdx fun index item => plainRow (coloredWidth item) item index) =
        view.mapIdx fun index item => plainRow 4 item index :=
      List.mapIdx_eq_mapIdx_iff.mpr fun i hi => by rw [hwidth _ (List.getElem_mem hi)]
    rw [plainTable, plainTable, hrows]

/-- An open item and a done one; the summary of the second stands one place to the left. -/
theorem uncolored_viewTable_errands :
    let view : List Item := [{ id := "abcdef123", listId := inboxId, summary := "milk" },
      { id := "xyz", listId := inboxId, summary := "post", isComplete := true }]
    (∀ item ∈ view, NoEscape item.id ∧ NoEscape item.summary) ∧
      uncolored (viewTable view true) =
        "#    ID       Done Summary\n0    abcdef   [ ]  milk\n1    xyz      [x] post\n" := by
  intro view
  have h : ∀ item ∈ view, NoEscape item.id ∧ NoEscape item.summary := by decide
  exact ⟨h, (uncolored_viewTable view h).1.trans (by decide)⟩

/-- Colours change the layout of a table with a done item. -/
theorem uncolored_viewTable_ne :
    ¬ ∀ view : List Item, (∀ item ∈ view, NoEscape item.id ∧ NoEscape item.summary) →
      uncolored (viewTable view true) = viewTable view false := by
  intro hsame
  let view : List Item := [{ id := "a", listId := inboxId, summary := "milk", isComplete := true }]
  have h : ∀ item ∈ view, NoEscape item.id ∧ NoEscape item.summary := by decide
  have hlength := length_plainTable view
  rw [← (shownAs_viewTable h).uncolored_eq, hsame view h, viewTable_false] at hlength
  simp [view] at hlength

/-! ### The table of lists -/

theorem noEscape_shortened (width : Nat) {s : String} (h : NoEscape s) :
    NoEscape (shortened s width) := by
  rw [shortened]
  split
  · refine NoEscape.append ?_ (by decide)
    rw [NoEscape, String.toList_ofList]
    exact fun hmem => h (List.mem_of_mem_take hmem)
  · exact h

theorem escape_notMem_yearDigits (year : Int) : '\x1b' ∉ yearDigits year := by
  rw [yearDigits]
  split
  · exact escape_notMem_digits isDigit_of_mem_paddedDigits
  · rw [List.mem_cons, not_or]
    constructor
    · split <;> decide
    · split
      · exact escape_notMem_digits isDigit_of_mem_paddedDigits
      · exact escape_notMem_digits Text.isDigit_of_mem_toDigits

theorem noEscape_savedAtCell (savedAt : Option Timestamp) : NoEscape (savedAtCell savedAt) := by
  cases savedAt with
  | none => decide
  | some t =>
    have hdigits : ∀ width n, '\x1b' ∉ paddedDigits width n := fun width n =>
      escape_notMem_digits isDigit_of_mem_paddedDigits
    rw [NoEscape, savedAtCell, Timestamp.renderShort, String.toList_ofList]
    simp [Date.render, Timestamp.renderMinute, hdigits, escape_notMem_yearDigits]

/-- The name of the current list is painted, and nothing is filled up behind it. -/
theorem shownAs_listRow (store : Store) (current : String) {list : TodoList}
    (hid : NoEscape list.id) (hname : NoEscape list.name) :
    ShownAs (listRow store current true list) (listRow store current false list) := by
  have hblank : NoEscape " " := by decide
  have hmarker : NoEscape (if decide (list.id = current) = true then "*" else "") := by
    split <;> decide
  have hnumber : ∀ n : Nat, NoEscape (padded 6 (toString n)) := fun n =>
    noEscape_padded 6 (noEscape_toString n)
  have hname := ShownAs.of_noEscape (noEscape_shortened nameWidth hname)
  have hpainted : ShownAs
      (Style.bold.paintIf (true && list.id = current) (shortened list.name nameWidth))
      (Style.bold.paintIf (false && list.id = current) (shortened list.name nameWidth)) := by
    rw [Bool.true_and, Bool.false_and, Style.paintIf_false, Style.paintIf]
    split
    · exact hname.paint Style.bold
    · exact hname
  have hcells := ((((((noEscape_padded 2 hmarker).append
    (noEscape_padded 8 (noEscape_shortId hid))).append hblank).append
    (hnumber (store.counts list.id).1)).append hblank).append
    (hnumber (store.counts list.id).2)).append hblank
  exact ((ShownAs.of_noEscape hcells).append hpainted).append (.of_noEscape (by decide))

/-- **The table of lists keeps its layout.**  Without its colours it is the table without
colours. -/
theorem uncolored_listsTable (store : Store) (current : String)
    (h : ∀ list ∈ store.lists, NoEscape list.id ∧ NoEscape list.name) :
    uncolored (listsTable store current true) = listsTable store current false := by
  have hheader : ShownAs (headerLine (listLine "" "ID" "Items" "Done" "Name") true)
      (headerLine (listLine "" "ID" "Items" "Done" "Name") false) :=
    ((ShownAs.of_noEscape (by decide)).paint Style.dimmed).append (.of_noEscape (by decide))
  have hrows : ShownAs (String.join (store.lists.map (listRow store current true)))
      (String.join (store.lists.map (listRow store current false))) := by
    refine .join ?_
    rw [List.forall₂_map_left_iff, List.forall₂_map_right_iff]
    exact List.forall₂_same.mpr fun list hlist =>
      shownAs_listRow store current (h list hlist).1 (h list hlist).2
  have hsaved := ShownAs.of_noEscape (noEscape_savedAtCell store.savedAt)
  exact ((((hheader.append hrows).append (.of_noEscape (by decide))).append hsaved).append
    (.of_noEscape (by decide))).uncolored_eq

end Agenda.Report

/-
Agenda/Proofs/Store/Appending.lean

Appending to a list.  An item that is added at the end of a view comes to lie
between the last item and a precedence assumed two steps beyond its place.  If
the items so far are *even*, the last one of `k` at `k · step`, then the new one
gets

    (k · step  +  (k + 2) · step) / 2   =   (k + 1) · step

so the view is even again, and the gap of two steps was wide enough
(`Even.insertAt_length`).  Additions to other lists leave the items alone.  So a
list that was empty shows what was added, in this order and at even distances,
however many additions to other lists came between, and is never renumbered
(`appends_even`).
-/
import Agenda.Proofs.Order.Halving
import Agenda.Proofs.Store.Range
import Agenda.Proofs.Store.Step

namespace Agenda

/-! ### Even views -/

namespace Spacing

/-- The first item has the precedence of one step, and every other item is one step after the one
before it. -/
def Even (spacing : Spacing) (view : List Item) : Prop :=
  ∀ (i : Nat) (item : Item), view[i]? = some item → item.rank = (i + 1) * spacing.step

namespace Even

variable {spacing : Spacing} {view : List Item}

theorem nil : spacing.Even [] :=
  nofun

theorem concat (h : spacing.Even view) {item : Item}
    (hrank : item.rank = (view.length + 1) * spacing.step) : spacing.Even (view ++ [item]) := by
  intro i other hother
  rw [List.getElem?_append] at hother
  split at hother
  · exact h i other hother
  · next hi =>
    obtain ⟨hzero, hsame⟩ := List.getElem?_eq_some_iff.mp hother
    have hindex : i = view.length := by
      rw [List.length_singleton] at hzero
      omega
    subst hindex
    rw [← hsame, ← hrank]
    simp

theorem map_rank (h : spacing.Even view) :
    view.map Item.rank = (List.range view.length).map fun i : Nat => (i + 1) * spacing.step := by
  apply List.ext_getElem
  · simp
  · intro i hi _
    rw [List.getElem_map, List.getElem_map, List.getElem_range]
    exact h i _ (List.getElem?_eq_getElem _)

theorem inOrder (h : spacing.Even view) : InOrder view := by
  apply inOrder_of_pairwise_lt
  rw [List.pairwise_map, List.pairwise_iff_getElem]
  intro i j hi hj hij
  rw [Int64.lt_iff_toInt_lt]
  show view[i].rank < view[j].rank
  rw [h i _ (List.getElem?_eq_getElem hi), h j _ (List.getElem?_eq_getElem hj)]
  exact Int.mul_lt_mul_of_pos_right (by omega) spacing.step_pos

/-- The gap at the end of an even view starts where its last item is, or at 0. -/
theorem toInt_lowAt (h : spacing.Even view) :
    (lowAt (view.map Item.precedence) view.length).toInt = view.length * spacing.step := by
  rcases hlength : view.length with _ | k
  · rw [lowAt, if_pos rfl]
    simp
  · have hlast : view[k]? = some view[k] := List.getElem?_eq_getElem _
    rw [lowAt, if_neg (Nat.succ_ne_zero k), Nat.add_sub_cancel, List.getD_eq_getElem?_getD,
      List.getElem?_map, hlast]
    exact h k _ hlast

/-- **An item at the end of an even view keeps it even**, and there is room for it. -/
theorem insertAt_length (h : spacing.Even view)
    (hroom : (view.length + 2) * spacing.step ≤ maxPrecedence) (item : Item) :
    ∃ placed, spacing.insertAt view item view.length =
        (.placed placed.precedence false, placed, view) ∧
      item.Reranked placed ∧ spacing.Even (view ++ [placed]) := by
  have hlow := h.toInt_lowAt
  have hhigh : (spacing.highAt (view.map Item.precedence) view.length).toInt =
      (view.length + 2) * spacing.step := by
    rw [highAt, List.getD_eq_default _ _ (by rw [List.length_map])]
    exact spacing.toInt_beyond (le_refl _) hroom
  -- the gap is two steps wide, so that its middle is one step after the last item
  have hgap : (view.length + 2) * spacing.step - view.length * spacing.step = 2 * spacing.step := by
    ring
  have hwide : ¬ spacing.Cramped (view.map Item.precedence) view.length := by
    have hstep := spacing.step_pos
    have hmin := spacing.minGap_le_step
    rw [Cramped, saturate_lt_minGap_iff, hlow, hhigh, hgap]
    omega
  have hmiddle : (midpoint (lowAt (view.map Item.precedence) view.length)
      (spacing.highAt (view.map Item.precedence) view.length)).toInt =
        (view.length + 1) * spacing.step := by
    have hsum : view.length * spacing.step + (view.length + 2) * spacing.step =
        2 * ((view.length + 1) * spacing.step) := by ring
    rw [toInt_midpoint, hlow, hhigh, hsum]
    omega
  have hinserted := spacing.insertAt_of_not_cramped (le_refl _) item hwide
  generalize midpoint (lowAt (view.map Item.precedence) view.length)
    (spacing.highAt (view.map Item.precedence) view.length) = middle at hinserted hmiddle
  exact ⟨{ item with precedence := middle }, hinserted, rfl, h.concat hmiddle⟩

end Even

end Spacing

/-! ### Additions -/

/-- What an item is added with. -/
structure Addition where
  /-- The list that the item is added to. -/
  listId : String
  /-- The text of the item. -/
  summary : String
  /-- What is selected in the list. -/
  after : Selection := Selection.empty
  /-- The id of the item. -/
  newId : String
deriving DecidableEq

namespace Addition

/-- The addition as an operation. -/
def operation (a : Addition) : Operation :=
  .addItem a.listId a.summary a.after a.newId

/-- The item that is added, before it has a place. -/
def item (a : Addition) : Item where
  id := a.newId
  listId := a.listId
  summary := Text.trim a.summary

end Addition

namespace Store

variable {store : Store} {spacing : Spacing} {listId : String} {adds appended : List Addition}

/-- The list is there and holds what was appended, at even distances. -/
structure Filled (spacing : Spacing) (listId : String) (appended : List Addition) (store : Store) :
    Prop where
  /-- The list is there. -/
  listed : store.hasList listId = true
  /-- The spacing is what it was. -/
  spacing_eq : store.spacing = spacing
  /-- The items of the list, in the order of storage, are those that were appended. -/
  items : List.Forall₂ Item.Reranked (appended.map Addition.item)
    (store.items.filter fun item => item.listId = listId)
  /-- They are at even distances. -/
  even : spacing.Even (store.items.filter fun item => item.listId = listId)

namespace Filled

theorem length_eq (h : Filled spacing listId appended store) :
    (store.items.filter fun item => item.listId = listId).length = appended.length := by
  rw [← h.items.length_eq, List.length_map]

/-- The view shows the items in the order of storage. -/
theorem view_eq (h : Filled spacing listId appended store) :
    store.view listId "" = store.items.filter fun item => item.listId = listId := by
  rw [view, viewOf_of_blank blank_empty, sortItems_eq_self h.even.inOrder]

/-- **One more item is appended.** -/
theorem append (h : Filled spacing listId appended store) {a : Addition} (ha : a.listId = listId)
    (hafter : a.after = Selection.empty)
    (hroom : (appended.length + 2) * spacing.step ≤ maxPrecedence) :
    ∃ store' placed placement,
      store.addItem a.listId a.summary a.after a.newId = .ok (store', placed, placement) ∧
        placement.renumbered = false ∧ Filled spacing listId (appended ++ [a]) store' := by
  subst ha
  obtain rfl := h.spacing_eq
  have hview := h.view_eq
  rw [← h.length_eq] at hroom
  obtain ⟨placed, hinserted, hreranked, heven⟩ := h.even.insertAt_length hroom a.item
  have hlist : placed.listId = a.listId := hreranked.listId_eq
  have hadd : store.addItem a.listId a.summary a.after a.newId =
      .ok ({ store with items := store.items ++ [placed] }, placed,
        .placed placed.precedence false) := by
    -- the view is even as it is, and writing it back changes nothing
    have hsame := writeBack_self store.items a.listId ""
    rw [← view, hview] at hsame
    rw [addItem, if_pos h.listed, hafter]
    dsimp only
    rw [length_slotsOf, map_fst_slotsOf, ← view, hview]
    rw [Addition.item] at hinserted
    rw [Selection.empty, Selection.insertionIndex, hinserted]
    dsimp only
    rw [hsame]
  have hitems : (store.items ++ [placed]).filter (fun item => item.listId = a.listId) =
      (store.items.filter fun item => item.listId = a.listId) ++ [placed] := by
    rw [List.filter_append, List.filter_singleton, hlist, decide_eq_true rfl, cond_true]
  refine ⟨_, placed, _, hadd, rfl, h.listed, rfl, ?_, ?_⟩
  · rw [hitems, List.map_append]
    exact List.rel_append h.items (.cons hreranked .nil)
  · rw [hitems]
    exact heven

/-- An addition to another list leaves the items of this one alone. -/
theorem other (h : Filled spacing listId appended store) {a : Addition} (ha : a.listId ≠ listId) :
    Filled spacing listId appended (store.step a.operation) := by
  have hsame : (store.step a.operation).items.filter (fun item => item.listId = listId) =
      store.items.filter fun item => item.listId = listId := by
    rw [Addition.operation, step_addItem]
    split
    · rw [List.filter_append, filter_writeBack_of_ne (store.reranked_placedItem _ _ _ _) ha.symm,
        List.filter_singleton, listId_placedItem, decide_eq_false ha, cond_false, List.append_nil]
    · rfl
  have hlists : (store.step a.operation).lists = store.lists := by
    rw [Addition.operation, step_addItem]
    split <;> rfl
  refine ⟨?_, ?_, hsame ▸ h.items, hsame ▸ h.even⟩
  · rw [hasList, hlists]
    exact h.listed
  · rw [spacing_step, h.spacing_eq]

end Filled

/-! ### Runs -/

theorem Filled.step (h : Filled spacing listId appended store) {a : Addition}
    (hafter : a.listId = listId → a.after = Selection.empty)
    (hroom : (appended.length + 2) * spacing.step ≤ maxPrecedence) :
    Filled spacing listId (appended ++ [a].filter fun a => a.listId = listId)
      (store.step a.operation) := by
  rw [List.filter_singleton]
  by_cases ha : a.listId = listId
  · obtain ⟨store', placed, placement, hadd, -, hfilled⟩ := h.append ha (hafter ha) hroom
    have hperform : store.perform a.operation = .ok store' := by
      rw [Addition.operation, perform, hadd]
      rfl
    rw [step_of_ok hperform, decide_eq_true ha]
    exact hfilled
  · rw [decide_eq_false ha, cond_false, List.append_nil]
    exact h.other ha

/-- **After a run the list holds what was appended**, whatever was added to other lists. -/
theorem Filled.run (h : Filled spacing listId appended store)
    (hafter : ∀ a ∈ adds, a.listId = listId → a.after = Selection.empty)
    (hroom : ((appended ++ adds.filter fun a => a.listId = listId).length + 2) * spacing.step ≤
      maxPrecedence) :
    Filled spacing listId (appended ++ adds.filter fun a => a.listId = listId)
      (store.run (adds.map Addition.operation)) := by
  induction adds generalizing store appended with
  | nil =>
    rw [List.filter_nil, List.append_nil]
    exact h
  | cons a adds ih =>
    obtain ⟨hfirst, hrest⟩ := List.forall_mem_cons.mp hafter
    -- there is room for all that is appended, and so for what comes first
    have hfits : (appended.length + 2) * spacing.step ≤ maxPrecedence :=
      spacing.mul_step_le (List.sublist_append_left _ _).length_le hroom
    rw [← List.singleton_append, List.filter_append, ← List.append_assoc] at hroom ⊢
    exact ih (h.step hfirst hfits) hrest hroom

/-- **Appending never renumbers.**  A list without items to which `n` items are appended, whatever
is added to other lists in between, shows these items in the order in which they were added, with
the precedences of one step, two steps and so on up to `n` steps; none of the additions to the list
fails, and none of them has it renumbered. -/
theorem appends_even (hlist : store.hasList listId = true)
    (hempty : ∀ item ∈ store.items, item.listId ≠ listId)
    (hafter : ∀ a ∈ adds, a.listId = listId → a.after = Selection.empty)
    (hroom : ((adds.countP fun a => a.listId = listId : Nat) + 2) * store.spacing.step ≤
      maxPrecedence) :
    let view := (store.run (adds.map Addition.operation)).view listId ""
    List.Forall₂ Item.Reranked
        ((adds.filter fun a => a.listId = listId).map Addition.item) view ∧
      view.map Item.rank =
        (List.range (adds.countP fun a => a.listId = listId)).map
          (fun i : Nat => (i + 1) * store.spacing.step) ∧
      ∀ k a, adds[k]? = some a → a.listId = listId → ∃ store' placed placement,
        (store.run ((adds.take k).map Addition.operation)).addItem a.listId a.summary a.after
            a.newId = .ok (store', placed, placement) ∧
          placement.renumbered = false := by
  intro view
  have hnone : store.items.filter (fun item => item.listId = listId) = [] := by
    rw [List.filter_eq_nil_iff]
    simpa using hempty
  have hstart : Filled store.spacing listId [] store :=
    ⟨hlist, rfl, hnone ▸ .nil, hnone ▸ .nil⟩
  rw [List.countP_eq_length_filter] at hroom ⊢
  have hfilled := hstart.run hafter hroom
  have hview : view = _ := hfilled.view_eq
  refine ⟨?_, ?_, fun k a hk ha => ?_⟩
  · rw [hview]
    exact hfilled.items
  · rw [hview, hfilled.even.map_rank, hfilled.length_eq]
    rfl
  · -- the additions before this one make a run of their own
    have hbefore : ((adds.take k).filter fun a => a.listId = listId).length ≤
        (adds.filter fun a => a.listId = listId).length :=
      ((List.take_sublist k adds).filter _).length_le
    have hfits := store.spacing.mul_step_le hbefore hroom
    obtain ⟨store', placed, placement, hadd, hplacement, -⟩ :=
      (hstart.run (fun b hb => hafter b (List.mem_of_mem_take hb)) hfits).append ha
        (hafter a (List.mem_of_getElem? hk) ha) hfits
    exact ⟨store', placed, placement, hadd, hplacement⟩

/-- An empty inbox beside a list that has no gap between its items. -/
def office : Store where
  lists := [TodoList.inbox, { id := "work", name := "Work" }]
  items := [{ id := "a", listId := "work", precedence := 1 },
    { id := "b", listId := "work", precedence := 2 }]

/-- Three items are appended to the inbox.  Between them the other list is renumbered, and one
addition fails. -/
theorem appends_even_office :
    let adds : List Addition := [{ listId := inboxId, summary := "post ", newId := "p" },
      { listId := "work", summary := "call", after := Selection.ofIndex 0, newId := "c" },
      { listId := inboxId, summary := "mail", newId := "m" },
      { listId := "attic", summary := "dust", newId := "d" },
      { listId := inboxId, summary := "tea", newId := "p" }]
    let view := (office.run (adds.map Addition.operation)).view inboxId ""
    office.hasList inboxId = true ∧ (∀ item ∈ office.items, item.listId ≠ inboxId) ∧
      (∀ a ∈ adds, a.listId = inboxId → a.after = Selection.empty) ∧
      ((adds.countP fun a => a.listId = inboxId : Nat) + 2) * office.spacing.step ≤
        maxPrecedence ∧
      List.Forall₂ Item.Reranked [{ id := "p", listId := inboxId, summary := "post" },
        { id := "m", listId := inboxId, summary := "mail" },
        { id := "p", listId := inboxId, summary := "tea" }] view ∧
      view.map Item.rank = [32, 64, 96] ∧
      ∃ store' placed placement,
        (office.run ((adds.take 2).map Addition.operation)).addItem inboxId "mail" Selection.empty
            "m" = .ok (store', placed, placement) ∧
          placement.renumbered = false := by
  intro adds view
  have hlist : office.hasList inboxId = true := by decide
  have hempty : ∀ item ∈ office.items, item.listId ≠ inboxId := by decide
  have hafter : ∀ a ∈ adds, a.listId = inboxId → a.after = Selection.empty := by decide
  have hroom : ((adds.countP fun a => a.listId = inboxId : Nat) + 2) * office.spacing.step ≤
      maxPrecedence := by decide
  obtain ⟨hitems, hranks, hplacements⟩ := appends_even hlist hempty hafter hroom
  have hadded : (adds.filter fun a => a.listId = inboxId).map Addition.item =
      [{ id := "p", listId := inboxId, summary := "post" },
        { id := "m", listId := inboxId, summary := "mail" },
        { id := "p", listId := inboxId, summary := "tea" }] := by decide +kernel
  exact ⟨hlist, hempty, hafter, hroom, hadded ▸ hitems, hranks,
    hplacements 2 { listId := inboxId, summary := "mail", newId := "m" } rfl rfl⟩

end Store

end Agenda

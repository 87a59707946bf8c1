/-
Agenda/Proofs/Store/Range.lean

Precedences stay small over whole runs.  A run that starts without items and
adds `n` of them keeps every precedence between 1 and `(n + 1) · step`,
whatever else it does:

    1  ≤  precedence  ≤  (n + 1) · step

Midpoints lie between such values, the value assumed after the end of a view
is at most `(n + 1) · step` as well, and so are the values of a renumber pass,
since no view has more than `n` items.  Items that are removed leave their
neighbours alone, so holes do no harm.  One step more fits for the last
running value of a pass, and hence nothing is cut off anywhere
(`precedence_run`).
-/
import Agenda.Proofs.Order.Range
import Agenda.Proofs.Store.Integrity

namespace Agenda

open Search

/-! ### What an operation places -/

/-- Every placement that an operation makes is made without leaving the 64-bit range. -/
def Operation.PlacesExactly (store : Store) : Operation → Prop
  | .addItem listId _ after _ =>
    let view := store.view listId ""
    store.hasList listId = true →
      store.spacing.Exact (view.map Item.precedence) none
        (min (after.insertionIndex view.length) view.length)
  | .moveItem listId search id target =>
    let view := store.view listId search
    ∀ origin, view.findIdx? (fun item => item.id = id) = some origin →
      origin ≠ min target (view.length - 1) →
        store.spacing.Exact (view.map Item.precedence) (some origin)
          (min target (view.length - 1))
  | _ => True

/-- The operation adds an item, if it succeeds. -/
def Operation.addsItem : Operation → Bool
  | .addItem .. => true
  | _ => false

namespace Store

/-- How many items an operation adds to the store: one if it adds an item and succeeds. -/
def growth (store : Store) (op : Operation) : Nat :=
  if op.addsItem && (store.perform op).isOk then 1 else 0

/-- How many items a run adds. -/
def additions : Store → List Operation → Nat
  | _, [] => 0
  | store, op :: ops => store.growth op + additions (store.step op) ops

/-- A store with at most `n` items, whose precedences are those of a run that added `n`. -/
structure Spaced (n : Nat) (store : Store) : Prop where
  length_le : store.items.length ≤ n
  within : ∀ item ∈ store.items, Within ((n + 1) * store.spacing.step) item.precedence

namespace Spaced

variable {n : Nat} {store store' : Store}

theorem mono {m : Nat} (h : Spaced n store) (hle : n ≤ m) : Spaced m store := by
  refine ⟨h.length_le.trans hle, fun item hitem => (h.within item hitem).mono ?_⟩
  exact Int.mul_le_mul_of_nonneg_right (by omega) store.spacing.step_pos.le

/-- Items may go, and they may change as long as their precedences stay. -/
theorem of_sublist (h : Spaced n store) (hspacing : store'.spacing = store.spacing)
    (hs : (store'.items.map Item.precedence).Sublist (store.items.map Item.precedence)) :
    Spaced n store' := by
  refine ⟨?_, fun item hitem => ?_⟩
  · have hle := hs.length_le
    rw [List.length_map, List.length_map] at hle
    exact hle.trans h.length_le
  · obtain ⟨old, hold, heq⟩ := List.mem_map.mp (hs.mem (List.mem_map_of_mem hitem))
    rw [hspacing, ← heq]
    exact h.within old hold

theorem updateFirst {id : String} {f : Item → Item} (h : Spaced n store)
    (hf : ∀ item, (f item).precedence = item.precedence) :
    Spaced n { store with items := Store.updateFirst id f store.items } :=
  h.of_sublist rfl (map_updateFirst Item.precedence hf store.items ▸ List.Sublist.refl _)

theorem length_view_le (h : Spaced n store) (listId search : String) :
    (store.view listId search).length ≤ n := by
  refine le_trans ?_ h.length_le
  rw [view, viewOf, (sortItems_perm _).length_eq]
  exact List.length_filter_le _ _

theorem within_view (h : Spaced n store) (listId search : String) :
    ∀ rank ∈ (store.view listId search).map Item.precedence,
      Within ((n + 1) * store.spacing.step) rank := by
  intro rank hrank
  obtain ⟨item, hitem, rfl⟩ := List.mem_map.mp hrank
  exact h.within item (mem_viewOf.mp hitem).1

/-- Views may be written back with other precedences. -/
theorem withView (h : Spaced n store) {listId search : String} {view : List Item}
    (hreranked : List.Forall₂ Item.Reranked (store.view listId search) view)
    (hview : ∀ rank ∈ view.map Item.precedence, Within ((n + 1) * store.spacing.step) rank) :
    Spaced n { store with
      items := writeBack store.items ((slotsOf store.items listId search).map Prod.snd) view } := by
  refine ⟨?_, fun item hitem => ?_⟩
  · have hlen := (reranked_writeBack hreranked).length_eq
    exact hlen.symm.le.trans h.length_le
  · have hperm := writeBack_perm hreranked.length_eq.symm
    rcases List.mem_append.mp (hperm.mem_iff.mp hitem) with hmem | hmem
    · exact hview _ (List.mem_map_of_mem hmem)
    · exact h.within item (List.mem_filter.mp hmem).1

/-- Making room in a view of the store: `m` items there will be, and the precedences are those of a
run that adds `m`. -/
theorem roomAt (h : Spaced n store) {m : Nat} (hnm : n ≤ m)
    (hroom : (m + 2) * store.spacing.step ≤ maxPrecedence) (listId search : String)
    {origin : Option Nat} {target : Nat} (hne : origin ≠ some target)
    (ht : target ≤ (without origin (store.view listId search)).length) (htm : target < m) :
    let ranks := (store.view listId search).map Item.precedence
    let room := store.spacing.roomAt ranks origin target
    (∀ rank ∈ room.ranks, Within ((m + 1) * store.spacing.step) rank) ∧
      Within ((m + 1) * store.spacing.step) room.precedence ∧
        store.spacing.Exact ranks origin target := by
  intro ranks room
  have hlen : ranks.length ≤ n := by
    rw [List.length_map]
    exact h.length_view_le listId search
  have hranks := (h.mono hnm).within_view listId search
  have hmul : ∀ {k : Int}, k ≤ m + 1 → k * store.spacing.step ≤ (m + 1) * store.spacing.step :=
    fun hk => Int.mul_le_mul_of_nonneg_right hk store.spacing.step_pos.le
  have hbound : (m + 1) * store.spacing.step ≤ maxPrecedence :=
    (Int.mul_le_mul_of_nonneg_right (by omega) store.spacing.step_pos.le).trans hroom
  have hlength : (ranks.length + 2) * store.spacing.step ≤ maxPrecedence :=
    store.spacing.mul_step_le (hlen.trans hnm) hroom
  have ht' : target ≤ (without origin ranks).length := by
    rw [← map_without, List.length_map]
    exact ht
  have hbeyond : (target + 2) * store.spacing.step ≤ (m + 1) * store.spacing.step :=
    hmul (by omega)
  obtain ⟨hview, hrank⟩ := store.spacing.roomAt_within hne ht' hranks (hmul (by omega)) hbeyond
    hbound hlength
  exact ⟨hview, hrank, store.spacing.exact_roomAt hne ht' hranks hbound hbeyond hlength⟩

end Spaced

/-! ### Steps -/

variable {n : Nat} {store store' : Store}

theorem growth_addItem {listId summary newId : String} {after : Selection}
    (h : store.hasList listId = true) :
    store.growth (.addItem listId summary after newId) = 1 := by
  rw [growth, perform, addItem, if_pos h]
  rfl

/-- The place that `addItem` looks for exists among the items of the view. -/
theorem Spaced.roomAt_addItem (h : Spaced n store)
    (hroom : (n + 1 + 2) * store.spacing.step ≤ maxPrecedence) (listId : String)
    (after : Selection) :
    let view := store.view listId ""
    let ranks := view.map Item.precedence
    let target := min (after.insertionIndex view.length) view.length
    let room := store.spacing.roomAt ranks none target
    (∀ rank ∈ room.ranks, Within (((n + 1 : Nat) + 1) * store.spacing.step) rank) ∧
      Within (((n + 1 : Nat) + 1) * store.spacing.step) room.precedence ∧
        store.spacing.Exact ranks none target := by
  intro view ranks target room
  have ht : target ≤ view.length := Nat.min_le_right _ _
  have hlen := h.length_view_le listId ""
  exact h.roomAt (Nat.le_succ n) (by push_cast; exact hroom) listId "" nofun ht
    (Nat.lt_succ_of_le (ht.trans hlen))

/-- The place that `moveItem` looks for exists among the other items of the view. -/
theorem Spaced.roomAt_moveItem (h : Spaced n store)
    (hroom : (n + 2) * store.spacing.step ≤ maxPrecedence) {listId search : String}
    {origin target : Nat} (horigin : origin < (store.view listId search).length)
    (hne : origin ≠ min target ((store.view listId search).length - 1)) :
    let view := store.view listId search
    let ranks := view.map Item.precedence
    let target := min target (view.length - 1)
    let room := store.spacing.roomAt ranks (some origin) target
    (∀ rank ∈ room.ranks, Within ((n + 1) * store.spacing.step) rank) ∧
      Within ((n + 1) * store.spacing.step) room.precedence ∧
        store.spacing.Exact ranks (some origin) target := by
  intro view ranks target' room
  have hlen : view.length ≤ n := h.length_view_le listId search
  have hpos : 0 < view.length := Nat.zero_lt_of_lt horigin
  have hothers : (without (some origin) view).length = view.length - 1 :=
    List.length_eraseIdx_of_lt horigin
  have ht : target' ≤ view.length - 1 := Nat.min_le_right _ _
  exact h.roomAt (le_refl n) hroom listId search (fun he => hne (Option.some.inj he))
    (ht.trans hothers.ge) (by omega)

/-- Operations do not change the spacing. -/
theorem spacing_step (store : Store) (op : Operation) :
    (store.step op).spacing = store.spacing := by
  refine step_preserves (P := fun s => s.spacing = store.spacing) rfl fun store' h => ?_
  cases op with
  | addItem => obtain ⟨-, rfl⟩ := addItem_cases h; rfl
  | moveItem => obtain ⟨_, _, -, rfl⟩ := moveItem_cases h; rfl
  | setComplete | toggleComplete | setSummary => obtain rfl := updateItem_cases h; rfl
  | removeItem => obtain rfl := removeItem_cases h; rfl
  | addList => obtain ⟨_, -, rfl⟩ := addList_cases h; rfl
  | renameList => obtain ⟨_, -, rfl⟩ := renameList_cases h; rfl
  | removeList => obtain ⟨-, -, rfl⟩ := removeList_cases h; rfl
  | ensureInbox =>
    obtain rfl := Except.ok.inj h
    rw [withInbox]
    split <;> rfl
  | touch => obtain rfl := Except.ok.inj h; rfl

theorem Spaced.addItem {listId summary newId : String} {after : Selection} (h : Spaced n store)
    (hroom : (n + 1 + 2) * store.spacing.step ≤ maxPrecedence)
    (hp : store.perform (.addItem listId summary after newId) = .ok store') :
    Spaced (n + 1) store' := by
  obtain ⟨-, rfl⟩ := addItem_cases hp
  have hreranked := store.reranked_placedItem listId summary after newId
  obtain ⟨hranks, hrank, -⟩ := h.roomAt_addItem hroom listId after
  have hplaced : (store.placedItem listId summary after newId).2.2.map Item.precedence =
      (store.spacing.roomAt ((store.view listId "").map Item.precedence) none
        (min (after.insertionIndex (store.view listId "").length)
          (store.view listId "").length)).ranks := by
    refine map_precedence_withRanks ?_
    rw [Spacing.length_roomAt_ranks _ (Option.some_ne_none _).symm, List.length_map]
  have hstored := (h.mono (Nat.le_succ n)).withView hreranked (hplaced ▸ hranks)
  refine ⟨?_, fun item hitem => ?_⟩
  · have hlen := (reranked_writeBack hreranked).length_eq
    rw [List.length_append, List.length_singleton, ← hlen]
    exact Nat.succ_le_succ h.length_le
  · rcases List.mem_append.mp hitem with hold | hnew
    · exact hstored.within item hold
    · rw [List.mem_singleton.mp hnew]
      exact hrank

theorem Spaced.moveItem {listId search id : String} {target : Nat} (h : Spaced n store)
    (hroom : (n + 2) * store.spacing.step ≤ maxPrecedence)
    (hp : store.perform (.moveItem listId search id target) = .ok store') : Spaced n store' := by
  obtain ⟨placement, view', hview, rfl⟩ := moveItem_cases hp
  refine h.withView (store.spacing.reranked_of_reorder hview) ?_
  obtain ⟨origin, item, -, hget, -, ⟨-, -, rfl⟩ | ⟨hne, -, rfl⟩⟩ :=
    store.spacing.reorder_cases hview
  · exact h.within_view listId search
  · have horigin := (List.getElem?_eq_some_iff.mp hget).1
    obtain ⟨hranks, hrank, -⟩ :=
      h.roomAt_moveItem hroom horigin (fun he => hne (congrArg some he))
    rw [← withRanks_set hget, map_precedence_withRanks
      (by rw [List.length_set, Spacing.length_roomAt_ranks _ hne, List.length_map])]
    intro rank hr
    rcases List.mem_or_eq_of_mem_set hr with hr | rfl
    · exact hranks rank hr
    · exact hrank

/-- **Precedences stay small in every step.** -/
theorem Spaced.step {op : Operation} (h : Spaced n store)
    (hroom : (↑(n + store.growth op) + 2) * store.spacing.step ≤ maxPrecedence) :
    Spaced (n + store.growth op) (store.step op) := by
  cases hp : store.perform op with
  | error e => rw [step_of_error hp]; exact h.mono (Nat.le_add_right _ _)
  | ok store' =>
    rw [step_of_ok hp]
    cases op with
    | addItem listId summary after newId =>
      have hgrowth : store.growth (.addItem listId summary after newId) = 1 :=
        growth_addItem (addItem_cases hp).1
      rw [hgrowth] at hroom ⊢
      exact h.addItem (by push_cast at hroom; exact hroom) hp
    | moveItem => exact h.moveItem hroom hp
    | setComplete | toggleComplete | setSummary =>
      obtain rfl := updateItem_cases hp
      exact h.updateFirst fun _ => rfl
    | removeItem =>
      obtain rfl := removeItem_cases hp
      exact h.of_sublist rfl (List.eraseP_sublist.map Item.precedence)
    | addList =>
      obtain ⟨_, -, rfl⟩ := addList_cases hp
      exact h.of_sublist rfl (List.Sublist.refl _)
    | renameList =>
      obtain ⟨_, -, rfl⟩ := renameList_cases hp
      exact h.of_sublist rfl (List.Sublist.refl _)
    | removeList =>
      obtain ⟨-, -, rfl⟩ := removeList_cases hp
      exact h.of_sublist rfl (List.filter_sublist.map Item.precedence)
    | ensureInbox =>
      obtain rfl := Except.ok.inj hp
      have hitems : store.withInbox.items = store.items := by rw [withInbox]; split <;> rfl
      have hspacing := store.spacing_step .ensureInbox
      exact h.of_sublist hspacing (hitems ▸ List.Sublist.refl _)
    | touch =>
      obtain rfl := Except.ok.inj hp
      exact h.of_sublist rfl (List.Sublist.refl _)

/-- **Nothing is cut off in a step.** -/
theorem Spaced.placesExactly {op : Operation} (h : Spaced n store)
    (hroom : (↑(n + store.growth op) + 2) * store.spacing.step ≤ maxPrecedence) :
    op.PlacesExactly store := by
  cases op with
  | addItem listId summary after newId =>
    intro hlist
    rw [growth_addItem hlist] at hroom
    exact (h.roomAt_addItem (by push_cast at hroom; exact hroom) listId after).2.2
  | moveItem listId search id target =>
    intro origin hfind hne
    have horigin := (List.findIdx?_eq_some_iff_getElem.mp hfind).1
    exact (h.roomAt_moveItem hroom horigin hne).2.2
  | _ => trivial

/-! ### Runs -/

theorem Spaced.run {ops : List Operation} (h : Spaced n store)
    (hroom : (↑(n + store.additions ops) + 2) * store.spacing.step ≤ maxPrecedence) :
    Spaced (n + store.additions ops) (store.run ops) ∧
      Along (fun store op => op.PlacesExactly store) store ops := by
  induction ops generalizing n store with
  | nil => exact ⟨h, trivial⟩
  | cons op ops ih =>
    rw [additions, ← Nat.add_assoc] at hroom ⊢
    have hstep : (↑(n + store.growth op) + 2) * store.spacing.step ≤ maxPrecedence :=
      store.spacing.mul_step_le (Nat.le_add_right _ _) hroom
    have hrest := ih (h.step hstep) (by rw [spacing_step]; exact hroom)
    exact ⟨hrest.1, h.placesExactly hstep, hrest.2⟩

theorem spacing_run (store : Store) (ops : List Operation) :
    (store.run ops).spacing = store.spacing := by
  induction ops generalizing store with
  | nil => rfl
  | cons op ops ih => rw [run_cons, ih, spacing_step]

/-- **Precedences stay positive and bounded, and nothing is ever cut off**, in every run that
starts without items and adds `n` of them, as long as `n + 2` steps fit into 64 bits. -/
theorem precedence_run (spacing : Spacing) (ops : List Operation)
    (hroom : (↑({ initial with spacing }.additions ops) + 2) * spacing.step ≤ maxPrecedence) :
    (∀ item ∈ ({ initial with spacing }.run ops).items, 1 ≤ item.precedence.toInt ∧
      item.precedence.toInt ≤ ({ initial with spacing }.additions ops + 1) * spacing.step) ∧
      Along (fun store op => op.PlacesExactly store) { initial with spacing } ops := by
  have hstart : Spaced 0 { initial with spacing } := ⟨le_refl 0, nofun⟩
  obtain ⟨hspaced, halong⟩ := hstart.run (by rw [Nat.zero_add]; exact hroom)
  rw [Nat.zero_add] at hspaced
  refine ⟨fun item hitem => ?_, halong⟩
  have hwithin := hspaced.within item hitem
  rw [spacing_run] at hwithin
  exact hwithin

/-- With the smallest spacing the fourth item makes the list be renumbered. -/
theorem precedence_run_tight :
    let spacing : Spacing := { step := 2, minGap := 2 }
    let ops : List Operation := [.addItem inboxId "milk" {} "m",
      .addItem inboxId "bread" (Selection.ofIndex 0) "b",
      .addItem inboxId "salt" (Selection.ofIndex 0) "s",
      .addItem inboxId "oil" (Selection.ofIndex 0) "o", .removeItem "m",
      .moveItem inboxId "l" "o" 4]
    { initial with spacing }.additions ops = 4 ∧ (4 + 2) * spacing.step ≤ maxPrecedence ∧
      (∀ item ∈ ({ initial with spacing }.run ops).items, 1 ≤ item.precedence.toInt ∧
        item.precedence.toInt ≤ (4 + 1) * spacing.step) ∧
      Along (fun store op => op.PlacesExactly store) { initial with spacing } ops := by
  intro spacing ops
  have hadditions : { initial with spacing }.additions ops = 4 := by decide +kernel
  have hroom : (4 + 2) * spacing.step ≤ maxPrecedence := by decide
  have hrun := precedence_run spacing ops (by rw [hadditions]; exact hroom)
  rw [hadditions] at hrun
  exact ⟨hadditions, hroom, hrun⟩

end Store

end Agenda

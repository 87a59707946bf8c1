/-
Agenda/Proofs/Order/Placement.lean

Placing an item in an ordered view, seen from the order that results.  What
`reorder` and `insertAt` return keeps the order of the slots; sorting it moves
one item and nothing else:

    reorder:   sorted ids  =  ids without the moved one, then it put at `target`
    insertAt:  sorted ids  =  ids, then the new one put at `target`

(`reorder_arranges`, `insertAt_arranges`).  The sorted arrangement is given
outright, so these statements do not mention the sorting algorithm.
-/
import Agenda.Proofs.Order.Compare
import Agenda.Proofs.Order.Room
import Mathlib.Data.List.InsertIdx

namespace Agenda

/-! ### Items with other precedences -/

/-- The item `b` is `a`, but for the precedence. -/
def Item.Reranked (a b : Item) : Prop :=
  b = { a with precedence := b.precedence }

theorem Item.Reranked.refl (a : Item) : a.Reranked a := rfl

theorem Item.Reranked.id_eq {a b : Item} (h : a.Reranked b) : b.id = a.id := by
  rw [h]

theorem Item.Reranked.listId_eq {a b : Item} (h : a.Reranked b) : b.listId = a.listId := by
  rw [h]

theorem map_id_of_reranked {items other : List Item}
    (h : List.Forall₂ Item.Reranked items other) : other.map Item.id = items.map Item.id := by
  induction h with
  | nil => rfl
  | cons hab _ ih => rw [List.map_cons, List.map_cons, hab.id_eq, ih]

theorem exists_reranked_of_mem {items other : List Item}
    (h : List.Forall₂ Item.Reranked items other) {b : Item} (hb : b ∈ other) :
    ∃ a ∈ items, a.Reranked b := by
  induction h with
  | nil => cases hb
  | cons hab _ ih =>
    rcases List.mem_cons.mp hb with rfl | hb
    · exact ⟨_, List.mem_cons_self, hab⟩
    · obtain ⟨a, ha, hab⟩ := ih hb
      exact ⟨a, List.mem_cons_of_mem _ ha, hab⟩

theorem map_id_filter_of_reranked {items items' : List Item}
    (h : List.Forall₂ Item.Reranked items items') (listId : String) :
    (items'.filter fun item => item.listId = listId).map Item.id =
      (items.filter fun item => item.listId = listId).map Item.id := by
  induction h with
  | nil => rfl
  | cons hab _ ih =>
    rw [List.filter_cons, List.filter_cons, hab.listId_eq]
    split
    · rw [List.map_cons, List.map_cons, hab.id_eq, ih]
    · exact ih

theorem reranked_withRanks {items : List Item} {ranks : List Int64}
    (h : ranks.length = items.length) :
    List.Forall₂ Item.Reranked items (withRanks items ranks) := by
  induction items generalizing ranks with
  | nil => exact List.Forall₂.nil
  | cons item items ih =>
    cases ranks with
    | nil => cases h
    | cons rank ranks =>
      exact List.Forall₂.cons rfl (ih (Nat.succ.inj h))

theorem map_precedence_withRanks {items : List Item} {ranks : List Int64}
    (h : ranks.length = items.length) : (withRanks items ranks).map Item.precedence = ranks := by
  induction items generalizing ranks with
  | nil => exact (List.length_eq_zero_iff.mp h).symm
  | cons item items ih =>
    cases ranks with
    | nil => cases h
    | cons rank ranks =>
      exact congrArg (rank :: ·) (ih (Nat.succ.inj h))

@[simp] theorem withRanks_self (items : List Item) :
    withRanks items (items.map Item.precedence) = items := by
  induction items with
  | nil => rfl
  | cons item items ih => exact congrArg (item :: ·) ih

theorem withRanks_cons (item : Item) (items : List Item) (rank : Int64) (ranks : List Int64) :
    withRanks (item :: items) (rank :: ranks) =
      { item with precedence := rank } :: withRanks items ranks := rfl

theorem length_withRanks {items : List Item} {ranks : List Int64}
    (h : ranks.length = items.length) : (withRanks items ranks).length = items.length := by
  rw [withRanks, List.length_zipWith, h, Nat.min_self]

theorem getElem?_withRanks {items : List Item} {ranks : List Int64} {i : Nat} {item : Item}
    {rank : Int64} (hitem : items[i]? = some item) (hrank : ranks[i]? = some rank) :
    (withRanks items ranks)[i]? = some { item with precedence := rank } := by
  rw [withRanks, List.getElem?_zipWith, hitem, hrank]

theorem withRanks_set {items : List Item} {ranks : List Int64} {i : Nat} {item : Item}
    (h : items[i]? = some item) (rank : Int64) :
    withRanks items (ranks.set i rank) =
      (withRanks items ranks).set i { item with precedence := rank } := by
  apply List.ext_getElem?
  intro k
  obtain ⟨hlt, rfl⟩ := List.getElem?_eq_some_iff.mp h
  by_cases hk : i = k
  · subst hk
    by_cases hi : i < ranks.length <;> simp [withRanks, hlt, hi]
  · simp [withRanks, List.getElem?_zipWith, hk]

/-! ### Putting an item between others -/

theorem pairwise_insertIdx {α : Type} {R : α → α → Prop} {l : List α} (h : l.Pairwise R) {x : α}
    {i : Nat} (hbelow : ∀ a ∈ l.take i, R a x) (habove : ∀ b ∈ l.drop i, R x b) :
    (l.insertIdx i x).Pairwise R := by
  induction l generalizing i with
  | nil =>
    cases i with
    | zero => exact List.pairwise_singleton R x
    | succ i => exact List.Pairwise.nil
  | cons a l ih =>
    cases i with
    | zero => exact List.pairwise_cons.mpr ⟨habove, h⟩
    | succ i =>
      rw [List.insertIdx_succ_cons, List.pairwise_cons]
      refine ⟨?_, ih (List.pairwise_cons.mp h).2 ?_ habove⟩
      · intro b hb
        rcases List.eq_or_mem_of_mem_insertIdx hb with rfl | hb
        · exact hbelow a List.mem_cons_self
        · exact (List.pairwise_cons.mp h).1 b hb
      · intro b hb
        exact hbelow b (List.mem_cons_of_mem a hb)

/-- Items whose precedences increase strictly are in order. -/
theorem inOrder_of_pairwise_lt {items : List Item}
    (h : (items.map Item.precedence).Pairwise (· < ·)) : InOrder items :=
  (List.pairwise_map.mp h).imp Item.precedes_of_lt

theorem InOrder.pairwise_precedence {view : List Item} (h : InOrder view) :
    (view.map Item.precedence).Pairwise (· ≤ ·) :=
  List.pairwise_map.mpr (h.imp Item.precedence_le_of_precedes)

namespace Spacing

variable (spacing : Spacing)

@[simp] theorem length_roomAt_ranks {origin : Option Nat} {target : Nat}
    (h : origin ≠ some target) (ranks : List Int64) :
    (spacing.roomAt ranks origin target).ranks.length = ranks.length := by
  rw [spacing.roomAt_eq h]
  dsimp only
  split
  · exact spacing.length_renumber origin target ranks
  · rfl

/-- The others stay in order when room is made among them. -/
theorem inOrder_without_roomAt {view : List Item} (hs : InOrder view) {origin : Option Nat}
    {target : Nat} (h : origin ≠ some target)
    (hroom : (view.length + 2) * spacing.step ≤ maxPrecedence) :
    InOrder (without origin
      (withRanks view (spacing.roomAt (view.map Item.precedence) origin target).ranks)) := by
  have hlen := spacing.length_roomAt_ranks h (view.map Item.precedence)
  rw [List.length_map] at hlen
  rw [spacing.roomAt_eq h] at hlen ⊢
  dsimp only at hlen ⊢
  split at hlen
  · next hc =>
    apply inOrder_of_pairwise_lt
    rw [map_without, if_pos hc, map_precedence_withRanks hlen]
    exact spacing.pairwise_without_renumber origin target (by rw [List.length_map]; exact hroom)
  · next hc =>
    rw [if_neg hc, withRanks_self]
    exact hs.sublist (without_sublist origin view)

/-- The precedence found for the placed item lies between those of the others. -/
theorem roomAt_between {view : List Item} (hs : InOrder view) {origin : Option Nat}
    {target : Nat} (h : origin ≠ some target) (ht : target ≤ (without origin view).length)
    (hroom : (view.length + 2) * spacing.step ≤ maxPrecedence) :
    let room := spacing.roomAt (view.map Item.precedence) origin target
    let others := without origin (withRanks view room.ranks)
    (∀ other ∈ others.take target, other.precedence < room.precedence) ∧
      ∀ other ∈ others.drop target, room.precedence < other.precedence := by
  intro room others
  have hlen : room.ranks.length = view.length := by
    rw [spacing.length_roomAt_ranks h, List.length_map]
  have hranks : others.map Item.precedence = without origin room.ranks := by
    rw [map_without, map_precedence_withRanks hlen]
  have hothers : (without origin (view.map Item.precedence)).Pairwise (· ≤ ·) :=
    hs.pairwise_precedence.sublist (without_sublist origin _)
  obtain ⟨hbelow, habove⟩ := spacing.roomAt_fits h
    (by rw [← map_without, List.length_map]; exact ht) hothers
    (by rw [List.length_map]; exact hroom)
  refine ⟨fun other hother => hbelow _ ?_, fun other hother => habove _ ?_⟩
  · rw [← hranks, ← List.map_take]
    exact List.mem_map_of_mem hother
  · rw [← hranks, ← List.map_drop]
    exact List.mem_map_of_mem hother

/-- **Making room arranges the view**: the others and the placed item between them are in
order. -/
theorem roomAt_arranges {view : List Item} (hs : InOrder view) {origin : Option Nat}
    {target : Nat} (h : origin ≠ some target) (ht : target ≤ (without origin view).length)
    (hroom : (view.length + 2) * spacing.step ≤ maxPrecedence) (item : Item) :
    let room := spacing.roomAt (view.map Item.precedence) origin target
    InOrder ((without origin (withRanks view room.ranks)).insertIdx target
      { item with precedence := room.precedence }) := by
  intro room
  obtain ⟨hbelow, habove⟩ := spacing.roomAt_between hs h ht hroom
  refine pairwise_insertIdx (spacing.inOrder_without_roomAt hs h hroom) ?_ ?_
  · exact fun other hother => Item.precedes_of_lt (hbelow other hother)
  · exact fun other hother => Item.precedes_of_lt (habove other hother)

/-- What a move in a view can do: nothing if the item is in its place, else give it the
precedence of the room at the target. -/
theorem reorder_cases {view view' : List Item} {id : String} {target : Nat}
    {placement : Placement} (h : spacing.reorder view id target = some (placement, view')) :
    ∃ origin item, view.findIdx? (fun item => item.id = id) = some origin ∧
      view[origin]? = some item ∧ item.id = id ∧
      ((origin = min target (view.length - 1) ∧ placement = .unchanged ∧ view' = view) ∨
        some origin ≠ some (min target (view.length - 1)) ∧
          let room := spacing.roomAt (view.map Item.precedence) (some origin)
            (min target (view.length - 1))
          placement = .placed room.precedence room.renumbered ∧
            view' = (withRanks view room.ranks).set origin
              { item with precedence := room.precedence }) := by
  rw [reorder, Option.map_eq_some_iff] at h
  obtain ⟨origin, hfind, h⟩ := h
  obtain ⟨hlt, hid, -⟩ := List.findIdx?_eq_some_iff_getElem.mp hfind
  have hget := List.getElem?_eq_getElem hlt
  refine ⟨origin, view[origin], hfind, hget, by simpa using hid, ?_⟩
  dsimp only at h
  split at h
  · next heq =>
    obtain ⟨rfl, rfl⟩ := Prod.mk.inj h
    exact .inl ⟨heq, rfl, rfl⟩
  · next hne =>
    obtain ⟨rfl, rfl⟩ := Prod.mk.inj h
    exact .inr ⟨fun he => hne (Option.some.inj he), rfl, withRanks_set hget _⟩

/-- A move changes precedences only. -/
theorem reranked_of_reorder {view view' : List Item} {id : String} {target : Nat}
    {placement : Placement} (h : spacing.reorder view id target = some (placement, view')) :
    List.Forall₂ Item.Reranked view view' := by
  obtain ⟨origin, item, -, hget, -, ⟨-, -, rfl⟩ | ⟨hne, -, rfl⟩⟩ := spacing.reorder_cases h
  · exact List.forall₂_same.mpr fun a _ => Item.Reranked.refl a
  · rw [← withRanks_set hget]
    apply reranked_withRanks
    rw [List.length_set, spacing.length_roomAt_ranks hne, List.length_map]

/-- **A move arranges the view**: sorted again, its ids are the old ones with the moved id taken
out and put at the target. -/
theorem reorder_arranges {view view' : List Item} (hs : InOrder view) {id : String}
    {target : Nat} {placement : Placement}
    (hroom : (view.length + 2) * spacing.step ≤ maxPrecedence)
    (h : spacing.reorder view id target = some (placement, view')) :
    ∃ sorted, sorted.Perm view' ∧ InOrder sorted ∧
      sorted.map Item.id =
        ((view.map Item.id).erase id).insertIdx (min target (view.length - 1)) id := by
  obtain ⟨origin, item, hfind, hget, hid, hcases⟩ := spacing.reorder_cases h
  have hlt : origin < view.length := (List.getElem?_eq_some_iff.mp hget).1
  have hitem : view[origin] = item := (List.getElem?_eq_some_iff.mp hget).2
  have herase : (view.map Item.id).erase id = (view.map Item.id).eraseIdx origin := by
    have hidx : (view.map Item.id).idxOf? id = some origin := by
      rw [List.idxOf?, List.findIdx?_map, ← hfind]
      exact congrArg (List.findIdx? · view) (funext fun a => beq_eq_decide a.id id)
    rw [List.erase_eq_eraseIdx, hidx]
  rw [herase]
  rcases hcases with ⟨ht, -, rfl⟩ | ⟨hne, -, rfl⟩
  -- an item that is in its place is taken out and put back
  · refine ⟨view', List.Perm.refl _, hs, ?_⟩
    have hlen : origin < (view'.map Item.id).length := by
      rw [List.length_map]; exact hlt
    have hgetid : (view'.map Item.id)[origin] = id := by
      rw [List.getElem_map, hitem, hid]
    conv_rhs => rw [← ht, ← hgetid]
    exact (List.insertIdx_eraseIdx_getElem _).symm
  -- any other item is put between the others, of which there is one less
  · have hview : (without (some origin) view).length = view.length - 1 :=
      List.length_eraseIdx_of_lt hlt
    have ht : min target (view.length - 1) ≤ (without (some origin) view).length := by
      rw [hview]; exact Nat.min_le_right _ _
    have hranks := spacing.length_roomAt_ranks hne (view.map Item.precedence)
    rw [List.length_map] at hranks
    generalize hroomAt : spacing.roomAt (view.map Item.precedence) (some origin)
      (min target (view.length - 1)) = room at hranks
    have hreranked := reranked_withRanks hranks
    have harr := spacing.roomAt_arranges hs hne ht hroom item
    rw [hroomAt] at harr
    refine ⟨_, ?_, harr, ?_⟩
    · refine (List.perm_insertIdx _ _ ?_).trans (List.set_perm_cons_eraseIdx ?_ _).symm
      · rw [length_without_congr (some origin) hreranked.length_eq.symm]; exact ht
      · rw [← hreranked.length_eq]; exact hlt
    · rw [List.map_insertIdx, map_without, map_id_of_reranked hreranked, hid]
      rfl

/-- An insertion changes precedences only, of the view and of the new item. -/
theorem reranked_of_insertAt (view : List Item) (item : Item) (target : Nat) :
    item.Reranked (spacing.insertAt view item target).2.1 ∧
      List.Forall₂ Item.Reranked view (spacing.insertAt view item target).2.2 := by
  have hne : (none : Option Nat) ≠ some (min target view.length) := nofun
  refine ⟨rfl, reranked_withRanks ?_⟩
  rw [spacing.length_roomAt_ranks hne, List.length_map]

/-- **An insertion arranges the view**: sorted together with the new item, its ids are the old
ones with the new id put at the target. -/
theorem insertAt_arranges {view : List Item} (hs : InOrder view) (item : Item) (target : Nat)
    (hroom : (view.length + 2) * spacing.step ≤ maxPrecedence) :
    ∃ sorted, sorted.Perm ((spacing.insertAt view item target).2.1 ::
        (spacing.insertAt view item target).2.2) ∧ InOrder sorted ∧
      sorted.map Item.id = (view.map Item.id).insertIdx (min target view.length) item.id := by
  have hreranked := (spacing.reranked_of_insertAt view item target).2
  have hne : (none : Option Nat) ≠ some (min target view.length) := nofun
  refine ⟨_, ?_, spacing.roomAt_arranges hs hne (Nat.min_le_right target _) hroom item, ?_⟩
  · apply List.perm_insertIdx
    exact (Nat.min_le_right target _).trans hreranked.length_eq.le
  · rw [List.map_insertIdx]
    exact congrArg (List.insertIdx · _ item.id) (map_id_of_reranked hreranked)

end Spacing

end Agenda

/-
Agenda/Proofs/Order/Compare.lean

Display order is a total order on keys, the pairs of precedence and id, and
so a list of items with distinct ids has exactly one sorted arrangement:

    items ~ sorted  and  sorted in display order  ⟹  sortItems items = sorted

(`sortItems_eq_of_perm`).  Whoever knows in which order some items belong need
not look into the sorting algorithm again.
-/
import Agenda.Order.Compare
import Mathlib.Data.List.Nodup
import Mathlib.Data.List.Perm.Basic

namespace Agenda

open Std

/-! ### A total order on keys -/

instance : TransCmp Item.compare :=
  inferInstanceAs (TransCmp (compareLex (compareOn Item.precedence) (compareOn Item.id)))

/-- Only items with the same precedence and the same id compare equal. -/
theorem Item.compare_eq_eq_iff {a b : Item} :
    a.compare b = .eq ↔ a.precedence = b.precedence ∧ a.id = b.id := by
  simp only [Item.compare, Ordering.then_eq_eq, LawfulEqCmp.compare_eq_iff_eq]

/-- Comparing looks at the precedence first, and at the id where precedences are equal. -/
theorem Item.compare_eq_lt_iff {a b : Item} :
    a.compare b = .lt ↔
      a.precedence < b.precedence ∨
        a.precedence = b.precedence ∧ Ord.compare a.id b.id = .lt := by
  simp only [Item.compare, Ordering.then_eq_lt, LawfulEqCmp.compare_eq_iff_eq,
    Std.compare_eq_lt]

theorem Item.compare_swap (a b : Item) : a.compare b = (b.compare a).swap :=
  OrientedCmp.eq_swap

theorem Item.precedes_refl (a : Item) : a.precedes a := by
  rw [Item.precedes, Item.compare_eq_eq_iff.mpr ⟨rfl, rfl⟩]
  rfl

theorem Item.precedes_trans {a b c : Item} (hab : a.precedes b) (hbc : b.precedes c) :
    a.precedes c :=
  TransCmp.isLE_trans hab hbc

theorem Item.precedes_total (a b : Item) : a.precedes b || b.precedes a := by
  rw [Item.precedes, Item.precedes, Item.compare_swap b a]
  cases a.compare b <;> rfl

/-- Items with different ids never compare equal. -/
theorem Item.precedes_iff_of_id_ne {a b : Item} (h : a.id ≠ b.id) :
    a.precedes b ↔ a.compare b = .lt := by
  have hne : a.compare b ≠ .eq := fun he => h (Item.compare_eq_eq_iff.mp he).2
  rw [Item.precedes]
  cases hab : a.compare b <;> simp_all

theorem Item.precedes_iff_not {a b : Item} (h : a.id ≠ b.id) :
    a.precedes b ↔ ¬ b.precedes a := by
  rw [Item.precedes_iff_of_id_ne h, Item.precedes_iff_of_id_ne (Ne.symm h), Item.compare_swap a b]
  have hne : b.compare a ≠ .eq := fun he => h (Item.compare_eq_eq_iff.mp he).2.symm
  cases hba : b.compare a <;> simp_all

theorem Item.precedes_of_lt {a b : Item} (h : a.precedence < b.precedence) : a.precedes b := by
  rw [Item.precedes, Item.compare_eq_lt_iff.mpr (.inl h)]
  rfl

theorem Item.precedence_le_of_precedes {a b : Item} (h : a.precedes b) :
    a.precedence ≤ b.precedence := by
  rw [Item.precedes] at h
  cases hab : a.compare b with
  | lt =>
    rcases Item.compare_eq_lt_iff.mp hab with hlt | ⟨heq, -⟩
    · exact Int64.le_of_lt hlt
    · exact Int64.le_of_eq heq
  | eq => exact Int64.le_of_eq (Item.compare_eq_eq_iff.mp hab).1
  | gt => rw [hab] at h; cases h

/-! ### Sorting -/

/-- The items stand in display order. -/
def InOrder (view : List Item) : Prop :=
  view.Pairwise fun a b => a.precedes b

theorem sortItems_perm (items : List Item) : (sortItems items).Perm items :=
  List.mergeSort_perm items _

theorem inOrder_sortItems (items : List Item) : InOrder (sortItems items) := by
  have htrans : ∀ a b c : Item, a.precedes b → b.precedes c → a.precedes c :=
    fun _ _ _ => Item.precedes_trans
  exact List.pairwise_mergeSort htrans Item.precedes_total items

@[simp] theorem mem_sortItems {items : List Item} {item : Item} :
    item ∈ sortItems items ↔ item ∈ items :=
  (sortItems_perm items).mem_iff

/-- No two items share an id. -/
def DistinctIds (items : List Item) : Prop :=
  (items.map Item.id).Nodup

instance (items : List Item) : Decidable (DistinctIds items) :=
  inferInstanceAs (Decidable (items.map Item.id).Nodup)

theorem DistinctIds.perm {items other : List Item} (h : DistinctIds items)
    (hp : other.Perm items) : DistinctIds other :=
  (hp.map Item.id).nodup_iff.mpr h

theorem DistinctIds.sublist {items other : List Item} (h : DistinctIds items)
    (hs : other.Sublist items) : DistinctIds other :=
  List.Nodup.sublist (hs.map Item.id) h

theorem DistinctIds.eq_of_id_eq {items : List Item} (h : DistinctIds items) {a b : Item}
    (ha : a ∈ items) (hb : b ∈ items) (hid : a.id = b.id) : a = b :=
  List.inj_on_of_nodup_map h ha hb hid

/-- The first item with an id is the only one. -/
theorem DistinctIds.findIdx?_eq {items : List Item} (hd : DistinctIds items) {i : Nat} {item : Item}
    (h : items[i]? = some item) : (items.findIdx? fun other => other.id = item.id) = some i := by
  obtain ⟨hlt, rfl⟩ := List.getElem?_eq_some_iff.mp h
  rw [List.findIdx?_eq_some_iff_getElem]
  refine ⟨hlt, by simp, fun j hj => ?_⟩
  have hne : items[j].id ≠ items[i].id :=
    List.pairwise_iff_getElem.mp (List.pairwise_map.mp hd) j i (Nat.lt_trans hj hlt) hlt hj
  simpa using hne

/-- **The sorted arrangement is unique** where ids are distinct. -/
theorem sortItems_eq_of_perm {items sorted : List Item} (hd : DistinctIds items)
    (hp : items.Perm sorted) (hs : InOrder sorted) : sortItems items = sorted := by
  refine List.Perm.eq_of_pairwise ?_ (inOrder_sortItems items) hs
    ((sortItems_perm items).trans hp)
  intro a b ha hb hab hba
  refine hd.eq_of_id_eq (mem_sortItems.mp ha) (hp.mem_iff.mpr hb) ?_
  by_contra hne
  have hlt := (Item.precedes_iff_of_id_ne hne).mp hab
  have hgt := (Item.precedes_iff_of_id_ne (Ne.symm hne)).mp hba
  rw [Item.compare_swap, hlt] at hgt
  cases hgt

/-- Where ids are distinct, items in display order increase strictly. -/
theorem InOrder.pairwise_lt {view : List Item} (hs : InOrder view) (hd : DistinctIds view) :
    view.Pairwise fun a b => a.compare b = .lt := by
  have hne : view.Pairwise fun a b => a.id ≠ b.id := List.pairwise_map.mp hd
  exact (hs.and hne).imp fun h => (Item.precedes_iff_of_id_ne h.2).mp h.1

end Agenda

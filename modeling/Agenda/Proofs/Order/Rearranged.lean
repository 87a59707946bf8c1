/-
Agenda/Proofs/Order/Rearranged.lean

Lists in another order.  Every element has a key, and where two lists are
*rearranged*, elements with different keys may have changed places while those
with the same key stand as they stood.  With letters for keys,

    a₁ b₁ a₂   is rearranged to   b₁ a₁ a₂,   but not to   a₂ b₁ a₁.

A stable sort does not notice, if elements that tie have the same key
(`Rearranged.mergeSort_eq`), and neither does a search for the first element
with a key (`Rearranged.find?_eq`).
-/
import Agenda.Proofs.Order.Compare
import Mathlib.Data.List.InsertIdx
import Mathlib.Data.List.Sort

namespace Agenda

/-- The lists have the same elements, and elements with the same key stand in the same order. -/
inductive Rearranged {α κ : Type} (key : α → κ) : List α → List α → Prop
  | nil : Rearranged key [] []
  | cons (a : α) {l l' : List α} : Rearranged key l l' → Rearranged key (a :: l) (a :: l')
  | swap {a b : α} (h : key a ≠ key b) (l : List α) :
      Rearranged key (a :: b :: l) (b :: a :: l)
  | trans {l l' l'' : List α} :
      Rearranged key l l' → Rearranged key l' l'' → Rearranged key l l''

namespace Rearranged

variable {α κ : Type} {key : α → κ} {l l' : List α}

theorem refl (l : List α) : Rearranged key l l := by
  induction l with
  | nil => exact .nil
  | cons a l ih => exact .cons a ih

theorem symm (h : Rearranged key l l') : Rearranged key l' l := by
  induction h with
  | nil => exact .nil
  | cons a _ ih => exact .cons a ih
  | swap h l => exact .swap (Ne.symm h) l
  | trans _ _ ih₁ ih₂ => exact .trans ih₂ ih₁

theorem perm (h : Rearranged key l l') : l.Perm l' := by
  induction h with
  | nil => exact .nil
  | cons a _ ih => exact ih.cons a
  | swap _ l => exact .swap _ _ l
  | trans _ _ ih₁ ih₂ => exact ih₁.trans ih₂

/-- Where keys are distinct, every permutation is a rearrangement. -/
theorem of_perm (h : l.Perm l') (hn : (l.map key).Nodup) : Rearranged key l l' := by
  induction h with
  | nil => exact .nil
  | cons a _ ih => exact .cons a (ih (List.nodup_cons.mp hn).2)
  | swap a b l =>
    refine .swap ?_ l
    intro hkey
    simp [hkey] at hn
  | trans h₁ _ ih₁ ih₂ => exact .trans (ih₁ hn) (ih₂ ((h₁.map key).nodup_iff.mp hn))

/-! ### What can be done to both lists -/

theorem map {β : Type} {key' : β → κ} {f : α → β} (h : Rearranged key l l')
    (hf : ∀ a ∈ l, key' (f a) = key a) : Rearranged key' (l.map f) (l'.map f) := by
  induction h with
  | nil => exact .nil
  | cons a _ ih => exact .cons (f a) (ih fun b hb => hf b (List.mem_cons_of_mem a hb))
  | swap h l =>
    refine .swap ?_ (l.map f)
    rw [hf _ List.mem_cons_self, hf _ (List.mem_cons_of_mem _ List.mem_cons_self)]
    exact h
  | trans h₁ _ ih₁ ih₂ => exact .trans (ih₁ hf) (ih₂ fun a ha => hf a (h₁.perm.mem_iff.mpr ha))

theorem filter (h : Rearranged key l l') (p : α → Bool) :
    Rearranged key (l.filter p) (l'.filter p) := by
  induction h with
  | nil => exact .nil
  | cons a _ ih =>
    rw [List.filter_cons, List.filter_cons]
    split
    · exact .cons a ih
    · exact ih
  | @swap a b h l =>
    cases ha : p a <;> cases hb : p b <;> simp [ha, hb, refl, Rearranged.swap h]
  | trans _ _ ih₁ ih₂ => exact .trans ih₁ ih₂

theorem append_right (h : Rearranged key l l') (t : List α) :
    Rearranged key (l ++ t) (l' ++ t) := by
  induction h with
  | nil => exact refl t
  | cons a _ ih => exact .cons a ih
  | swap h l => exact .swap h (l ++ t)
  | trans _ _ ih₁ ih₂ => exact .trans ih₁ ih₂

section Find

variable {p : α → Bool}

/-- The first element with a key is the same. -/
theorem find?_eq (h : Rearranged key l l') (hp : ∀ a b, p a = true → p b = true → key a = key b) :
    l.find? p = l'.find? p := by
  induction h with
  | nil => rfl
  | cons a _ ih => rw [List.find?_cons, List.find?_cons, ih]
  | @swap a b h l =>
    have hne : ¬ (p a = true ∧ p b = true) := fun hab => h (hp a b hab.1 hab.2)
    cases ha : p a <;> cases hb : p b <;> simp_all
  | trans _ _ ih₁ ih₂ => exact ih₁.trans ih₂

theorem eraseP (h : Rearranged key l l') (hp : ∀ a b, p a = true → p b = true → key a = key b) :
    Rearranged key (l.eraseP p) (l'.eraseP p) := by
  induction h with
  | nil => exact .nil
  | @cons a l l' h ih =>
    rw [List.eraseP_cons, List.eraseP_cons]
    cases p a with
    | true => exact h
    | false => exact .cons a ih
  | @swap a b h l =>
    have hne : ¬ (p a = true ∧ p b = true) := fun hab => h (hp a b hab.1 hab.2)
    cases ha : p a <;> cases hb : p b <;> simp_all [refl, Rearranged.swap h]
  | trans _ _ ih₁ ih₂ => exact .trans ih₁ ih₂

end Find

/-- An element with a key of its own may stand anywhere. -/
theorem cons_insertIdx {a : α} (ha : ∀ b ∈ l, key b ≠ key a) {i : Nat} (hi : i ≤ l.length) :
    Rearranged key (a :: l) (l.insertIdx i a) := by
  induction l generalizing i with
  | nil =>
    obtain rfl : i = 0 := Nat.le_zero.mp hi
    exact refl [a]
  | cons b l ih =>
    cases i with
    | zero => exact refl (a :: b :: l)
    | succ i =>
      obtain ⟨hb, hl⟩ := List.forall_mem_cons.mp ha
      rw [List.insertIdx_succ_cons]
      exact .trans (.swap (Ne.symm hb) l) (.cons b (ih hl (Nat.succ_le_succ_iff.mp hi)))

theorem insertIdx {a : α} (ha : ∀ b ∈ l, key b ≠ key a) {i j : Nat} (hi : i ≤ l.length)
    (hj : j ≤ l.length) : Rearranged key (l.insertIdx i a) (l.insertIdx j a) :=
  .trans (cons_insertIdx ha hi).symm (cons_insertIdx ha hj)

end Rearranged

/-! ### Sorting -/

section Sorting

variable {α : Type} {le : α → α → Bool}

/-- Merge sort puts the first element in front of those that it ties with. -/
theorem mergeSort_cons_eq_orderedInsert (trans : ∀ a b c, le a b → le b c → le a c)
    (total : ∀ a b, le a b || le b a) (a : α) (l : List α) :
    (a :: l).mergeSort le = (l.mergeSort le).orderedInsert (fun x y => le x y) a := by
  obtain ⟨l₁, l₂, hcons, hl, hbefore⟩ := List.mergeSort_cons trans total a l
  have hsorted := List.pairwise_mergeSort trans total (a :: l)
  rw [hcons] at hsorted
  have hafter : ∀ b ∈ l₂, le a b := (List.pairwise_cons.mp (List.pairwise_append.mp hsorted).2.1).1
  have hdrop : l₂.dropWhile (fun b => decide ¬ le a b) = l₂ := by
    cases l₂ with
    | nil => rfl
    | cons b l₂ => exact List.dropWhile_cons_of_neg (by simp [hafter b List.mem_cons_self])
  have htake : l₂.takeWhile (fun b => decide ¬ le a b) = [] := by
    cases l₂ with
    | nil => rfl
    | cons b l₂ => exact List.takeWhile_cons_of_neg (by simp [hafter b List.mem_cons_self])
  have hall : ∀ b ∈ l₁, (decide ¬ le a b) = true := by simpa using hbefore
  rw [List.orderedInsert_eq_take_drop, hcons, hl, List.takeWhile_append_of_pos hall,
    List.dropWhile_append_of_pos hall, htake, hdrop, List.append_nil]

/-- Of two elements that do not tie, either may be inserted first. -/
theorem orderedInsert_comm (trans : ∀ a b c, le a b → le b c → le a c) {a b : α}
    (hab : le a b = true) (hba : le b a = false) (l : List α) :
    (l.orderedInsert (fun x y => le x y) b).orderedInsert (fun x y => le x y) a =
      (l.orderedInsert (fun x y => le x y) a).orderedInsert (fun x y => le x y) b := by
  induction l with
  | nil => simp [hab, hba]
  | cons c l ih =>
    by_cases hbc : le b c = true
    · have hac := trans a b c hab hbc
      simp [hab, hba, hac, hbc]
    · by_cases hac : le a c = true
      · simp [hba, hac, hbc]
      · simp [hac, hbc, ih]

/-- **A stable sort does not see a rearrangement** if only elements with the same key tie. -/
theorem Rearranged.mergeSort_eq {κ : Type} {key : α → κ} {l l' : List α}
    (h : Rearranged key l l') (trans : ∀ a b c, le a b → le b c → le a c)
    (total : ∀ a b, le a b || le b a) (hkey : ∀ a b, le a b → le b a → key a = key b) :
    l.mergeSort le = l'.mergeSort le := by
  induction h with
  | nil => rfl
  | cons a _ ih =>
    rw [mergeSort_cons_eq_orderedInsert trans total, ih,
      ← mergeSort_cons_eq_orderedInsert trans total]
  | @swap a b h l =>
    have hties : ¬ (le a b = true ∧ le b a = true) := fun hab => h (hkey a b hab.1 hab.2)
    simp only [mergeSort_cons_eq_orderedInsert trans total]
    have htotal := total a b
    rcases hab : le a b with - | -
    · have hba : le b a = true := by simpa [hab] using htotal
      exact (orderedInsert_comm trans hba hab _).symm
    · have hba : le b a = false := by simpa [hab] using hties
      exact orderedInsert_comm trans hab hba _
  | trans _ _ ih₁ ih₂ => exact ih₁.trans ih₂

end Sorting

/-! ### Positions -/

/-- Rearranging a list renames the positions of its elements. -/
theorem Rearranged.exists_zipIdx {α κ : Type} {key : α → κ} {l l' : List α}
    (h : Rearranged key l l') (n : Nat) : ∃ σ : Nat → Nat, σ.Injective ∧ (∀ i < n, σ i = i) ∧
      Rearranged (key ∘ Prod.fst) (l.zipIdx n) ((l'.zipIdx n).map (Prod.map id σ)) := by
  induction h generalizing n with
  | nil => exact ⟨id, Function.injective_id, fun _ _ => rfl, .nil⟩
  | cons a _ ih =>
    obtain ⟨σ, hσ, hfix, h⟩ := ih (n + 1)
    refine ⟨σ, hσ, fun i hi => hfix i (Nat.lt_succ_of_lt hi), ?_⟩
    rw [List.zipIdx_cons, List.zipIdx_cons, List.map_cons, Prod.map_apply, hfix n n.lt_succ_self]
    exact .cons (a, n) h
  | @swap a b h l =>
    refine ⟨Equiv.swap n (n + 1), (Equiv.swap n (n + 1)).injective, fun i hi =>
      Equiv.swap_apply_of_ne_of_ne (by omega) (by omega), ?_⟩
    have htail : (l.zipIdx (n + 1 + 1)).map (Prod.map id (Equiv.swap n (n + 1))) =
        l.zipIdx (n + 1 + 1) := by
      refine (List.map_congr_left fun slot hslot => ?_).trans (List.map_id' _)
      have hle := List.le_snd_of_mem_zipIdx hslot
      exact Prod.ext rfl (Equiv.swap_apply_of_ne_of_ne (by omega) (by omega))
    simp only [List.zipIdx_cons, List.map_cons, Prod.map_apply, Equiv.swap_apply_left,
      Equiv.swap_apply_right, htail]
    have hslots : (key ∘ Prod.fst) (a, n) ≠ (key ∘ Prod.fst) (b, n + 1) := h
    exact .swap hslots _
  | @trans l l' l'' _ _ ih₁ ih₂ =>
    obtain ⟨σ₁, hσ₁, hfix₁, h₁⟩ := ih₁ n
    obtain ⟨σ₂, hσ₂, hfix₂, h₂⟩ := ih₂ n
    refine ⟨σ₁ ∘ σ₂, hσ₁.comp hσ₂, fun i hi => ?_, .trans h₁ ?_⟩
    · rw [Function.comp_apply, hfix₂ i hi, hfix₁ i hi]
    · have hrenamed : Rearranged (key ∘ Prod.fst) ((l'.zipIdx n).map (Prod.map id σ₁)) _ :=
        h₂.map fun _ _ => rfl
      rw [List.map_map, Prod.map_comp_map] at hrenamed
      exact hrenamed

/-! ### Items -/

/-- Items that compare equal share their id and their precedence. -/
theorem sortItems_eq_of_rearranged {κ : Type} {key : Item → κ} {items items' : List Item}
    (h : Rearranged key items items') (hkey : ∀ a b : Item, a.compare b = .eq → key a = key b) :
    sortItems items = sortItems items' := by
  have htrans : ∀ a b c : Item, a.precedes b → b.precedes c → a.precedes c :=
    fun _ _ _ => Item.precedes_trans
  refine h.mergeSort_eq htrans Item.precedes_total fun a b hab hba => hkey a b ?_
  rw [Item.precedes] at hab hba
  rw [Item.compare_swap] at hba
  cases hcmp : a.compare b <;> simp_all

end Agenda

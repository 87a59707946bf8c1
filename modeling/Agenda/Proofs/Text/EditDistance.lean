/-
Agenda/Proofs/Text/EditDistance.lean

The edit distance is the least number of edits.  An edit puts in, takes out or
replaces one character anywhere in a text (`Edit`), and

    editDistance s t   =   the least `n` such that `n` edits turn `s` into `t`

(`isLeast_editDistance`).  Edits may undo each other, so they are first brought
into an order: texts that are `n` edits apart can be laid side by side with at
most `n` differences (`Aligned`, `exists_aligned_of_edits`).  A text that ends in
one more character has few ways to be aligned, which is the recursion that the
rows follow (`Least.cons_cons`); each row holds the least numbers of differences
between one beginning of the first text and all beginnings of the second
(`Row.next`).

Rows grow at their ends, so the beginnings are written backwards here, the last
character first; it is all the same to edits in which direction a text is read
(`Edits.reverse`).
-/
import Agenda.Text.EditDistance
import Mathlib.Order.Bounds.Basic
import Mathlib.Order.MinMax
import Mathlib.Tactic.Common

namespace Agenda.Text

/-! ### Edits -/

/-- One character is put in, taken out or replaced. -/
inductive Edit : List Char → List Char → Prop
  | insert (front : List Char) (c : Char) (back : List Char) :
      Edit (front ++ back) (front ++ c :: back)
  | delete (front : List Char) (c : Char) (back : List Char) :
      Edit (front ++ c :: back) (front ++ back)
  | replace (front : List Char) (c d : Char) (back : List Char) :
      Edit (front ++ c :: back) (front ++ d :: back)

/-- So many edits turn the first text into the second one. -/
inductive Edits : Nat → List Char → List Char → Prop
  | none (s : List Char) : Edits 0 s s
  | more {n : Nat} {s t u : List Char} : Edits n s t → Edit t u → Edits (n + 1) s u

variable {s t u : List Char} {c d : Char} {n : Nat}

theorem Edit.cons (c : Char) (h : Edit s t) : Edit (c :: s) (c :: t) := by
  cases h with
  | insert front d back => exact .insert (c :: front) d back
  | delete front d back => exact .delete (c :: front) d back
  | replace front d e back => exact .replace (c :: front) d e back

theorem Edit.reverse (h : Edit s t) : Edit s.reverse t.reverse := by
  cases h with
  | insert front c back =>
    simp only [List.reverse_append, List.reverse_cons, List.append_assoc, List.singleton_append]
    exact .insert back.reverse c front.reverse
  | delete front c back =>
    simp only [List.reverse_append, List.reverse_cons, List.append_assoc, List.singleton_append]
    exact .delete back.reverse c front.reverse
  | replace front c d back =>
    simp only [List.reverse_append, List.reverse_cons, List.append_assoc, List.singleton_append]
    exact .replace back.reverse c d front.reverse

theorem Edits.cons (c : Char) (h : Edits n s t) : Edits n (c :: s) (c :: t) := by
  induction h with
  | none s => exact .none (c :: s)
  | more _ hedit ih => exact .more ih (hedit.cons c)

theorem Edits.reverse (h : Edits n s t) : Edits n s.reverse t.reverse := by
  induction h with
  | none s => exact .none s.reverse
  | more _ hedit ih => exact .more ih hedit.reverse

theorem edits_reverse_iff : Edits n s.reverse t.reverse ↔ Edits n s t := by
  refine ⟨fun h => ?_, Edits.reverse⟩
  have hback := h.reverse
  rwa [List.reverse_reverse, List.reverse_reverse] at hback

/-- Without an edit a text stays what it is. -/
theorem edits_zero_iff : Edits 0 s t ↔ s = t := by
  constructor
  · intro h
    cases h
    rfl
  · rintro rfl
    exact .none s

/-! ### Texts side by side -/

/-- The texts can be laid side by side with so many differences. -/
inductive Aligned : List Char → List Char → Nat → Prop
  | nil : Aligned [] [] 0
  | keep (c : Char) {s t : List Char} {n : Nat} : Aligned s t n → Aligned (c :: s) (c :: t) n
  | replace (c d : Char) {s t : List Char} {n : Nat} :
      Aligned s t n → Aligned (c :: s) (d :: t) (n + 1)
  | insert (d : Char) {s t : List Char} {n : Nat} : Aligned s t n → Aligned s (d :: t) (n + 1)
  | delete (c : Char) {s t : List Char} {n : Nat} : Aligned s t n → Aligned (c :: s) t (n + 1)

namespace Aligned

theorem refl (s : List Char) : Aligned s s 0 := by
  induction s with
  | nil => exact .nil
  | cons c s ih => exact .keep c ih

/-- Each difference is one edit. -/
theorem edits (h : Aligned s t n) : Edits n s t := by
  induction h with
  | nil => exact .none []
  | keep c _ ih => exact ih.cons c
  | replace c d _ ih => exact .more (ih.cons c) (.replace [] c d _)
  | insert d _ ih => exact .more ih (.insert [] d _)
  | delete c _ ih => exact .more (ih.cons c) (.delete [] c _)

/-- What can be done to the text that starts with `c`, whatever stands beside this character: one
that is the same, one that it replaces, or none.  The characters in front that are taken out do not
matter. -/
theorem change_head (h : Aligned s (c :: t) n)
    (hkeep : ∀ s n, Aligned s t n → ∃ m ≤ n + 1, Aligned (c :: s) u m)
    (hreplace : ∀ e s n, Aligned s t n → ∃ m ≤ n + 2, Aligned (e :: s) u m)
    (hinsert : ∀ s n, Aligned s t n → ∃ m ≤ n + 2, Aligned s u m) :
    ∃ m ≤ n + 1, Aligned s u m := by
  -- the induction is for any text on the right, and an equation keeps its first character
  generalize hright : c :: t = right at h
  induction h with
  | nil => cases hright
  | @keep e s right n h =>
    obtain ⟨rfl, rfl⟩ := List.cons.inj hright
    exact hkeep s n h
  | @replace e f s right n h =>
    obtain ⟨rfl, rfl⟩ := List.cons.inj hright
    exact hreplace e s n h
  | @insert e s right n h =>
    obtain ⟨rfl, rfl⟩ := List.cons.inj hright
    exact hinsert s n h
  | delete e _ ih =>
    obtain ⟨m, hm, h⟩ := ih hright
    exact ⟨m + 1, by omega, .delete e h⟩

/-- Taking the first character out makes one difference more at most. -/
theorem delete_right (h : Aligned s (c :: t) n) : ∃ m ≤ n + 1, Aligned s t m := by
  apply h.change_head
  · intro s n h
    exact ⟨n + 1, le_refl _, .delete c h⟩
  · intro e s n h
    exact ⟨n + 1, by omega, .delete e h⟩
  · intro s n h
    exact ⟨n, by omega, h⟩

/-- Replacing the first character makes one difference more at most. -/
theorem replace_right (h : Aligned s (c :: t) n) (d : Char) :
    ∃ m ≤ n + 1, Aligned s (d :: t) m := by
  apply h.change_head
  · intro s n h
    exact ⟨n + 1, le_refl _, .replace c d h⟩
  · intro e s n h
    exact ⟨n + 1, by omega, .replace e d h⟩
  · intro s n h
    exact ⟨n + 1, by omega, .insert d h⟩

/-- What can be done to a text can be done to a text with one more character in front. -/
theorem cons_right (h : Aligned s (c :: t) n)
    (hrest : ∀ s n, Aligned s t n → ∃ m ≤ n + 1, Aligned s u m) :
    ∃ m ≤ n + 1, Aligned s (c :: u) m := by
  apply h.change_head
  · intro s n h
    obtain ⟨m, hm, h⟩ := hrest s n h
    exact ⟨m, hm, .keep c h⟩
  · intro e s n h
    obtain ⟨m, hm, h⟩ := hrest s n h
    exact ⟨m + 1, by omega, .replace e c h⟩
  · intro s n h
    obtain ⟨m, hm, h⟩ := hrest s n h
    exact ⟨m + 1, by omega, .insert c h⟩

/-- **An edit makes one difference more at most.** -/
theorem edit (h : Aligned s t n) (hedit : Edit t u) : ∃ m ≤ n + 1, Aligned s u m := by
  -- the edit is made behind some characters, and they are matched as before
  cases hedit with
  | insert front c back =>
    induction front generalizing s n with
    | nil => exact ⟨n + 1, le_refl _, .insert c h⟩
    | cons e front ih => exact h.cons_right fun _ _ h => ih h
  | delete front c back =>
    induction front generalizing s n with
    | nil => exact h.delete_right
    | cons e front ih => exact h.cons_right fun _ _ h => ih h
  | replace front c d back =>
    induction front generalizing s n with
    | nil => exact h.replace_right d
    | cons e front ih => exact h.cons_right fun _ _ h => ih h

end Aligned

/-- **Texts that are some edits apart can be laid side by side with as many differences**, or
fewer. -/
theorem exists_aligned_of_edits (h : Edits n s t) : ∃ m ≤ n, Aligned s t m := by
  induction h with
  | none s => exact ⟨0, le_refl _, .refl s⟩
  | more _ hedit ih =>
    obtain ⟨m, hm, haligned⟩ := ih
    obtain ⟨k, hk, haligned⟩ := haligned.edit hedit
    exact ⟨k, by omega, haligned⟩

/-! ### The least number of differences -/

/-- The least number of differences between two texts. -/
def Least (s t : List Char) (n : Nat) : Prop :=
  IsLeast {m | Aligned s t m} n

theorem least_nil_left (t : List Char) : Least [] t t.length := by
  induction t with
  | nil => exact ⟨.nil, fun m _ => Nat.zero_le m⟩
  | cons d t ih =>
    refine ⟨.insert d ih.1, fun m hm => ?_⟩
    cases hm with
    | insert _ h => exact Nat.succ_le_succ (ih.2 h)

/-- Nothing is left to compare with. -/
theorem Least.cons_nil (h : Least s [] n) (c : Char) : Least (c :: s) [] (n + 1) := by
  refine ⟨.delete c h.1, fun m hm => ?_⟩
  cases hm with
  | delete _ h' => exact Nat.succ_le_succ (h.2 h')

/-- **The recursion that the rows follow**: what stands at the heads is taken out, put in, or
matched. -/
theorem Least.cons_cons {up left diagonal : Nat} (hup : Least s (d :: t) up)
    (hleft : Least (c :: s) t left) (hdiagonal : Least s t diagonal) :
    Least (c :: s) (d :: t)
      (min (min (up + 1) (left + 1)) (diagonal + if c = d then 0 else 1)) := by
  constructor
  · -- whichever of the three is the least, one difference or match in front of it does
    rcases min_choice (min (up + 1) (left + 1)) (diagonal + if c = d then 0 else 1) with h | h
    · rw [h]
      rcases min_choice (up + 1) (left + 1) with h | h
      · rw [h]
        exact .delete c hup.1
      · rw [h]
        exact .insert d hleft.1
    · rw [h]
      split
      · next heq =>
        subst heq
        exact .keep c hdiagonal.1
      · exact .replace c d hdiagonal.1
  · -- and whatever stands in front, the rest has no fewer differences than its least number
    intro m hm
    cases hm with
    | keep _ h =>
      have := hdiagonal.2 h
      rw [if_pos rfl]
      omega
    | replace _ _ h =>
      have := hdiagonal.2 h
      split <;> omega
    | insert _ h =>
      have := hleft.2 h
      omega
    | delete _ h =>
      have := hup.2 h
      omega

/-! ### Rows -/

/-- A row for the beginning `s` of the first text: the least numbers of differences to the beginning
`t` of the second text and to what it becomes with the characters that follow, one after another.
The beginnings are written backwards. -/
inductive Row (s : List Char) : List Char → List Char → List Nat → Prop
  | last {t : List Char} {n : Nat} : Least s t n → Row s t [] [n]
  | cons {t : List Char} {n : Nat} {d : Char} {ds : List Char} {row : List Nat} :
      Least s t n → Row s (d :: t) ds row → Row s t (d :: ds) (n :: row)

namespace Row

/-- The first row: all characters are put in. -/
theorem first (t ds : List Char) : Row [] t ds (List.range' t.length (ds.length + 1)) := by
  induction ds generalizing t with
  | nil => exact .last (least_nil_left t)
  | cons d ds ih => exact .cons (least_nil_left t) (ih (d :: t))

/-- The rest of the next row, from the row above it and the entry to the left. -/
theorem distanceRow {ds : List Char} {left diagonal : Nat} {above : List Nat}
    (h : Row s t ds (diagonal :: above)) (hleft : Least (c :: s) t left) :
    Row (c :: s) t ds (left :: distanceRow c left diagonal ds above) := by
  induction ds generalizing t left diagonal above with
  | nil =>
    cases h
    exact .last hleft
  | cons d ds ih =>
    cases h with
    | cons hdiagonal hrest =>
      cases above with
      | nil => cases hrest
      | cons up above =>
        have hup : Least s (d :: t) up := by
          cases hrest with
          | last h => exact h
          | cons h _ => exact h
        exact .cons hleft (ih hrest (hup.cons_cons hleft hdiagonal))

/-- **The next row**, for one more character of the first text. -/
theorem next {ds : List Char} {row : List Nat} (h : Row s [] ds row) (c : Char) :
    Row (c :: s) [] ds (nextDistanceRow c ds row) := by
  cases row with
  | nil => cases h
  | cons diagonal above =>
    have hdiagonal : Least s [] diagonal := by
      cases h with
      | last h => exact h
      | cons h _ => exact h
    exact h.distanceRow (hdiagonal.cons_nil c)

theorem foldl {ds : List Char} {row : List Nat} (h : Row s [] ds row) (cs : List Char) :
    Row (cs.reverse ++ s) [] ds (cs.foldl (fun row c => nextDistanceRow c ds row) row) := by
  induction cs generalizing s row with
  | nil => exact h
  | cons c cs ih =>
    rw [List.reverse_cons, List.append_assoc]
    exact ih (h.next c)

/-- The last entry is for the whole second text. -/
theorem least_getLastD {ds : List Char} {row : List Nat} (h : Row s t ds row) (default : Nat) :
    Least s (ds.reverse ++ t) (row.getLastD default) := by
  induction h generalizing default with
  | last h => exact h
  | cons _ _ ih =>
    rw [List.reverse_cons, List.append_assoc, List.getLastD_cons]
    exact ih _

end Row

/-- **The edit distance is the least number of edits that turn one text into the other.** -/
theorem isLeast_editDistance (s t : String) :
    IsLeast {n | Edits n s.toList t.toList} (editDistance s t) := by
  have hrow : Row [] [] t.toList (List.range (t.toList.length + 1)) := by
    rw [List.range_eq_range']
    exact Row.first [] t.toList
  have hleast := (hrow.foldl s.toList).least_getLastD 0
  rw [List.append_nil, List.append_nil] at hleast
  -- the rows are for the texts written backwards, and these are as many edits apart
  refine ⟨edits_reverse_iff.mp hleast.1.edits, fun n hn => ?_⟩
  obtain ⟨m, hm, haligned⟩ := exists_aligned_of_edits (edits_reverse_iff.mpr hn)
  exact (hleast.2 haligned).trans hm

end Agenda.Text

/-
Agenda/Proofs/Text/Blank.lean

Blanks and trimming.  Being blank does not depend on the case of ASCII
letters, and a trimmed text starts and ends with a character that is not
blank, so trimming it again changes nothing (`trim_trim`).
-/
import Agenda.Text.Blank
import Mathlib.Data.List.TakeWhile

namespace Agenda.Text

/-! ### Blanks -/

theorem isBlank_iff (c : Char) :
    isBlank c = true ↔
      0x09 ≤ c.toNat ∧ c.toNat ≤ 0x0D ∨ c.toNat = 0x20 ∨ c.toNat = 0x85 ∨ c.toNat = 0xA0 ∨
        c.toNat = 0x1680 ∨ 0x2000 ≤ c.toNat ∧ c.toNat ≤ 0x200A ∨
        0x2028 ≤ c.toNat ∧ c.toNat ≤ 0x2029 ∨ c.toNat = 0x202F ∨ c.toNat = 0x205F ∨
        c.toNat = 0x3000 := by
  simp only [isBlank, CharacterRanges.includes, blankRanges, List.any_cons, List.any_nil,
    Bool.or_false, Bool.or_eq_true, Bool.and_eq_true, decide_eq_true_eq]
  omega

/-- Lower case of ASCII letters moves 26 code points up by 32. -/
theorem toNat_toLower (c : Char) :
    c.toLower.toNat = if 65 ≤ c.toNat ∧ c.toNat ≤ 90 then c.toNat + 32 else c.toNat := by
  unfold Char.toLower
  have hiff : (c.val ≥ 'A'.val ∧ c.val ≤ 'Z'.val) ↔ 65 ≤ c.toNat ∧ c.toNat ≤ 90 := by
    rw [ge_iff_le, UInt32.le_iff_toNat_le, UInt32.le_iff_toNat_le]
    rfl
  split
  · next h =>
    rw [if_pos (hiff.mp h)]
    have hle := (hiff.mp h).2
    show (c.val + ('a'.val - 'A'.val)).toNat = c.toNat + 32
    rw [UInt32.toNat_add]
    show (c.toNat + 32) % 4294967296 = c.toNat + 32
    omega
  · next h => rw [if_neg fun hn => h (hiff.mpr hn)]

@[simp] theorem isBlank_toLower (c : Char) : isBlank c.toLower = isBlank c := by
  rw [Bool.eq_iff_iff, isBlank_iff, isBlank_iff, toNat_toLower]
  split <;> omega

/-! ### Trimming -/

/-- What is left after dropping blanks does not start with one. -/
theorem head?_dropBlanks (cs : List Char) : ∀ c ∈ (dropBlanks cs).head?, isBlank c = false := by
  intro c hc
  have h := List.head?_dropWhile_not isBlank cs
  rw [dropBlanks, Option.mem_def] at hc
  rw [hc] at h
  exact h

theorem dropBlanks_eq_self {cs : List Char} (h : ∀ c ∈ cs.head?, isBlank c = false) :
    dropBlanks cs = cs := by
  cases cs with
  | nil => rfl
  | cons c cs => exact List.dropWhile_cons_of_neg (by simp [h c rfl])

/-- A trimmed text does not start with a blank: the blanks at its end were dropped after those at
its start. -/
theorem head?_trimList (cs : List Char) : ∀ c ∈ (trimList cs).head?, isBlank c = false := by
  intro c hc
  apply head?_dropBlanks cs
  rw [trimList, List.head?_reverse] at hc
  obtain ⟨dropped, hdropped⟩ : dropBlanks (dropBlanks cs).reverse <:+ (dropBlanks cs).reverse :=
    List.dropWhile_suffix isBlank
  rw [← List.getLast?_reverse, ← hdropped, List.getLast?_append, hc]
  rfl

theorem trimList_trimList (cs : List Char) : trimList (trimList cs) = trimList cs := by
  have hstart := dropBlanks_eq_self (head?_trimList cs)
  have hend := dropBlanks_eq_self (head?_dropBlanks (dropBlanks cs).reverse)
  rw [trimList, hstart, trimList, List.reverse_reverse, hend]

/-- There is nothing to trim in a text without blanks. -/
theorem trim_eq_self {s : String} (h : ∀ c ∈ s.toList, isBlank c = false) : trim s = s := by
  have hstart : dropBlanks s.toList = s.toList :=
    dropBlanks_eq_self fun c hc => h c (List.mem_of_mem_head? hc)
  have hend : dropBlanks s.toList.reverse = s.toList.reverse :=
    dropBlanks_eq_self fun c hc => h c (List.mem_reverse.mp (List.mem_of_mem_head? hc))
  rw [← String.toList_inj, toList_trim, trimList, hstart, hend, List.reverse_reverse]

/-- Trimming a trimmed text changes nothing. -/
@[simp] theorem trim_trim (s : String) : trim (trim s) = trim s := by
  rw [← String.toList_inj, toList_trim, toList_trim, trimList_trimList]

end Agenda.Text

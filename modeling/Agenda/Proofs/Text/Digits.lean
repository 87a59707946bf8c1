/-
Agenda/Proofs/Text/Digits.lean

Decimal digits: the digits of a number have the value of the number
(`decimalValue_toDigits`), and a number that fits 64 bits stays in the range of
doubles when it is reckoned in steps (`overflowsInSteps_whole`), since all of
its digits count and no power of ten is left.
-/
import Agenda.Text.Numeral
import Mathlib.Algebra.Group.Nat.Defs
import Mathlib.Data.List.Basic
import Mathlib.Data.List.TakeWhile

namespace Agenda.Text

/-! ### Runs of digits -/

/-- No digit stands at the start of this text. -/
def EndsDigits (rest : List Char) : Prop :=
  ∀ c ∈ rest.head?, c.isDigit = false

theorem takeWhile_isDigit_append {digits rest : List Char}
    (hdigits : ∀ c ∈ digits, c.isDigit = true) (hrest : EndsDigits rest) :
    (digits ++ rest).takeWhile Char.isDigit = digits := by
  rw [List.takeWhile_append_of_pos hdigits]
  cases rest with
  | nil => exact List.append_nil digits
  | cons c rest => rw [List.takeWhile_cons_of_neg (by simp [hrest c rfl]), List.append_nil]

theorem isDigit_of_mem_toDigits {n : Nat} : ∀ c ∈ Nat.toDigits 10 n, c.isDigit = true :=
  fun _ hc => Nat.isDigit_of_mem_toDigits (by decide) (by decide) hc

theorem exists_toDigits_eq_cons (n : Nat) :
    ∃ c cs, Nat.toDigits 10 n = c :: cs ∧ c.isDigit = true := by
  obtain ⟨c, cs, h⟩ := List.exists_cons_of_ne_nil (Nat.toDigits_ne_nil (b := 10) (n := n))
  exact ⟨c, cs, h, isDigit_of_mem_toDigits c (by rw [h]; exact List.mem_cons_self)⟩

/-- The first digit of a number is zero only if the number is. -/
theorem head?_toDigits_ne_zero {n : Nat} (hn : 0 < n) : (Nat.toDigits 10 n).head? ≠ some '0' := by
  induction n using Nat.strong_induction_on with
  | _ n ih =>
    by_cases hlt : n < 10
    · rw [Nat.toDigits_of_lt_base hlt, List.head?_cons]
      simpa using hn.ne'
    · rw [Nat.toDigits_of_base_le (by decide) (by omega),
        List.head?_append_of_ne_nil _ Nat.toDigits_ne_nil]
      exact ih (n / 10) (by omega) (by omega)

/-! ### Values -/

theorem decimalValue_eq (digits : List Char) :
    decimalValue digits = Nat.ofDigitChars 10 digits 0 := by
  rw [Nat.ofDigitChars_eq_foldl, decimalValue]

@[simp] theorem decimalValue_toDigits (n : Nat) : decimalValue (Nat.toDigits 10 n) = n := by
  rw [decimalValue_eq, Nat.ofDigitChars_toDigits (by decide) (by decide)]

/-- Digits whose value fits 64 bits are all taken. -/
theorem extended_eq {digits : List Char} {n : Nat}
    (h : Nat.ofDigitChars 10 digits n < UInt64.size) :
    extended n digits = (Nat.ofDigitChars 10 digits n, digits.length) := by
  induction digits generalizing n with
  | nil => rw [extended, Nat.ofDigitChars_nil, List.length_nil]
  | cons c digits ih =>
    rw [Nat.ofDigitChars_cons] at h ⊢
    -- further digits make the number longer
    have hle := Nat.le_mul_of_pos_left (10 * n + (c.toNat - '0'.toNat))
      (Nat.pow_pos (n := digits.length) (show 0 < 10 by decide))
    have hfits : 10 * n + (c.toNat - '0'.toNat) < UInt64.size := by
      rw [Nat.ofDigitChars_eq_ofDigitChars_zero] at h
      omega
    rw [extended, if_pos hfits, ih h]
    rfl

/-! ### The range of doubles -/

/-- Rounding adds less than one unit of the last digit that is kept. -/
theorem nearestDouble_le (n : Nat) : nearestDouble n ≤ n + 2 ^ (n.log2 - 52) := by
  have hbelow : n / Nat.pow 2 (n.log2 - 52) * Nat.pow 2 (n.log2 - 52) ≤ n :=
    Nat.div_mul_le_self n _
  rw [nearestDouble]
  split
  · rw [Nat.add_mul, Nat.one_mul]
    exact Nat.add_le_add_right hbelow _
  · exact hbelow.trans (Nat.le_add_right _ _)

theorem nearestDouble_lt {n : Nat} (h : n < UInt64.size) : nearestDouble n < doubleLimit := by
  have hlog : n.log2 ≤ 63 := by
    rcases Nat.eq_zero_or_pos n with rfl | hn
    · decide
    · exact Nat.le_of_lt_succ ((Nat.log2_lt hn.ne').mpr h)
  have hunit : 2 ^ (n.log2 - 52) ≤ 2 ^ 11 := Nat.pow_le_pow_right (by decide) (by omega)
  have hlimit : UInt64.size + 2 ^ 11 < doubleLimit := by decide +kernel
  have hle := nearestDouble_le n
  omega

/-- **A whole number that fits 64 bits is in the range of doubles.** -/
theorem overflowsInSteps_whole {digits : List Char} (negative : Bool)
    (h : decimalValue digits < UInt64.size) :
    Numeral.overflowsInSteps ⟨negative, digits, none, none⟩ = false := by
  rw [decimalValue_eq] at h
  have hone : nearestDouble (Nat.pow 10 0) = 1 := by decide +kernel
  have hlt := nearestDouble_lt h
  simp only [Numeral.overflowsInSteps, extended_eq h, Option.getD_none, extended, Numeral.power]
  -- no power of ten is left
  have hexponent : (0 : Int) + digits.length - digits.length - (0 : Nat) = 0 := by omega
  rw [hexponent, Int.toNat_zero, hone, Nat.mul_one]
  simp [hlt]

end Agenda.Text

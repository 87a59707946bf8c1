/-
Agenda/Proofs/Timestamp.lean

An instant is read back from its written form (`read?_render`).  Every part
but the fraction has a fixed width, so its digits end where the next mark
stands; the fraction ends with the name of the zone.  A leap second is written
as the second 60 and read as such.

The year is read without a sign if it has four digits, and with a sign, and as
many digits as there are, if it would have more or is negative.
-/
import Agenda.Timestamp
import Agenda.Proofs.Text.Blank
import Agenda.Proofs.Text.Digits

namespace Agenda

open Text

variable {rest : List Char}

/-! ### Padded digits -/

@[simp] theorem length_paddedDigits (width n : Nat) : (paddedDigits width n).length = width := by
  induction width generalizing n with
  | zero => rfl
  | succ width ih => simp [paddedDigits, ih]

theorem paddedDigits_ne_nil {width : Nat} (hwidth : 0 < width) (n : Nat) :
    paddedDigits width n ≠ [] := by
  rwa [← List.length_pos_iff, length_paddedDigits]

theorem isDigit_of_mem_paddedDigits {width n : Nat} :
    ∀ c ∈ paddedDigits width n, c.isDigit = true := by
  induction width generalizing n with
  | zero => nofun
  | succ width ih =>
    intro c hc
    rw [paddedDigits, List.mem_append, List.mem_singleton] at hc
    rcases hc with hc | rfl
    · exact ih c hc
    · simpa using Nat.mod_lt n (by decide)

/-- Enough digits have the value of the number. -/
theorem decimalValue_paddedDigits {width n : Nat} (h : n < 10 ^ width) :
    decimalValue (paddedDigits width n) = n := by
  induction width generalizing n with
  | zero =>
    rw [Nat.pow_zero] at h
    rw [paddedDigits, decimalValue_nil]
    omega
  | succ width ih =>
    have hrest : n / 10 < 10 ^ width := by
      rw [Nat.pow_succ] at h
      omega
    have hlast : (Nat.digitChar (n % 10)).toNat - '0'.toNat = n % 10 :=
      Nat.toNat_digitChar_sub_48_of_lt_ten (Nat.mod_lt n (by decide))
    rw [paddedDigits, decimalValue_concat, ih hrest, hlast]
    omega

/-! ### Reading digits -/

theorem isBlank_of_isDigit {c : Char} (h : c.isDigit = true) : isBlank c = false := by
  have hrange : 48 ≤ c.toNat ∧ c.toNat ≤ 57 := Char.isDigit_iff_toNat.mp h
  by_contra hblank
  rw [Bool.not_eq_false, isBlank_iff] at hblank
  omega

/-- Digits are read up to their width, or up to where no digit follows. -/
theorem digitRun_append {digits : List Char} {width : Nat} (hne : digits ≠ [])
    (hdigits : ∀ c ∈ digits, c.isDigit = true)
    (hend : digits.length = width ∨ digits.length ≤ width ∧ EndsDigits rest) :
    digitRun (some width) (digits ++ rest) = some (digits, rest) := by
  have htake : ((digits ++ rest).takeWhile Char.isDigit).take width = digits := by
    rcases hend with rfl | ⟨hle, hend⟩
    · rw [List.takeWhile_append_of_pos hdigits, List.take_left]
    · rw [takeWhile_isDigit_append hdigits hend, List.take_of_length_le hle]
  simp only [digitRun, htake, List.drop_left]
  simp [hne]

/-- Without a width digits are read up to where no digit follows. -/
theorem digitRun_none_append {digits : List Char} (hne : digits ≠ [])
    (hdigits : ∀ c ∈ digits, c.isDigit = true) (hend : EndsDigits rest) :
    digitRun none (digits ++ rest) = some (digits, rest) := by
  simp only [digitRun, takeWhile_isDigit_append hdigits hend, List.drop_left]
  simp [hne]

theorem dropBlanks_digits {digits : List Char} (hne : digits ≠ [])
    (hdigits : ∀ c ∈ digits, c.isDigit = true) (rest : List Char) :
    dropBlanks (digits ++ rest) = digits ++ rest := by
  obtain ⟨c, digits, rfl⟩ := List.exists_cons_of_ne_nil hne
  refine dropBlanks_eq_self ?_
  rintro d ⟨⟩
  exact isBlank_of_isDigit (hdigits c List.mem_cons_self)

/-- A number of two digits is read, whatever follows. -/
theorem boundedNumber_paddedDigits {low high n : Nat} (hn : n < 100) (hlow : low ≤ n)
    (hhigh : n ≤ high) (rest : List Char) :
    boundedNumber 2 low high (paddedDigits 2 n ++ rest) = some (n, rest) := by
  have hne : paddedDigits 2 n ≠ [] := paddedDigits_ne_nil (by decide) n
  rw [boundedNumber, dropBlanks_digits hne isDigit_of_mem_paddedDigits,
    digitRun_append hne isDigit_of_mem_paddedDigits (.inl (length_paddedDigits 2 n))]
  show (if low ≤ decimalValue _ ∧ decimalValue _ ≤ high then _ else none) = _
  rw [decimalValue_paddedDigits hn, if_pos ⟨hlow, hhigh⟩]
  rfl

theorem mark_cons {c : Char} (hc : isBlank c = false) (rest : List Char) :
    mark c (c :: rest) = some rest := by
  rw [mark, dropBlanks_eq_self (by rintro d ⟨⟩; exact hc)]
  exact if_pos rfl

/-- A year without a sign has four digits at most. -/
theorem yearNumber_of_digit {c : Char} (hc : c.isDigit = true) (cs : List Char) :
    yearNumber (c :: cs) =
      (digitRun (some 4) (c :: cs)).map fun r => ((decimalValue r.1 : Int), r.2) := by
  have hself : dropBlanks (c :: cs) = c :: cs :=
    dropBlanks_eq_self (by rintro d ⟨⟩; exact isBlank_of_isDigit hc)
  unfold yearNumber
  rw [hself]
  split
  · next h => cases h; cases hc
  · next h => cases h; cases hc
  · rfl

/-- The digits of a year that is written with a sign. -/
def signedDigits (n : Nat) : List Char :=
  if n ≤ 9999 then paddedDigits 4 n else Nat.toDigits 10 n

theorem digitRun_signedDigits (n : Nat) (hrest : EndsDigits rest) :
    digitRun none (signedDigits n ++ rest) = some (signedDigits n, rest) := by
  unfold signedDigits
  split
  · exact digitRun_none_append (paddedDigits_ne_nil (by decide) n) isDigit_of_mem_paddedDigits hrest
  · exact digitRun_none_append Nat.toDigits_ne_nil isDigit_of_mem_toDigits hrest

theorem decimalValue_signedDigits (n : Nat) : decimalValue (signedDigits n) = n := by
  unfold signedDigits
  split
  · exact decimalValue_paddedDigits (by omega)
  · exact decimalValue_toDigits n

/-- A year of four digits is read, whatever follows. -/
theorem yearNumber_paddedDigits {year : Int} (hlow : 0 ≤ year) (hhigh : year ≤ 9999)
    (rest : List Char) :
    yearNumber (paddedDigits 4 year.toNat ++ rest) = some (year, rest) := by
  have hne : paddedDigits 4 year.toNat ≠ [] := paddedDigits_ne_nil (by decide) _
  have hrun : digitRun (some 4) (paddedDigits 4 year.toNat ++ rest) = some (_, rest) :=
    digitRun_append hne isDigit_of_mem_paddedDigits (.inl (length_paddedDigits 4 _))
  have hvalue : decimalValue (paddedDigits 4 year.toNat) = year.toNat :=
    decimalValue_paddedDigits (by omega)
  obtain ⟨c, cs, hcons⟩ := List.exists_cons_of_ne_nil hne
  have hc : c.isDigit = true := isDigit_of_mem_paddedDigits c (by rw [hcons]; simp)
  rw [hcons] at hrun hvalue ⊢
  rw [List.cons_append] at hrun ⊢
  rw [yearNumber_of_digit hc, hrun, Option.map_some, hvalue, Int.toNat_of_nonneg hlow]

/-- **A year is read back**, if no digit follows it. -/
theorem yearNumber_yearDigits (year : Int) (hrest : EndsDigits rest) :
    yearNumber (yearDigits year ++ rest) = some (year, rest) := by
  have hself : ∀ {c : Char} (cs : List Char), isBlank c = false →
      dropBlanks (c :: cs) = c :: cs := fun cs hc =>
    dropBlanks_eq_self (by rintro d ⟨⟩; exact hc)
  rw [yearDigits]
  split
  · next h => exact yearNumber_paddedDigits h.1 h.2 rest
  · next h =>
    rw [← signedDigits, List.cons_append]
    split
    · next hneg =>
      rw [yearNumber, hself _ (by decide)]
      simp only [digitRun_signedDigits _ hrest, Option.map_some, decimalValue_signedDigits]
      rw [← Int.eq_neg_natAbs_of_nonpos (Int.le_of_lt hneg)]
    · next hpos =>
      rw [yearNumber, hself _ (by decide)]
      simp only [digitRun_signedDigits _ hrest, Option.map_some, decimalValue_signedDigits]
      rw [Int.natAbs_of_nonneg (Int.not_lt.mp hpos)]

/-! ### Dates -/

theorem Date.of?_self (d : Date) (h : yearInRange d.year = true) :
    Date.of? d.year d.month d.day = some d := by
  rw [Date.of?, dif_pos d.valid, if_pos h]

theorem dateOf?_render {d : Date} (hrange : yearInRange d.year = true) (rest : List Char) :
    dateOf? (d.render ++ rest) = some (d, rest) := by
  obtain ⟨hmonth, hmonth', hday, hday'⟩ := d.valid
  have hdays : daysInMonth d.year d.month ≤ 31 := by
    unfold daysInMonth
    split_ifs <;> decide
  have hmark : ∀ cs, EndsDigits ('-' :: cs) := fun cs => by rintro c ⟨⟩; rfl
  have hwritten : d.render ++ rest = yearDigits d.year ++ ('-' :: (paddedDigits 2 d.month ++
      ('-' :: (paddedDigits 2 d.day ++ rest)))) := by
    simp [Date.render]
  rw [hwritten]
  simp only [dateOf?, Option.bind_eq_bind, yearNumber_yearDigits _ (hmark _), Option.bind_some,
    mark_cons (c := '-') (by decide),
    boundedNumber_paddedDigits (show d.month < 100 by omega) hmonth hmonth',
    boundedNumber_paddedDigits (show d.day < 100 by omega) hday (hday'.trans hdays),
    d.of?_self hrange]
  rfl

/-! ### Times of day -/

/-- A fraction is counted in units of its last digit. -/
theorem nanoseconds_paddedDigits {n : Nat} (width : Nat) (hwidth : 0 < width) (hle : width ≤ 9)
    (hn : n < 10 ^ 9) (hdvd : 10 ^ (9 - width) ∣ n) (hrest : EndsDigits rest) :
    nanoseconds ('.' :: (paddedDigits width (n / 10 ^ (9 - width)) ++ rest)) = some (n, rest) := by
  have hfits : n / 10 ^ (9 - width) < 10 ^ width := by
    apply Nat.div_lt_of_lt_mul
    rwa [← Nat.pow_add, Nat.sub_add_cancel hle]
  have hrun : digitRun (some 9) (paddedDigits width (n / 10 ^ (9 - width)) ++ rest) =
      some (_, rest) :=
    digitRun_append (paddedDigits_ne_nil hwidth _) isDigit_of_mem_paddedDigits
      (.inr ⟨by rwa [length_paddedDigits], hrest⟩)
  have hdrop : rest.dropWhile Char.isDigit = rest := by
    cases rest with
    | nil => rfl
    | cons c rest => exact List.dropWhile_cons_of_neg (by simp [hrest c rfl])
  have hvalue : decimalValue (paddedDigits width (n / 10 ^ (9 - width))) *
      Nat.pow 10 (9 - (paddedDigits width (n / 10 ^ (9 - width))).length) = n := by
    rw [decimalValue_paddedDigits hfits, length_paddedDigits]
    exact Nat.div_mul_cancel hdvd
  simp only [nanoseconds, hrun, Option.bind_eq_bind, Option.bind_some, hdrop, hvalue]
  rfl

theorem nanoseconds_fractionDigits {n : Nat} (hn : n < 1000000000) (hrest : EndsDigits rest)
    (hpoint : rest.head? ≠ some '.') :
    nanoseconds (fractionDigits n ++ rest) = some (n, rest) := by
  unfold fractionDigits
  split_ifs with hzero hmilli hmicro
  · rw [hzero, List.nil_append]
    unfold nanoseconds
    split
    · exact absurd rfl hpoint
    · rfl
  · exact nanoseconds_paddedDigits 3 (by decide) (by decide) hn
      (Nat.dvd_of_mod_eq_zero hmilli) hrest
  · exact nanoseconds_paddedDigits 6 (by decide) (by decide) hn
      (Nat.dvd_of_mod_eq_zero hmicro) hrest
  · have hread := nanoseconds_paddedDigits 9 (by decide) (by decide) hn
      (Nat.one_dvd n) hrest
    rwa [Nat.sub_self, Nat.pow_zero, Nat.div_one] at hread

/-- The time of day as it is written, to the nanosecond. -/
def Timestamp.renderTime (t : Timestamp) : List Char :=
  t.renderMinute ++ ':' :: (paddedDigits 2 (t.second % 60 + t.nanosecond / 1000000000) ++
    fractionDigits (t.nanosecond % 1000000000))

theorem timeOf?_renderTime (t : Timestamp) (hrest : EndsDigits rest)
    (hpoint : rest.head? ≠ some '.') :
    timeOf? (t.renderTime ++ rest) = some (t.second, t.nanosecond, rest) := by
  have hday := t.second_lt
  have hleap := t.nanosecond_lt
  have hhour : t.second / 3600 ≤ 23 := by omega
  have hminute : t.second / 60 % 60 ≤ 59 := by omega
  have hsecond : t.second % 60 + t.nanosecond / 1000000000 ≤ 60 := by
    split at hleap <;> omega
  have hwritten : t.renderTime ++ rest = paddedDigits 2 (t.second / 3600) ++ (':' ::
      (paddedDigits 2 (t.second / 60 % 60) ++ (':' ::
        (paddedDigits 2 (t.second % 60 + t.nanosecond / 1000000000) ++
          (fractionDigits (t.nanosecond % 1000000000) ++ rest))))) := by
    simp [Timestamp.renderTime, Timestamp.renderMinute]
  rw [hwritten]
  simp only [timeOf?, Option.bind_eq_bind, Option.bind_some, mark_cons (c := ':') (by decide),
    boundedNumber_paddedDigits (show t.second / 3600 < 100 by omega) (Nat.zero_le _) hhour,
    boundedNumber_paddedDigits (show t.second / 60 % 60 < 100 by omega) (Nat.zero_le _) hminute,
    boundedNumber_paddedDigits (hsecond.trans_lt (by decide)) (Nat.zero_le _) hsecond,
    nanoseconds_fractionDigits (Nat.mod_lt _ (by decide)) hrest hpoint]
  by_cases hnano : t.nanosecond < 1000000000
  · have hstart : t.second / 3600 * 3600 + t.second / 60 % 60 * 60 + t.second % 60 = t.second := by
      omega
    rw [Nat.div_eq_of_lt hnano, Nat.mod_eq_of_lt hnano, Nat.add_zero, if_neg (by omega), hstart]
    rfl
  · -- the last second of its minute has gone on for a second more
    have hlast : t.second % 60 = 59 := by
      by_contra hlast
      rw [if_neg hlast] at hleap
      exact hnano hleap
    rw [if_pos hlast] at hleap
    have hstart : t.second / 3600 * 3600 + t.second / 60 % 60 * 60 + 59 = t.second := by omega
    have hrest : t.nanosecond % 1000000000 + 1000000000 = t.nanosecond := by omega
    rw [if_pos (by omega), hstart, hrest]
    rfl

/-! ### Instants -/

theorem Timestamp.of?_self (t : Timestamp) :
    Timestamp.of? t.date t.second t.nanosecond = some t := by
  rw [Timestamp.of?, dif_pos ⟨t.second_lt, t.nanosecond_lt⟩]

theorem Timestamp.ofLocal?_zero (t : Timestamp) :
    Timestamp.ofLocal? t.date t.second t.nanosecond 0 = some t := by
  have hday := t.second_lt
  have hshifted : (t.second : Int) - 0 = t.second := by omega
  simp only [Timestamp.ofLocal?, hshifted]
  rw [if_neg (by omega), if_neg (by omega), Int.toNat_natCast, t.of?_self]

/-- **An instant is read back**, to the nanosecond, if its year can be represented. -/
theorem Timestamp.read?_render (t : Timestamp) (hrange : yearInRange t.date.year = true) :
    Timestamp.read? t.render = some t := by
  have hwritten : t.render.toList = t.date.render ++ ('T' :: (t.renderTime ++ ['Z'])) := by
    simp [Timestamp.render, Timestamp.renderList, Timestamp.renderTime]
  have hend : EndsDigits ['Z'] := by rintro c ⟨⟩; rfl
  have hzone : offset? (dropBlanks ['Z']) = some (0, []) := by decide
  have hdateEnd : ∀ cs, dateEnd? ('T' :: cs) = some cs := fun cs => rfl
  simp only [Timestamp.read?, hwritten, Option.bind_eq_bind, Option.bind_some,
    dateOf?_render hrange, hdateEnd, timeOf?_renderTime t hend (by decide), hzone,
    t.ofLocal?_zero]
  rfl

end Agenda

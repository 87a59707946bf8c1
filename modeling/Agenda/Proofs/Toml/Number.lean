/-
Agenda/Proofs/Toml/Number.lean

Integers in TOML documents are read again (`number?_integer`).  Dates, times and
numbers with a fraction begin with digits as well, and they are tried first.  An
integer at the end of a line is none of them: what comes after its digits is
neither a hyphen nor a colon nor a point.
-/
import Agenda.Json.Value
import Agenda.Toml.Number
import Agenda.Proofs.Text.Digits

namespace Agenda.Toml

open Text Json

variable {ds rest : List Char} {n : Nat} {mark : Char}

/-! ### Dates and times -/

/-- **After digits at the end of a line no mark follows.** -/
theorem after?_drop_digits (hds : ∀ c ∈ ds, c.isDigit = true) (hdigit : mark.isDigit = false)
    (hline : mark ≠ '\n') (htake : ∀ c ∈ (ds ++ '\n' :: rest).take n, c.isDigit = true) :
    after? mark ((ds ++ '\n' :: rest).drop n) = none := by
  -- the end of the line is no digit, so it was not reached
  have hn : n ≤ ds.length := by
    by_contra hlt
    obtain ⟨k, hk⟩ := Nat.exists_eq_succ_of_ne_zero (Nat.sub_ne_zero_of_lt (not_le.mp hlt))
    rw [List.take_append, hk, List.take_succ_cons] at htake
    cases htake '\n' (by simp)
  rw [List.drop_append_of_le_length hn]
  cases hdrop : ds.drop n with
  | nil => exact if_neg hline.symm
  | cons d more =>
    have hd : d.isDigit = true := hds d (List.mem_of_mem_drop (hdrop ▸ List.mem_cons_self))
    refine if_neg ?_
    rintro rfl
    rw [hd] at hdigit
    cases hdigit

/-- Digits at the end of a line are no date. -/
theorem date?_digits (hds : ∀ c ∈ ds, c.isDigit = true) (rest : List Char) :
    date? (ds ++ '\n' :: rest) = none := by
  unfold date?
  dsimp only
  split
  · next hyear =>
    rw [after?_drop_digits hds (by decide) (by decide) (List.all_eq_true.mp hyear.2)]
    rfl
  · rfl

/-- Digits at the end of a line are no time. -/
theorem time?_digits (hds : ∀ c ∈ ds, c.isDigit = true) (rest : List Char) :
    time? (ds ++ '\n' :: rest) = none := by
  unfold time?
  cases hpair : pair? 0 23 (ds ++ '\n' :: rest) with
  | none => rfl
  | some found =>
    obtain ⟨hour, more⟩ := found
    have hfound : (∀ c ∈ (ds ++ '\n' :: rest).take 2, c.isDigit = true) ∧
        more = (ds ++ '\n' :: rest).drop 2 := by
      unfold pair? at hpair
      split at hpair
      · next a b cs heq =>
        dsimp only at hpair
        split at hpair
        · next hdigits =>
          cases hpair
          rw [heq]
          simpa using ⟨hdigits.1, hdigits.2.1⟩
        · cases hpair
      · cases hpair
    obtain ⟨hdigits, rfl⟩ := hfound
    show (after? ':' ((ds ++ '\n' :: rest).drop 2) >>= _) = none
    rw [after?_drop_digits hds (by decide) (by decide) hdigits]
    rfl

theorem moment?_digits (hds : ∀ c ∈ ds, c.isDigit = true) (rest : List Char) :
    moment? (ds ++ '\n' :: rest) = none := by
  rw [moment?, date?_digits hds, time?_digits hds]
  rfl

/-- Neither a date nor a time has a sign. -/
theorem moment?_minus (input : List Char) : moment? ('-' :: input) = none := by
  have htime : time? ('-' :: input) = none := by
    cases input with
    | nil => rfl
    | cons c input => simp [time?, pair?]
  simp [moment?, date?, htime]

/-! ### Decimal digits -/

theorem digitRun_append {isDigit : Char → Bool} (hds : ∀ c ∈ ds, isDigit c = true)
    (hline : isDigit '\n' = false) (rest : List Char) :
    digitRun isDigit (ds ++ '\n' :: rest) = (ds, '\n' :: rest) := by
  induction ds with
  | nil =>
    cases rest with
    | nil => simp [digitRun, hline]
    | cons c rest => simp [digitRun, hline]
  | cons d ds ih =>
    obtain ⟨hd, hds⟩ := List.forall_mem_cons.mp hds
    rw [List.cons_append, digitRun.eq_def]
    simp only [hd, if_true, ih hds]

/-- **The digits of a number are read again.** -/
theorem decimal?_toDigits (n : Nat) (rest : List Char) :
    decimal? (Nat.toDigits 10 n ++ '\n' :: rest) = some (Nat.toDigits 10 n, '\n' :: rest) := by
  rcases Nat.eq_zero_or_pos n with rfl | hn
  · rfl
  · have hrun := digitRun_append (isDigit_of_mem_toDigits (n := n)) (by decide) rest
    have hzero := head?_toDigits_ne_zero hn
    -- the number is not zero, and then it does not start with one
    obtain ⟨c, cs, hcons, hc⟩ := exists_toDigits_eq_cons n
    rw [hcons] at hrun hzero ⊢
    unfold decimal?
    split
    · next heq =>
      obtain rfl : c = '0' := (List.cons.inj heq).1
      exact absurd rfl hzero
    · rw [List.cons_append, digits?, if_pos hc]
      exact congrArg some hrun

theorem hexValue?_of_isDigit {c : Char} (h : c.isDigit = true) :
    hexValue? c = some (c.toNat - '0'.toNat) := by
  rw [hexValue?, if_pos]
  simpa [Char.isDigit, Char.le_def] using h

theorem baseValue_toDigits (n : Nat) : baseValue 10 (Nat.toDigits 10 n) = n := by
  refine Eq.trans ?_ (decimalValue_toDigits n)
  refine List.foldl_ext _ _ _ fun m c hc => ?_
  rw [hexValue?_of_isDigit (isDigit_of_mem_toDigits c hc), Option.getD_some]

/-! ### Integers -/

theorem integerOf?_toInt (n : Int64) : integerOf? n.toInt = some (.integer n) := by
  rw [integerOf?, if_pos ⟨n.minValue_le_toInt, n.toInt_le⟩, Int64.ofInt_toInt]

/-- The sign and the digits of an integer. -/
theorem sign_integer (n : Int) (rest : List Char) :
    sign (Json.integer n ++ rest) = (decide (n < 0), Nat.toDigits 10 n.natAbs ++ rest) := by
  rw [Json.integer]
  split
  · next hneg => simp [sign, hneg]
  · next hneg =>
    obtain ⟨c, cs, hcons, hc⟩ := exists_toDigits_eq_cons n.natAbs
    rw [hcons, List.nil_append, List.cons_append, decide_eq_false hneg]
    unfold sign
    split
    · next heq =>
      obtain ⟨rfl, -⟩ := List.cons.inj heq
      cases hc
    · next heq =>
      obtain ⟨rfl, -⟩ := List.cons.inj heq
      cases hc
    · rfl

/-- An integer is neither a date nor a time. -/
theorem moment?_integer (n : Int) (rest : List Char) :
    moment? (Json.integer n ++ '\n' :: rest) = none := by
  rw [Json.integer]
  split
  · exact moment?_minus _
  · exact moment?_digits isDigit_of_mem_toDigits rest

/-- An integer has neither a fraction nor an exponent. -/
theorem fractional?_integer (n : Int) (rest : List Char) :
    fractional? (Json.integer n ++ '\n' :: rest) = none := by
  rw [fractional?, sign_integer]
  dsimp only
  rw [decimal?_toDigits]
  rfl

/-- An integer is not written in letters. -/
theorem named?_integer (n : Int) (rest : List Char) :
    named? (Json.integer n ++ '\n' :: rest) = none := by
  obtain ⟨c, cs, hcons, hc⟩ := exists_toDigits_eq_cons n.natAbs
  rw [named?, sign_integer, hcons]
  split
  · next heq =>
    obtain ⟨rfl, -⟩ := List.cons.inj heq
    cases hc
  · next heq =>
    obtain ⟨rfl, -⟩ := List.cons.inj heq
    cases hc
  · rfl

/-- A zero in front stands alone. -/
theorem eq_newLine_of_integer {n : Int} {d : Char} {cs : List Char}
    (h : Json.integer n ++ '\n' :: rest = '0' :: d :: cs) : d = '\n' := by
  rw [Json.integer] at h
  split at h
  · cases h
  · rcases Nat.eq_zero_or_pos n.natAbs with hzero | hpos
    · rw [hzero] at h
      exact (List.cons.inj (List.cons.inj h).2).1.symm
    · obtain ⟨c, more, hcons, -⟩ := exists_toDigits_eq_cons n.natAbs
      have hne := head?_toDigits_ne_zero hpos
      rw [hcons] at h hne
      obtain rfl : c = '0' := (List.cons.inj h).1
      exact absurd rfl hne

theorem integer?_integer (n : Int64) (rest : List Char) :
    integer? (Json.integer n.toInt ++ '\n' :: rest) = some (.integer n, '\n' :: rest) := by
  have hvalue : (if n.toInt < 0 then -(n.toInt.natAbs : Int) else n.toInt.natAbs) = n.toInt := by
    split <;> omega
  -- after a zero that stands alone there is no letter for another base
  unfold integer?
  split
  · next heq => cases eq_newLine_of_integer heq
  · next heq => cases eq_newLine_of_integer heq
  · next heq => cases eq_newLine_of_integer heq
  · rw [sign_integer]
    dsimp only
    rw [decimal?_toDigits]
    simp only [Option.bind_eq_bind, Option.bind_some, baseValue_toDigits, decide_eq_true_eq, hvalue,
      integerOf?_toInt, Option.pure_def]

/-- **An integer at the end of a line is read again.** -/
theorem number?_integer (n : Int64) (rest : List Char) :
    number? (Json.integer n.toInt ++ '\n' :: rest) = some (.integer n, '\n' :: rest) := by
  rw [number?, moment?_integer, fractional?_integer, named?_integer, integer?_integer]
  rfl

end Agenda.Toml

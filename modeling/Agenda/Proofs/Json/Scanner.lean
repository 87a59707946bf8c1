/-
Agenda/Proofs/Json/Scanner.lean

What is written is read again: strings and integers.

    Reads result value rest

says that a reading succeeded with this value and left this rest.  A string
ends with its quote, whatever follows.  A number ends where it does not go on,
so what follows a value must not continue it; `EndsValue` is what the writer
puts behind a value.
-/
import Agenda.Json.Scanner
import Agenda.Json.Value
import Agenda.Proofs.Text.Digits

namespace Agenda.Json

open Text

variable {α β : Type} {input more rest : List Char} {value : α}

/-! ### Readings -/

/-- The reading succeeds with this value and leaves this rest. -/
def Reads (result : Except Fault (Reading α input)) (value : α) (rest : List Char) : Prop :=
  ∃ r, result = .ok r ∧ r.value = value ∧ r.rest = rest

theorem reads_ok (r : Reading α input) : Reads (.ok r) r.value r.rest :=
  ⟨r, rfl, rfl, rfl⟩

theorem Reads.map {result : Except Fault (Reading α input)} (h : Reads result value rest)
    (f : α → β) : Reads (result.map (·.map f)) (f value) rest := by
  obtain ⟨r, rfl, rfl, rfl⟩ := h
  exact reads_ok (r.map f)

theorem Reads.cons {result : Except Fault (Reading α input)} (h : Reads result value rest)
    (c : Char) : Reads (result.map (·.cons c)) value rest := by
  obtain ⟨r, rfl, rfl, rfl⟩ := h
  exact reads_ok (r.cons c)

/-- A reading that goes on after another one. -/
theorem Reads.bind {input' : List Char} {first : Except Fault (Reading α input)} {b : β}
    {r : List Char} {next : Reading α input → Except Fault (Reading β input')}
    (h : Reads first value r)
    (hnext : ∀ x : Reading α input, x.value = value → x.rest = r → Reads (next x) b rest) :
    Reads (first >>= next) b rest := by
  obtain ⟨x, rfl, hvalue, hrest⟩ := h
  exact hnext x hvalue hrest

/-! ### Characters of a string -/

theorem reads_escape_of_short {c d : Char} (h : shortEscape? c = some d) (more : List Char) :
    Reads (escape (c :: more)) d more := by
  rw [escape, h]
  exact reads_ok _

theorem controlDigits_eq {n : Nat} (h : n < 32) :
    controlDigits n = [Nat.digitChar (n / 16), Nat.digitChar (n % 16)] := by
  rw [controlDigits, Nat.toDigits_of_lt_base (Nat.mod_lt n (by decide))]
  split
  · next hn => rw [Nat.div_eq_of_lt hn]; rfl
  · next hn =>
    have hone : n / 16 = 1 := by omega
    rw [hone]
    rfl

/-- The escape of a control is the number of the control. -/
theorem hexValue4?_digitChar {n : Nat} (h : n < 32) :
    hexValue4? '0' '0' (Nat.digitChar (n / 16)) (Nat.digitChar (n % 16)) = some n := by
  have hdigit : ∀ m < 16, hexValue? (Nat.digitChar m) = some m := by decide
  rw [hexValue4?, hdigit (n / 16) (by omega), hdigit (n % 16) (by omega)]
  show some (0 + n / 16 * 16 + n % 16) = some n
  rw [Nat.zero_add, Nat.div_add_mod']

theorem reads_escape_of_control {c : Char} (h : c.toNat < 32) (more : List Char) :
    Reads (escape ('u' :: '0' :: '0' :: (controlDigits c.toNat ++ more))) c more := by
  have hhex : Reads (hex4 ('0' :: '0' :: (controlDigits c.toNat ++ more))) c.toNat more := by
    rw [controlDigits_eq h, List.cons_append, List.singleton_append, hex4, hexValue4?_digitChar h]
    exact reads_ok _
  have hchar : Reads (unicodeEscape ('0' :: '0' :: (controlDigits c.toNat ++ more))) c more := by
    refine hhex.bind fun r hr hrest => ?_
    -- a control is no half of a surrogate pair
    have hlow : isLowSurrogate r.value = false := by
      rw [hr, isLowSurrogate, Bool.and_eq_false_iff]
      exact .inl (decide_eq_false (by omega))
    have hhigh : isHighSurrogate r.value = false := by
      rw [hr, isHighSurrogate, Bool.and_eq_false_iff]
      exact .inl (decide_eq_false (by omega))
    rw [hlow, hhigh]
    exact ⟨_, rfl, by rw [Reading.map, hr, Char.ofNat_toNat], hrest⟩
  rw [escape]
  exact hchar.cons 'u'

/-- A character stands for itself, or what stands for it is read as an escape. -/
theorem escapeChar_cases (c : Char) :
    (escapeChar c = [c] ∧ c ≠ '"' ∧ c ≠ '\\' ∧ 32 ≤ c.toNat) ∨
      ∃ cs, escapeChar c = '\\' :: cs ∧ ∀ more, Reads (escape (cs ++ more)) c more := by
  unfold escapeChar
  by_cases h₁ : c = '"'
  · exact .inr ⟨['"'], if_pos h₁, reads_escape_of_short (by rw [h₁]; rfl)⟩
  rw [if_neg h₁]
  by_cases h₂ : c = '\\'
  · exact .inr ⟨['\\'], if_pos h₂, reads_escape_of_short (by rw [h₂]; rfl)⟩
  rw [if_neg h₂]
  by_cases h₃ : c = '\u0008'
  · exact .inr ⟨['b'], if_pos h₃, reads_escape_of_short (by rw [h₃]; rfl)⟩
  rw [if_neg h₃]
  by_cases h₄ : c = '\t'
  · exact .inr ⟨['t'], if_pos h₄, reads_escape_of_short (by rw [h₄]; rfl)⟩
  rw [if_neg h₄]
  by_cases h₅ : c = '\n'
  · exact .inr ⟨['n'], if_pos h₅, reads_escape_of_short (by rw [h₅]; rfl)⟩
  rw [if_neg h₅]
  by_cases h₆ : c = '\u000c'
  · exact .inr ⟨['f'], if_pos h₆, reads_escape_of_short (by rw [h₆]; rfl)⟩
  rw [if_neg h₆]
  by_cases h₇ : c = '\r'
  · exact .inr ⟨['r'], if_pos h₇, reads_escape_of_short (by rw [h₇]; rfl)⟩
  rw [if_neg h₇]
  by_cases h₈ : c.toNat < 32
  · exact .inr ⟨_, if_pos h₈, reads_escape_of_control h₈⟩
  · exact .inl ⟨if_neg h₈, h₁, h₂, Nat.le_of_not_lt h₈⟩

/-! ### Strings -/

theorem reads_stringBody_append (c : Char) {cs : List Char} (h : Reads (stringBody more) cs rest) :
    Reads (stringBody (escapeChar c ++ more)) (c :: cs) rest := by
  rcases escapeChar_cases c with ⟨hself, hquote, hslash, hcontrol⟩ | ⟨e, he, hread⟩
  · rw [hself, List.singleton_append, stringBody, if_neg hquote, if_neg hslash,
      if_neg (by omega)]
    obtain ⟨s, hs, hvalue, hrest⟩ := h
    rw [hs]
    exact ⟨_, rfl, congrArg (c :: ·) hvalue, hrest⟩
  · rw [he, List.cons_append, stringBody, if_neg (by decide), if_pos rfl]
    obtain ⟨r, hr, hvalue, hrest⟩ := hread more
    rw [hr]
    rw [← hrest] at h
    obtain ⟨s, hs, hvalue', hrest'⟩ := h
    show Reads (Except.map _ (stringBody r.rest)) _ _
    rw [hs]
    exact ⟨_, rfl, congrArg₂ _ hvalue hvalue', hrest'⟩

/-- **A string is read again, character by character.** -/
theorem reads_stringBody (cs rest : List Char) :
    Reads (stringBody (cs.flatMap escapeChar ++ '"' :: rest)) cs rest := by
  induction cs with
  | nil =>
    rw [List.flatMap_nil, List.nil_append, stringBody, if_pos rfl]
    exact reads_ok _
  | cons c cs ih =>
    rw [List.flatMap_cons, List.append_assoc]
    exact reads_stringBody_append c ih

/-! ### Numbers -/

/-- A value ends before this text: nothing follows, or a gap, or the comma before the next value. -/
def EndsValue (rest : List Char) : Prop :=
  ∀ c ∈ rest.head?, isGap c = true ∨ c = ','

theorem endsValue_nil : EndsValue [] := nofun

theorem endsValue_comma (rest : List Char) : EndsValue (',' :: rest) := by
  rintro c ⟨⟩
  exact .inr rfl

theorem endsValue_newLine (depth : Nat) (rest : List Char) :
    EndsValue (newLine depth ++ rest) := by
  rintro c ⟨⟩
  exact .inl rfl

theorem EndsValue.of_head? {c : Char} (h : EndsValue rest) (hc : c ∈ rest.head?) :
    c = ' ' ∨ c = '\t' ∨ c = '\n' ∨ c = '\r' ∨ c = ',' := by
  simpa only [isGap, Bool.or_eq_true, decide_eq_true_eq, or_assoc] using h c hc

theorem EndsValue.endsDigits (h : EndsValue rest) : EndsDigits rest := by
  intro c hc
  rcases h.of_head? hc with rfl | rfl | rfl | rfl | rfl <;> rfl

theorem fractionPart_of_endsValue (h : EndsValue rest) : fractionPart rest = .ok none := by
  unfold fractionPart
  split
  · have := h.of_head? rfl
    simp at this
  · rfl

theorem exponentPart_of_endsValue (h : EndsValue rest) : exponentPart rest = .ok none := by
  unfold exponentPart
  split
  · rw [if_neg]
    rintro (rfl | rfl)
    · simpa using h.of_head? rfl
    · simpa using h.of_head? rfl
  · rfl

theorem reads_wholeDigits (n : Nat) (h : EndsDigits rest) :
    Reads (wholeDigits (Nat.toDigits 10 n ++ rest)) (Nat.toDigits 10 n) rest := by
  have htake := takeWhile_isDigit_append (isDigit_of_mem_toDigits (n := n)) h
  have hdigits : Reads (digits1 (Nat.toDigits 10 n ++ rest)) (Nat.toDigits 10 n) rest := by
    rw [digits1, dif_pos (by rw [htake]; exact Nat.length_toDigits_pos)]
    exact ⟨_, rfl, htake, by simp only [htake, List.drop_left]⟩
  refine hdigits.bind fun r hr hrest => ?_
  -- a zero in front stands alone
  have hzero : ¬ (r.value.head? = some '0' ∧ r.value.length ≠ 1) := by
    rw [hr]
    rcases Nat.eq_zero_or_pos n with rfl | hn
    · simp
    · exact fun h => head?_toDigits_ne_zero hn h.1
  rw [if_neg hzero]
  exact ⟨r, rfl, hr, hrest⟩

theorem reads_unsigned (negative : Bool) (n : Nat) (h : EndsValue rest) :
    Reads (unsigned negative (Nat.toDigits 10 n ++ rest))
      ⟨negative, Nat.toDigits 10 n, none, none⟩ rest := by
  refine (reads_wholeDigits n h.endsDigits).bind fun r hr hrest => ?_
  rw [← hrest] at h
  rw [fractionPart_of_endsValue h]
  change Reads (exponentPart r.rest >>= _) _ _
  rw [exponentPart_of_endsValue h]
  exact ⟨_, rfl, by rw [Reading.map, hr], hrest⟩

/-- Without a sign in front, all of a number is read as it stands. -/
theorem numeral_of_head? (h : input.head? ≠ some '-') : numeral input = unsigned false input := by
  unfold numeral
  split
  · exact absurd rfl h
  · rfl

/-- An integer starts with its sign or with a digit. -/
theorem exists_integer_eq_cons (n : Int) :
    ∃ c cs, integer n = c :: cs ∧ (c = '-' ∨ c.isDigit = true) := by
  obtain ⟨c, cs, h, hc⟩ := exists_toDigits_eq_cons n.natAbs
  rw [integer, h]
  split
  · exact ⟨'-', _, rfl, .inl rfl⟩
  · exact ⟨c, cs, rfl, .inr hc⟩

/-- **An integer is read again**, as the digits that were written, if they fit 64 bits. -/
theorem reads_number_integer {n : Int} (hn : n.natAbs < UInt64.size) (h : EndsValue rest) :
    Reads (number (integer n ++ rest)) ⟨decide (n < 0), Nat.toDigits 10 n.natAbs, none, none⟩
      rest := by
  have hnumeral : Reads (numeral (integer n ++ rest))
      ⟨decide (n < 0), Nat.toDigits 10 n.natAbs, none, none⟩ rest := by
    have hunsigned := reads_unsigned (decide (n < 0)) n.natAbs h
    by_cases hneg : n < 0
    · rw [integer, if_pos hneg]
      rw [decide_eq_true hneg] at hunsigned ⊢
      exact hunsigned.cons '-'
    · rw [integer, if_neg hneg, List.nil_append, numeral_of_head?]
      · rw [decide_eq_false hneg] at hunsigned ⊢
        exact hunsigned
      · obtain ⟨c, cs, hcons, hc⟩ := exists_toDigits_eq_cons n.natAbs
        rw [hcons]
        rintro ⟨⟩
        cases hc
  refine hnumeral.bind fun r hr hrest => ?_
  have hrange : r.value.overflowsInSteps = false := by
    rw [hr]
    exact overflowsInSteps_whole _ (by rwa [decimalValue_toDigits])
  rw [hrange]
  exact ⟨r, rfl, hr, hrest⟩

/-- The digits of an integer stand for it; zero has no sign. -/
theorem toInt?_integer (n : Int) :
    Numeral.toInt? ⟨decide (n < 0), Nat.toDigits 10 n.natAbs, none, none⟩ = some n := by
  simp only [Numeral.toInt?, decimalValue_toDigits, decide_eq_true_eq]
  split
  · rw [if_neg (by omega)]
    congr 1
    omega
  · congr 1
    omega

end Agenda.Json

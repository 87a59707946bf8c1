/-
Agenda/Proofs/Toml/Text.lean

Texts in TOML documents are read again, whichever of the forms they are written
in:

    text? (writeText s ++ '\n' :: rest)   =   some (s.toList, '\n' :: rest)

(`text?_writeText`).  A character stands for itself or is escaped
(`writeChar_cases`), and what is escaped is read as an escape.

In several lines, quotes may stand for themselves, and the quotes at the end of
a text run together with the three that close it.  Wherever the reader is, the
quotes ahead of it either belong to the end, and are at most two more than
three, or they are too few for an end (`closing?_writeBasic`,
`closing?_of_longestRun`).
-/
import Agenda.Toml.Text
import Agenda.Toml.Writer
import Mathlib.Data.List.TakeWhile
import Mathlib.Tactic.Common

namespace Agenda.Toml

open Text Json

variable {c quote : Char} {cs letters more rest : List Char}

/-! ### Escapes -/

/-- The reading succeeds with this value and leaves this rest. -/
def Finds {α : Type} {input : List Char} (result : Option (Reading α input)) (value : α)
    (rest : List Char) : Prop :=
  ∃ r, result = some r ∧ r.value = value ∧ r.rest = rest

theorem finds_of? {α : Type} {input : List Char} (value : α) (h : rest.length < input.length) :
    Finds (Reading.of? value rest : Option (Reading α input)) value rest :=
  ⟨⟨value, rest, h⟩, dif_pos h, rfl, rfl⟩

/-- The letters, after a backslash, stand for the character, whatever follows them. -/
def Escapes (letters : List Char) (c : Char) : Prop :=
  ∀ more, Finds (escape? (letters ++ more)) c more

/-- The number of a control in four digits. -/
theorem fourDigits_spec : ∀ n < 128, (fourDigits n).length = 4 ∧
    hexNumber? (fourDigits n) = some n := by
  decide +kernel

theorem escapes_fourDigits (h : c.toNat < 128) : Escapes ('u' :: fourDigits c.toNat) c := by
  intro more
  obtain ⟨hlength, hnumber⟩ := fourDigits_spec c.toNat h
  have hnumbered : escape?.numbered 4 (fourDigits c.toNat ++ more) = some c := by
    rw [escape?.numbered, ← hlength, List.take_left, if_pos rfl, hnumber]
    show charOf? c.toNat = some c
    rw [charOf?, if_pos (show c.toNat.isValidChar from c.valid), Char.ofNat_toNat]
  have hdrop : (fourDigits c.toNat ++ more).drop 4 = more := by
    rw [← hlength, List.drop_left]
  rw [List.cons_append, escape?, hnumbered, hdrop]
  refine finds_of? c ?_
  simp only [List.length_cons, List.length_append]
  omega

/-- After a backslash, an escape is not the end of a line. -/
theorem breaksLine_of_escape? {input : List Char} {r : Reading Char input}
    (h : escape? input = some r) : breaksLine input = false := by
  unfold escape? at h
  split at h
  all_goals first | rfl | cases h

/-- A letter that stands for a character. -/
theorem escapes_letter {letter : Char} (h : ∀ more, escape? (letter :: more) = Reading.of? c more) :
    Escapes [letter] c := by
  intro more
  rw [List.singleton_append, h more]
  exact finds_of? c (Nat.lt_succ_self _)

/-- **A character stands for itself, or for it stands an escape.** -/
theorem writeChar_cases (lines : Bool) (c : Char) :
    (writeChar lines c = [c] ∧ c ≠ '\\' ∧ (isPlain c = true ∨ lines = true ∧ c = '\n')) ∨
      ∃ letters, writeChar lines c = '\\' :: letters ∧ Escapes letters c := by
  unfold writeChar
  -- the letters that are written, in the order of the tests
  by_cases h₁ : c = '\u0008'
  · exact .inr ⟨['b'], if_pos h₁, escapes_letter fun more => by rw [h₁]; rfl⟩
  rw [if_neg h₁]
  by_cases h₂ : c = '\t'
  · exact .inr ⟨['t'], if_pos h₂, escapes_letter fun more => by rw [h₂]; rfl⟩
  rw [if_neg h₂]
  by_cases h₃ : c = '\n'
  · rw [if_pos h₃]
    cases lines with
    | true => exact .inl ⟨by rw [h₃]; rfl, by rw [h₃]; decide, .inr ⟨rfl, h₃⟩⟩
    | false => exact .inr ⟨['n'], rfl, escapes_letter fun more => by rw [h₃]; rfl⟩
  rw [if_neg h₃]
  by_cases h₄ : c = '\u000c'
  · exact .inr ⟨['f'], if_pos h₄, escapes_letter fun more => by rw [h₄]; rfl⟩
  rw [if_neg h₄]
  by_cases h₅ : c = '\r'
  · exact .inr ⟨['r'], if_pos h₅, escapes_letter fun more => by rw [h₅]; rfl⟩
  rw [if_neg h₅]
  by_cases h₆ : c = '\\'
  · exact .inr ⟨['\\'], if_pos h₆, escapes_letter fun more => by rw [h₆]; rfl⟩
  rw [if_neg h₆]
  by_cases h₇ : c.toNat < 32 ∨ c.toNat = 127
  · exact .inr ⟨_, if_pos h₇, escapes_fourDigits (by omega)⟩
  · rw [if_neg h₇]
    rw [not_or] at h₇
    exact .inl ⟨rfl, h₆, .inl (by simp [isPlain, h₇.2, Nat.le_of_not_lt h₇.1])⟩

/-! ### One line -/

theorem basicBody_escape (h : Escapes letters c) (hmore : basicBody more = some (cs, rest)) :
    basicBody ('\\' :: (letters ++ more)) = some (c :: cs, rest) := by
  obtain ⟨r, hr, hvalue, hrest⟩ := h more
  rw [basicBody, if_neg (by decide), if_pos rfl, hr]
  show (basicBody r.rest >>= fun found => some (r.value :: found.1, found.2)) = _
  rw [hrest, hmore, hvalue]
  rfl

/-- **A basic text is read again.** -/
theorem basicBody_writeBasic (cs rest : List Char) :
    basicBody (writeBasic false 0 cs ++ '"' :: rest) = some (cs, rest) := by
  induction cs with
  | nil => rw [writeBasic, List.nil_append, basicBody, if_pos rfl]
  | cons c cs ih =>
    rw [writeBasic]
    by_cases hquote : c = '"'
    · rw [if_pos hquote, if_neg (by simp)]
      have hescapes : Escapes ['"'] c := escapes_letter fun more => by rw [hquote]; rfl
      have hread := basicBody_escape hescapes ih
      exact hread
    · rw [if_neg hquote, List.append_assoc]
      rcases writeChar_cases false c with ⟨hself, hslash, hplain⟩ | ⟨letters, hwrite, hescapes⟩
      · have hplain : isPlain c = true := by simpa using hplain
        rw [hself, List.singleton_append, basicBody, if_neg hquote, if_neg hslash, if_pos hplain,
          ih]
        rfl
      · rw [hwrite, List.cons_append]
        exact basicBody_escape hescapes ih

/-- A literal text is read as it stands. -/
theorem literalBody_append (h : ∀ c ∈ cs, isPlain c = true ∧ c ≠ '\'') (rest : List Char) :
    literalBody (cs ++ '\'' :: rest) = some (cs, rest) := by
  induction cs with
  | nil => rw [List.nil_append, literalBody, if_pos rfl]
  | cons c cs ih =>
    obtain ⟨⟨hplain, hquote⟩, hcs⟩ := List.forall_mem_cons.mp h
    rw [List.cons_append, literalBody, if_neg hquote, if_pos hplain, ih hcs]
    rfl

/-! ### Quotes in several lines -/

/-- Three quotes end a text, and up to two before them belong to it. -/
theorem closing?_replicate {n : Nat} (hn : n ≤ 2) (h : rest.head? ≠ some quote) :
    closing? quote (List.replicate n quote ++ quote :: quote :: quote :: rest) =
      some (List.replicate n quote, rest) := by
  have hrun : (List.replicate n quote ++ quote :: quote :: quote :: rest).takeWhile (· = quote) =
      List.replicate n quote ++ [quote, quote, quote] := by
    rw [List.takeWhile_append_of_pos (by simp)]
    simp only [List.takeWhile_cons, decide_true, if_true, List.append_cancel_left_eq]
    cases rest with
    | nil => rfl
    | cons c rest => simp [show c ≠ quote from fun hc => h (congrArg some hc)]
  rw [closing?, hrun]
  match n, hn with
  | 0, _ => rfl
  | 1, _ => rfl
  | 2, _ => rfl

/-- Up to two quotes do not end a text. -/
theorem closing?_eq_none {input : List Char}
    (h : (input.takeWhile (· = quote)).length ≤ 2) : closing? quote input = none := by
  rw [closing?]
  match (input.takeWhile (· = quote)).length, h with
  | 0, _ => rfl
  | 1, _ => rfl
  | 2, _ => rfl

theorem closing?_cons_of_ne (h : c ≠ quote) (cs : List Char) : closing? quote (c :: cs) = none := by
  apply closing?_eq_none
  rw [List.takeWhile_cons_of_neg (by simpa using h)]
  exact Nat.zero_le 2

/-- **The quotes ahead, where some stand just before**: they go on to the end, or they are too few
for one. -/
theorem closing?_writeBasic {quotes : Nat} (hquotes : quotes ≤ 2) (cs : List Char)
    (h : rest.head? ≠ some '"') :
    closing? '"' (writeBasic true quotes cs ++ '"' :: '"' :: '"' :: rest) = some (cs, rest) ∨
      closing? '"' (writeBasic true quotes cs ++ '"' :: '"' :: '"' :: rest) = none ∧ cs ≠ [] := by
  -- what is written consists of quotes only, or has few of them at its start
  have hrun : ∀ quotes ≤ 2,
      (∃ n ≤ 2 - quotes, cs = List.replicate n '"' ∧
          writeBasic true quotes cs = List.replicate n '"') ∨
        ((writeBasic true quotes cs ++ '"' :: '"' :: '"' :: rest).takeWhile (· = '"')).length ≤
          2 - quotes ∧ cs ≠ [] := by
    induction cs with
    | nil => exact fun quotes _ => .inl ⟨0, Nat.zero_le _, rfl, rfl⟩
    | cons c cs ih =>
      intro quotes hquotes
      rw [writeBasic]
      by_cases hquote : c = '"'
      · subst hquote
        rw [if_pos rfl]
        by_cases hfew : quotes < 2
        · rw [if_pos ⟨rfl, hfew⟩]
          rcases ih (quotes + 1) hfew with ⟨n, hn, hcs, hwrite⟩ | ⟨hlength, -⟩
          · refine .inl ⟨n + 1, by omega, ?_, ?_⟩
            · rw [hcs, List.replicate_succ]
            · rw [hwrite, List.replicate_succ]
          · refine .inr ⟨?_, List.cons_ne_nil _ _⟩
            rw [List.cons_append, List.takeWhile_cons_of_pos (by simp), List.length_cons]
            omega
        · rw [if_neg fun h => hfew h.2]
          exact .inr ⟨by simp, List.cons_ne_nil _ _⟩
      · rw [if_neg hquote]
        refine .inr ⟨?_, List.cons_ne_nil _ _⟩
        rcases writeChar_cases true c with ⟨hself, -, -⟩ | ⟨letters, hwrite, -⟩
        · rw [hself]
          simp [hquote]
        · rw [hwrite]
          simp
  rcases hrun quotes hquotes with ⟨n, hn, rfl, hwrite⟩ | ⟨hlength, hne⟩
  · rw [hwrite]
    exact .inl (closing?_replicate (by omega) h)
  · exact .inr ⟨closing?_eq_none (by omega), hne⟩

theorem longestRun_mono {m n : Nat} (h : m ≤ n) (cs : List Char) :
    longestRun quote m cs ≤ longestRun quote n cs := by
  induction cs generalizing m n with
  | nil => exact h
  | cons c cs ih =>
    rw [longestRun, longestRun]
    split
    · exact ih (Nat.succ_le_succ h)
    · omega

theorem longestRun_le_cons (quote c : Char) (cs : List Char) :
    longestRun quote 0 cs ≤ longestRun quote 0 (c :: cs) := by
  rw [longestRun]
  split
  · exact longestRun_mono (Nat.zero_le 1) cs
  · exact Nat.le_max_right _ _

/-- The run at the start is not longer than the longest one. -/
theorem add_length_takeWhile_le (quote : Char) (n : Nat) (cs : List Char) :
    n + (cs.takeWhile (· = quote)).length ≤ longestRun quote n cs := by
  induction cs generalizing n with
  | nil => exact le_refl _
  | cons c cs ih =>
    rw [longestRun]
    by_cases hquote : c = quote
    · rw [if_pos hquote, List.takeWhile_cons_of_pos (by simpa using hquote), List.length_cons,
        Nat.add_comm _ 1, ← Nat.add_assoc]
      exact ih (n + 1)
    · rw [if_neg hquote, List.takeWhile_cons_of_neg (by simpa using hquote)]
      exact Nat.le_max_left _ _

/-- A text that is free of a character has no run of it. -/
theorem not_mem_of_longestRun_eq_zero (h : longestRun quote 0 cs = 0) : quote ∉ cs := by
  induction cs with
  | nil => exact List.not_mem_nil
  | cons c cs ih =>
    have htail := longestRun_le_cons quote c cs
    have hhead := add_length_takeWhile_le quote 0 (c :: cs)
    rw [List.mem_cons, not_or]
    refine ⟨?_, ih (by omega)⟩
    rintro rfl
    rw [List.takeWhile_cons_of_pos (by simp), List.length_cons] at hhead
    omega

/-- **The quotes ahead in a text without long runs**: they go on to the end, or they are too few for
one. -/
theorem closing?_of_longestRun (hcs : longestRun quote 0 cs ≤ 2) (h : rest.head? ≠ some quote) :
    closing? quote (cs ++ quote :: quote :: quote :: rest) = some (cs, rest) ∨
      closing? quote (cs ++ quote :: quote :: quote :: rest) = none ∧ cs ≠ [] := by
  have hrun := add_length_takeWhile_le quote 0 cs
  by_cases hall : (cs.takeWhile (· = quote)).length = cs.length
  · have hcs' : cs = List.replicate cs.length quote := by
      refine List.eq_replicate_iff.mpr ⟨rfl, fun c hc => ?_⟩
      rw [← (List.takeWhile_prefix _).eq_of_length hall] at hc
      simpa using List.mem_takeWhile_imp hc
    rw [hcs']
    exact .inl (closing?_replicate (by omega) h)
  · refine .inr ⟨closing?_eq_none ?_, ?_⟩
    · rw [List.takeWhile_append, if_neg hall]
      omega
    · rintro rfl
      exact hall rfl

/-! ### Several lines -/

theorem basicLines_escape (h : Escapes letters c)
    (hmore : basicLines false more = some (cs, rest)) :
    basicLines false ('\\' :: (letters ++ more)) = some (c :: cs, rest) := by
  obtain ⟨r, hr, hvalue, hrest⟩ := h more
  rw [basicLines, closing?_cons_of_ne (by decide)]
  · show (if '\\' = '\n' ∨ isSpace '\\' = true then _ else _) = _
    rw [if_neg (by decide), if_pos rfl, breaksLine_of_escape? hr, if_neg (by decide), hr]
    show (basicLines false r.rest >>= fun found => some (r.value :: found.1, found.2)) = _
    rw [hrest, hmore, hvalue]
    rfl
  · rintro _ ⟨⟩

/-- Line ends and what may stand for itself. -/
theorem basicLines_cons (hclosing : closing? '"' (c :: more) = none) (hslash : c ≠ '\\')
    (hplain : isPlain c = true ∨ c = '\n') (hmore : basicLines false more = some (cs, rest)) :
    basicLines false (c :: more) = some (c :: cs, rest) := by
  rw [basicLines, hclosing]
  · show (if c = '\n' ∨ isSpace c = true then _ else _) = _
    split
    · rw [hmore]
      rfl
    · next hspace =>
      have hplain : isPlain c = true := hplain.resolve_right fun h => hspace (.inl h)
      rw [if_pos hplain, hmore]
      rfl
  · rintro _ ⟨⟩
    simp [isPlain] at hplain

/-- **A basic text of several lines is read again.** -/
theorem basicLines_writeBasic {quotes : Nat} (hquotes : quotes ≤ 2) (cs : List Char)
    (h : rest.head? ≠ some '"') :
    basicLines false (writeBasic true quotes cs ++ '"' :: '"' :: '"' :: rest) =
      some (cs, rest) := by
  induction cs generalizing quotes with
  | nil =>
    rcases closing?_writeBasic hquotes [] h with hclosing | ⟨-, hne⟩
    · rw [basicLines.eq_def, hclosing]
    · exact absurd rfl hne
  | cons c cs ih =>
    rcases closing?_writeBasic hquotes (c :: cs) h with hclosing | ⟨hclosing, -⟩
    · rw [basicLines.eq_def, hclosing]
    · rw [writeBasic] at hclosing ⊢
      by_cases hquote : c = '"'
      · rw [if_pos hquote] at hclosing ⊢
        -- a third quote in a row would end the text, and it is escaped
        by_cases hfew : quotes < 2
        · rw [if_pos ⟨rfl, hfew⟩] at hclosing ⊢
          rw [hquote]
          exact basicLines_cons hclosing (by decide) (.inl rfl) (ih hfew)
        · rw [if_neg fun h => hfew h.2]
          have hescapes : Escapes ['"'] c := escapes_letter fun more => by rw [hquote]; rfl
          have hread := basicLines_escape hescapes (ih (Nat.zero_le 2))
          exact hread
      · rw [if_neg hquote, List.append_assoc] at hclosing ⊢
        rcases writeChar_cases true c with ⟨hself, hslash, hplain⟩ | ⟨letters, hwrite, hescapes⟩
        · rw [hself] at hclosing ⊢
          exact basicLines_cons hclosing hslash (hplain.imp_right And.right) (ih (Nat.zero_le 2))
        · rw [hwrite, List.cons_append]
          exact basicLines_escape hescapes (ih (Nat.zero_le 2))

/-- **A literal text of several lines is read as it stands.** -/
theorem literalLines_append (hplain : ∀ c ∈ cs, isPlain c = true ∨ c = '\n')
    (hrun : longestRun '\'' 0 cs ≤ 2) (h : rest.head? ≠ some '\'') :
    literalLines (cs ++ '\'' :: '\'' :: '\'' :: rest) = some (cs, rest) := by
  induction cs with
  | nil =>
    rcases closing?_of_longestRun hrun h with hclosing | ⟨-, hne⟩
    · rw [literalLines.eq_def, hclosing]
    · exact absurd rfl hne
  | cons c cs ih =>
    rcases closing?_of_longestRun hrun h with hclosing | ⟨hclosing, -⟩
    · rw [literalLines.eq_def, hclosing]
    · obtain ⟨hc, hcs⟩ := List.forall_mem_cons.mp hplain
      have hrest := ih hcs ((longestRun_le_cons '\'' c cs).trans hrun)
      rw [List.cons_append] at hclosing ⊢
      rw [literalLines, hclosing]
      · show (if c = '\n' ∨ isPlain c = true then _ else _) = _
        rw [if_pos hc.symm, hrest]
        rfl
      · rintro _ ⟨⟩
        simp [isPlain] at hc

/-! ### Texts -/

theorem isPlain_of_isControl (h : isControl c = false) : isPlain c = true ∨ c = '\n' := by
  by_cases htab : c = '\t'
  · exact .inl (by rw [htab]; rfl)
  by_cases hline : c = '\n'
  · exact .inr hline
  refine .inl ?_
  simp only [isControl, bne_iff_ne.mpr htab, bne_iff_ne.mpr hline, Bool.true_and,
    Bool.or_eq_false_iff, decide_eq_false_iff_not, not_lt] at h
  simp [isPlain, h]

/-- What is written for a text starts with its first character or with a backslash. -/
theorem exists_writeBasic_eq_cons (lines : Bool) (quotes : Nat) (c : Char) (cs : List Char) :
    ∃ d ds, writeBasic lines quotes (c :: cs) = d :: ds ∧
      (d = '\\' ∨ d = c ∧ (isPlain c = true ∨ c = '\n') ∧ (c = '"' → lines = true)) := by
  rw [writeBasic]
  by_cases hquote : c = '"'
  · rw [if_pos hquote]
    split
    · next h => exact ⟨_, _, rfl, .inr ⟨hquote.symm, .inl (by rw [hquote]; rfl), fun _ => h.1⟩⟩
    · exact ⟨_, _, rfl, .inl rfl⟩
  · rw [if_neg hquote]
    rcases writeChar_cases lines c with ⟨hself, -, hplain⟩ | ⟨letters, hwrite, -⟩
    · rw [hself]
      exact ⟨_, _, rfl, .inr ⟨rfl, hplain.imp_right And.right, fun h => absurd h hquote⟩⟩
    · rw [hwrite]
      exact ⟨_, _, rfl, .inl rfl⟩

theorem text?_basic (cs rest : List Char) :
    text? ('"' :: (writeBasic false 0 cs ++ '"' :: '\n' :: rest)) = some (cs, '\n' :: rest) := by
  cases cs with
  | nil => exact basicBody_writeBasic [] ('\n' :: rest)
  | cons c cs =>
    -- a quote would be escaped, so there are no three quotes in front
    have hbody := basicBody_writeBasic (c :: cs) ('\n' :: rest)
    obtain ⟨d, ds, hwrite, hd⟩ := exists_writeBasic_eq_cons false 0 c cs
    rw [hwrite] at hbody ⊢
    unfold text?
    split
    · next h =>
      obtain rfl : d = '"' := (List.cons.inj (List.cons.inj h).2).1
      rcases hd with hd | ⟨hd, -, hlines⟩
      · cases hd
      · cases hlines hd.symm
    · next h => cases h
    · exact hbody

theorem text?_literal (hcs : cs ≠ []) (h : ∀ c ∈ cs, isPlain c = true ∧ c ≠ '\'')
    (rest : List Char) : text? ('\'' :: (cs ++ '\'' :: rest)) = some (cs, rest) := by
  have hbody := literalBody_append h rest
  cases cs with
  | nil => exact absurd rfl hcs
  | cons c cs =>
    unfold text?
    split
    · next heq => cases heq
    · next heq => exact absurd (List.cons.inj (List.cons.inj heq).2).1 (h c List.mem_cons_self).2
    · exact hbody

/-- The line end after the opening quotes is no part of the text. -/
theorem dropLineEnd_opening {broken : Bool} {input : List Char}
    (h : broken = false → lineEnd? input = none) :
    dropLineEnd ((if broken then ['\n'] else []) ++ input) = input := by
  cases broken with
  | true => rfl
  | false =>
    show (lineEnd? input).getD input = input
    rw [h rfl]
    rfl

theorem lineEnd?_cons (hplain : isPlain c = true) (cs : List Char) : lineEnd? (c :: cs) = none := by
  unfold lineEnd?
  split
  · next h =>
    obtain ⟨rfl, -⟩ := List.cons.inj h
    cases hplain
  · next h =>
    obtain ⟨rfl, -⟩ := List.cons.inj h
    cases hplain
  · rfl

theorem text?_basicLines (cs rest : List Char) :
    text? (['"', '"', '"'] ++ (if cs.contains '\n' then ['\n'] else []) ++ writeBasic true 0 cs ++
      '"' :: '"' :: '"' :: '\n' :: rest) = some (cs, '\n' :: rest) := by
  have hrest : ('\n' :: rest).head? ≠ some '"' := by simp
  have hbody := basicLines_writeBasic (Nat.zero_le 2) cs hrest
  simp only [List.append_assoc, List.cons_append, List.nil_append, text?]
  rw [dropLineEnd_opening, hbody]
  intro hbroken
  cases cs with
  | nil => rfl
  | cons c cs =>
    obtain ⟨d, ds, hwrite, hd⟩ := exists_writeBasic_eq_cons true 0 c cs
    rw [hwrite]
    refine lineEnd?_cons ?_ _
    rcases hd with rfl | ⟨rfl, hplain, -⟩
    · rfl
    · exact hplain.resolve_right fun h => by simp [h] at hbroken

theorem text?_literalLines (hplain : ∀ c ∈ cs, isPlain c = true ∨ c = '\n')
    (hrun : longestRun '\'' 0 cs ≤ 2) (rest : List Char) :
    text? (['\'', '\'', '\''] ++ (if cs.contains '\n' then ['\n'] else []) ++ cs ++
      '\'' :: '\'' :: '\'' :: '\n' :: rest) = some (cs, '\n' :: rest) := by
  have hrest : ('\n' :: rest).head? ≠ some '\'' := by simp
  have hbody := literalLines_append hplain hrun hrest
  simp only [List.append_assoc, List.cons_append, List.nil_append, text?]
  rw [dropLineEnd_opening, hbody]
  intro hbroken
  cases cs with
  | nil => rfl
  | cons c cs =>
    refine lineEnd?_cons ?_ _
    exact (hplain c List.mem_cons_self).resolve_right fun h => by simp [h] at hbroken

/-- **Every text is read again**, in whichever form it is written. -/
theorem text?_writeText (s : String) (rest : List Char) :
    text? (writeText s ++ '\n' :: rest) = some (s.toList, '\n' :: rest) := by
  have hbasic := text?_basic s.toList rest
  have hlines := text?_basicLines s.toList rest
  have hplain : (!s.toList.any isControl) = true →
      ∀ c ∈ s.toList, isPlain c = true ∨ c = '\n' := by
    intro h c hc
    rw [Bool.not_eq_true', List.any_eq_false] at h
    exact isPlain_of_isControl (Bool.eq_false_iff.mpr (h c hc))
  -- one case for each form, in the order in which the forms are tried
  simp only [writeText]
  split
  · simpa using hbasic
  · next hfirst =>
    split
    · next h =>
      simp only [Bool.and_eq_true, decide_eq_true_eq] at h
      obtain ⟨⟨hcontrol, hsingles⟩, hbroken⟩ := h
      have hne : s.toList ≠ [] := by
        intro hnil
        rw [hnil] at hfirst
        exact hfirst rfl
      have hread := text?_literal hne (fun c hc => ?_) ('\n' :: rest)
      · simpa using hread
      · refine ⟨(hplain hcontrol c hc).resolve_right ?_, ?_⟩
        · rintro rfl
          simp [hc] at hbroken
        · rintro rfl
          exact not_mem_of_longestRun_eq_zero hsingles hc
    · split
      · simpa using hlines
      · split
        · next h =>
          simp only [Bool.and_eq_true, decide_eq_true_eq] at h
          simpa using text?_literalLines (hplain h.1) h.2 rest
        · split
          · next hbroken =>
            rw [if_pos hbroken] at hlines
            simpa using hlines
          · simpa using hbasic

end Agenda.Toml

/-
Agenda/Proofs/Search/Matching.lean

The matchers against the grammar.  A matcher is a partial function of its
input, and `Yields` reads it as a relation of the same kind as the grammar's,
so that each matcher is characterised by one equivalence:

    XAt input tokens rest  ↔  Yields (x input) tokens rest

One direction says that a matcher finds nothing else, the other that it
misses nothing; together they make every relation single-valued
(`Yields.unique`).

The loop over alternatives, which does not quite find what the grammar says,
is left to `Agenda.Proofs.Search.Alternatives`.
-/
import Agenda.Proofs.Search.Grammar
import Agenda.Proofs.Text.Blank
import Mathlib.Data.List.TakeWhile

namespace Agenda.Search

open Text

/-! ### Matchers as relations -/

/-- The match exists, has these tokens and leaves this rest. -/
def Yields {input : List Char} (result : Option (Match input)) (tokens : List Token)
    (rest : List Char) : Prop :=
  ∃ m, result = some m ∧ m.tokens = tokens ∧ m.rest = rest

variable {input : List Char} {tokens : List Token} {rest : List Char}

theorem yields_some (m : Match input) : Yields (some m) m.tokens m.rest :=
  ⟨m, rfl, rfl, rfl⟩

@[simp] theorem not_yields_none : ¬ Yields (none : Option (Match input)) tokens rest := by
  rintro ⟨m, h, -⟩
  cases h

@[simp] theorem yields_some_iff {m : Match input} :
    Yields (some m) tokens rest ↔ m.tokens = tokens ∧ m.rest = rest := by
  constructor
  · rintro ⟨n, h, ht, hr⟩
    obtain rfl := Option.some.inj h
    exact ⟨ht, hr⟩
  · rintro ⟨rfl, rfl⟩
    exact yields_some m

theorem yields_iff_map {result : Option (Match input)} :
    Yields result tokens rest ↔ result.map (fun m => (m.tokens, m.rest)) = some (tokens, rest) := by
  rw [Option.map_eq_some_iff]
  simp only [Yields, Prod.mk.injEq]

instance {result : Option (Match input)} : Decidable (Yields result tokens rest) :=
  decidable_of_iff _ yields_iff_map.symm

theorem Yields.unique {result : Option (Match input)} {ts : List Token} {r : List Char}
    (h : Yields result tokens rest) (h' : Yields result ts r) : tokens = ts ∧ rest = r := by
  obtain ⟨m, rfl, rfl, rfl⟩ := h
  obtain ⟨rfl, rfl⟩ := yields_some_iff.mp h'
  exact ⟨rfl, rfl⟩

theorem Yields.length_lt {result : Option (Match input)} (h : Yields result tokens rest) :
    rest.length < input.length := by
  obtain ⟨m, -, -, rfl⟩ := h
  exact m.rest_lt

theorem eq_none_of_forall_not_yields {result : Option (Match input)}
    (h : ∀ ts r, ¬ Yields result ts r) : result = none := by
  cases result with
  | none => rfl
  | some m => exact absurd (yields_some m) (h _ _)

/-- The first of two matchers that matches. -/
theorem yields_or {first second : Option (Match input)} :
    Yields (first.or second) tokens rest ↔
      Yields first tokens rest ∨ first = none ∧ Yields second tokens rest := by
  cases first <;> simp

/-- Two matchers, the second where the first one stopped. -/
theorem yields_bind (next : (i : List Char) → Option (Match i)) {first : Option (Match input)} :
    Yields (first.bind fun m => (next m.rest).map m.append) tokens rest ↔
      ∃ ts r us, Yields first ts r ∧ Yields (next r) us rest ∧ tokens = ts ++ us := by
  constructor
  · rintro ⟨m, hm, rfl, rfl⟩
    obtain ⟨a, ha, hm⟩ := Option.bind_eq_some_iff.mp hm
    obtain ⟨b, hb, rfl⟩ := Option.map_eq_some_iff.mp hm
    exact ⟨a.tokens, a.rest, b.tokens, ⟨a, ha, rfl, rfl⟩, ⟨b, hb, rfl, rfl⟩, rfl⟩
  · rintro ⟨ts, r, us, ⟨a, rfl, rfl, rfl⟩, ⟨b, hb, rfl, rfl⟩, rfl⟩
    refine ⟨a.append b, ?_, rfl, rfl⟩
    rw [Option.bind_some, hb, Option.map_some]

/-! ### Runs and keywords -/

@[simp] theorem tokens_single (kind : TokenKind) (n : Nat) (hn : 0 < n) (h : n ≤ input.length) :
    (Match.single kind n input hn h).tokens = [Token.ofList kind (input.take n)] := rfl

@[simp] theorem rest_single (kind : TokenKind) (n : Nat) (hn : 0 < n) (h : n ≤ input.length) :
    (Match.single kind n input hn h).rest = input.drop n := rfl

theorem runAt_iff {p : Char → Bool} {kind : TokenKind} :
    RunAt p kind input tokens rest ↔ Yields (run p kind input) tokens rest := by
  constructor
  · rintro ⟨text, hne, hall, hstop, rfl, rfl⟩
    -- the longest run of `text ++ rest` is `text`, since `rest` does not go on with it
    have hrest : rest.takeWhile p = [] := by
      cases rest with
      | nil => rfl
      | cons c cs => rw [List.takeWhile_cons_of_neg (by simp [hstop c rfl])]
    have htext : (text ++ rest).takeWhile p = text := by
      rw [List.takeWhile_append_of_pos hall, hrest, List.append_nil]
    have hpos : 0 < ((text ++ rest).takeWhile p).length := by
      rw [htext]; exact List.length_pos_iff.mpr hne
    rw [run, dif_pos hpos, yields_some_iff, tokens_single, rest_single, htext, List.take_left,
      List.drop_left]
    exact ⟨rfl, rfl⟩
  · rintro ⟨m, hm, rfl, rfl⟩
    have hsplit := List.takeWhile_append_dropWhile (p := p) (l := input)
    have htake : input.take (input.takeWhile p).length = input.takeWhile p :=
      (List.prefix_iff_eq_take.mp (List.takeWhile_prefix p)).symm
    have hdrop : input.drop (input.takeWhile p).length = input.dropWhile p := by
      have hdrop := congrArg (List.drop (input.takeWhile p).length) hsplit
      rw [List.drop_left] at hdrop
      exact hdrop.symm
    rw [run] at hm
    split at hm
    · next hpos =>
      obtain rfl := Option.some.inj hm
      refine ⟨input.takeWhile p, List.length_pos_iff.mp hpos,
        fun c hc => List.mem_takeWhile_imp hc, ?_, ?_, ?_⟩
      · intro c hc
        have hstop := List.head?_dropWhile_not p input
        rw [rest_single, hdrop, Option.mem_def] at hc
        rw [hc] at hstop
        exact hstop
      · rw [rest_single, hdrop, hsplit]
      · rw [tokens_single, htake]
    · cases hm

theorem blanksAt_iff : BlanksAt input tokens rest ↔ Yields (blanks input) tokens rest :=
  runAt_iff

theorem wordAt_iff {kind : TokenKind} :
    WordAt kind input tokens rest ↔ Yields (term kind input) tokens rest :=
  runAt_iff

theorem length_eq_of_sameIgnoringAsciiCase {s t : List Char}
    (h : sameIgnoringAsciiCase s t = true) : s.length = t.length := by
  have := congrArg List.length (beq_iff_eq.mp h)
  simpa using this

theorem keywordAt_iff {word : List Char} (hw : word ≠ []) {kind : TokenKind} :
    KeywordAt word kind input tokens rest ↔ Yields (keyword word kind input) tokens rest := by
  have hpos : 0 < word.length := List.length_pos_iff.mpr hw
  constructor
  · rintro ⟨text, hsame, rfl, rfl⟩
    have hlen := length_eq_of_sameIgnoringAsciiCase hsame
    have htake : (text ++ rest).take word.length = text := List.take_left' hlen
    have hdrop : (text ++ rest).drop word.length = rest := List.drop_left' hlen
    have hmatch : 0 < word.length ∧ word.length ≤ (text ++ rest).length ∧
        sameIgnoringAsciiCase ((text ++ rest).take word.length) word = true :=
      ⟨hpos, by rw [List.length_append]; omega, by rw [htake]; exact hsame⟩
    rw [keyword, dif_pos hmatch, yields_some_iff, tokens_single, rest_single, htake, hdrop]
    exact ⟨rfl, rfl⟩
  · rintro ⟨m, hm, rfl, rfl⟩
    rw [keyword] at hm
    split at hm
    · next h =>
      obtain rfl := Option.some.inj hm
      exact ⟨_, h.2.2, (List.take_append_drop _ _).symm, rfl⟩
    · cases hm

/-- A keyword starts with its first letter, in either case. -/
theorem KeywordAt.exists_head {c : Char} {word : List Char} {kind : TokenKind}
    (h : KeywordAt (c :: word) kind input tokens rest) :
    ∃ d ∈ input.head?, d.toLower = c.toLower := by
  obtain ⟨text, hsame, rfl, -⟩ := h
  cases text with
  | nil => cases length_eq_of_sameIgnoringAsciiCase hsame
  | cons d text => exact ⟨d, rfl, (List.cons.inj (beq_iff_eq.mp hsame)).1⟩

/-- Where a keyword stands that does not start with a blank, there are no blanks. -/
theorem KeywordAt.not_blanksAt {c : Char} {word : List Char} {kind : TokenKind}
    (h : KeywordAt (c :: word) kind input tokens rest) (hc : isBlank c = false)
    (ts : List Token) (r : List Char) : ¬ BlanksAt input ts r := by
  rintro ⟨text, hne, hall, -, hinput, -⟩
  obtain ⟨d, hd, hlower⟩ := h.exists_head
  cases text with
  | nil => exact hne rfl
  | cons b text =>
    rw [hinput] at hd
    obtain rfl := Option.some.inj hd
    have hblank := hall _ List.mem_cons_self
    rw [← isBlank_toLower, hlower, isBlank_toLower, hc] at hblank
    cases hblank

/-! ### Status predicates -/

theorem valueAt_iff : ValueAt input tokens rest ↔ Yields (statusValue input) tokens rest := by
  rw [statusValue, yields_or, ← keywordAt_iff (by simp), ← keywordAt_iff (by simp), ValueAt]
  refine or_congr_right (iff_and_self.mpr fun h => ?_)
  -- the two values start with different letters
  apply eq_none_of_forall_not_yields
  intro ts r hdone
  rw [← keywordAt_iff (by simp)] at hdone
  obtain ⟨d, hd, hd'⟩ := hdone.exists_head
  obtain ⟨n, hn, hn'⟩ := h.exists_head
  rw [Option.mem_unique hd hn, hn'] at hd'
  exact absurd hd' (by decide)

theorem ValueAt.not_blanksAt (h : ValueAt input tokens rest) (ts : List Token) (r : List Char) :
    ¬ BlanksAt input ts r := by
  rcases h with h | h
  · exact h.not_blanksAt (by decide) ts r
  · exact h.not_blanksAt (by decide) ts r

/-- The mark of a status predicate takes the blanks after it, if there are any. -/
theorem yields_statusMark_iff :
    Yields (statusMark input) tokens rest ↔
      ∃ mark r, KeywordAt ['i', 's', ':'] .donePrefix input mark r ∧
        ((∃ gap, BlanksAt r gap rest ∧ tokens = mark ++ gap) ∨
          blanks r = none ∧ tokens = mark ∧ rest = r) := by
  simp only [keywordAt_iff (List.cons_ne_nil _ _), blanksAt_iff]
  constructor
  · rintro ⟨m, hm, rfl, rfl⟩
    obtain ⟨mark, hmark, rfl⟩ := Option.map_eq_some_iff.mp hm
    refine ⟨mark.tokens, mark.rest, ⟨mark, hmark, rfl, rfl⟩, ?_⟩
    split
    · next gap hgap => exact .inl ⟨gap.tokens, ⟨gap, hgap, rfl, rfl⟩, rfl⟩
    · next hgap => exact .inr ⟨hgap, rfl, rfl⟩
  · rintro ⟨-, -, ⟨mark, hmark, rfl, rfl⟩, ⟨-, ⟨gap, hgap, rfl, rfl⟩, rfl⟩ | ⟨hgap, rfl, rfl⟩⟩
    · refine ⟨mark.append gap, ?_, rfl, rfl⟩
      simp only [statusMark, hmark, Option.map_some, hgap]
    · refine ⟨mark, ?_, rfl, rfl⟩
      simp only [statusMark, hmark, Option.map_some, hgap]

theorem statusAt_iff : StatusAt input tokens rest ↔ Yields (status input) tokens rest := by
  have hstatus : status input = (statusMark input).bind fun mark =>
      (statusValue mark.rest).map mark.append := by
    simp only [status, Option.map_eq_bind]
    rfl
  rw [hstatus, yields_bind]
  constructor
  · intro h
    cases h with
    | glued hmark hvalue =>
      -- a value does not start with a blank, so the mark took none
      have hgap := eq_none_of_forall_not_yields fun ts r hb =>
        hvalue.not_blanksAt ts r (blanksAt_iff.mpr hb)
      exact ⟨_, _, _, yields_statusMark_iff.mpr ⟨_, _, hmark, .inr ⟨hgap, rfl, rfl⟩⟩,
        valueAt_iff.mp hvalue, rfl⟩
    | spaced hmark hgap hvalue =>
      exact ⟨_, _, _, yields_statusMark_iff.mpr ⟨_, _, hmark, .inl ⟨_, hgap, rfl⟩⟩,
        valueAt_iff.mp hvalue, rfl⟩
  · rintro ⟨ts, r, us, hmark, hvalue, rfl⟩
    rw [← valueAt_iff] at hvalue
    obtain ⟨mark, r', hword, ⟨gap, hgap, rfl⟩ | ⟨-, rfl, rfl⟩⟩ := yields_statusMark_iff.mp hmark
    · exact .spaced hword hgap hvalue
    · exact .glued hword hvalue

/-! ### Operands -/

theorem StatusAt.not_blanksAt (h : StatusAt input tokens rest) (ts : List Token)
    (r : List Char) : ¬ BlanksAt input ts r := by
  cases h with
  | glued hmark => exact hmark.not_blanksAt (by decide) ts r
  | spaced hmark => exact hmark.not_blanksAt (by decide) ts r

theorem WordAt.not_blanksAt {kind : TokenKind} (h : WordAt kind input tokens rest)
    (ts : List Token) (r : List Char) : ¬ BlanksAt input ts r := by
  rintro ⟨gap, hgap, hblank, -, hinput, -⟩
  obtain ⟨word, hword, hnot, -, hinput', -⟩ := h
  obtain ⟨b, gap, rfl⟩ := List.exists_cons_of_ne_nil hgap
  obtain ⟨c, word, rfl⟩ := List.exists_cons_of_ne_nil hword
  obtain rfl : b = c := (List.cons.inj (hinput.symm.trans hinput')).1
  have hb := hblank b List.mem_cons_self
  have hc := hnot b List.mem_cons_self
  simp [hb] at hc

theorem OperandAt.not_blanksAt {kind : TokenKind} (h : OperandAt kind input tokens rest)
    (ts : List Token) (r : List Char) : ¬ BlanksAt input ts r := by
  cases h with
  | status h => exact h.not_blanksAt ts r
  | term _ h => exact h.not_blanksAt ts r

/-- The matcher for operands finds an operand, or else blanks. -/
theorem yields_operand_iff {kind : TokenKind} :
    Yields (operand kind input) tokens rest ↔
      OperandAt kind input tokens rest ∨ BlanksAt input tokens rest := by
  rw [operand, yields_or, yields_or, ← statusAt_iff, ← wordAt_iff, ← blanksAt_iff]
  constructor
  · rintro (h | ⟨hs, h | ⟨-, h⟩⟩)
    · exact .inl (.status h)
    · refine .inl (.term (fun ts r hn => ?_) h)
      rw [statusAt_iff, hs] at hn
      exact not_yields_none hn
    · exact .inr h
  · rintro (h | h)
    · cases h with
      | status h => exact .inl h
      | term hn h =>
        refine .inr ⟨eq_none_of_forall_not_yields fun ts r hs => ?_, .inl h⟩
        exact hn ts r (statusAt_iff.mpr hs)
    · refine .inr ⟨?_, .inr ⟨?_, h⟩⟩
      · exact eq_none_of_forall_not_yields fun ts r hs =>
          (statusAt_iff.mpr hs).not_blanksAt _ _ h
      · exact eq_none_of_forall_not_yields fun ts r hw =>
          (wordAt_iff.mpr hw).not_blanksAt _ _ h

theorem OperandAt.unique {kind : TokenKind} {ts : List Token} {r : List Char}
    (h : OperandAt kind input tokens rest) (h' : OperandAt kind input ts r) :
    tokens = ts ∧ rest = r :=
  (yields_operand_iff.mpr (.inl h)).unique (yields_operand_iff.mpr (.inl h'))

theorem OperandAt.length_lt {kind : TokenKind} (h : OperandAt kind input tokens rest) :
    rest.length < input.length :=
  (yields_operand_iff.mpr (.inl h)).length_lt

/-- A text that is not empty starts with a run of blanks or of other characters. -/
theorem operand_eq_none_iff (kind : TokenKind) : operand kind input = none ↔ input = [] := by
  constructor
  · intro h
    cases input with
    | nil => rfl
    | cons c cs =>
      exfalso
      rw [operand, Option.or_eq_none_iff, Option.or_eq_none_iff, term, blanks, run, run] at h
      obtain ⟨-, hterm, hblanks⟩ := h
      cases hc : isBlank c <;> simp [hc] at hterm hblanks
  · rintro rfl
    exact eq_none_of_forall_not_yields fun ts r h => Nat.not_lt_zero _ h.length_lt

/-! ### Links -/

/-- A run of blanks is as long as possible. -/
theorem BlanksAt.rest_not_blanksAt (h : BlanksAt input tokens rest) (ts : List Token)
    (r : List Char) : ¬ BlanksAt rest ts r := by
  rintro ⟨gap, hgap, hblank, -, rfl, -⟩
  obtain ⟨-, -, -, hstop, -, -⟩ := h
  obtain ⟨b, gap, rfl⟩ := List.exists_cons_of_ne_nil hgap
  have hb := hstop b rfl
  rw [hblank b List.mem_cons_self] at hb
  cases hb

/-- What joins two operands: blanks, the keyword and blanks. -/
def joint (input : List Char) : Option (Match input) :=
  (blanks input).bind fun before =>
    ((keyword ['o', 'r'] .or before.rest).bind fun word =>
      (blanks word.rest).map word.append).map before.append

theorem yields_joint_iff :
    Yields (joint input) tokens rest ↔
      ∃ before r word r' after, BlanksAt input before r ∧ KeywordAt ['o', 'r'] .or r word r' ∧
        BlanksAt r' after rest ∧ tokens = before ++ (word ++ after) := by
  rw [joint, yields_bind fun i => (keyword ['o', 'r'] .or i).bind fun word =>
    (blanks word.rest).map word.append]
  simp only [yields_bind blanks, ← blanksAt_iff, ← keywordAt_iff (List.cons_ne_nil _ _)]
  constructor
  · rintro ⟨before, r, -, hbefore, ⟨word, r', after, hword, hafter, rfl⟩, rfl⟩
    exact ⟨before, r, word, r', after, hbefore, hword, hafter, rfl⟩
  · rintro ⟨before, r, word, r', after, hbefore, hword, hafter, rfl⟩
    exact ⟨before, r, _, hbefore, ⟨word, r', after, hword, hafter, rfl⟩, rfl⟩

theorem linkAt_iff : LinkAt input tokens rest ↔ Yields (orLink input) tokens rest := by
  have hlink : orLink input = (operand .orTerm input).bind fun left =>
      (joint left.rest).map left.append := by
    simp only [orLink, joint, Option.map_eq_bind, Option.bind_assoc]
    rfl
  rw [hlink, yields_bind joint]
  simp only [yields_operand_iff, yields_joint_iff]
  constructor
  · rintro ⟨hleft, hbefore, hword, hafter⟩
    exact ⟨_, _, _, .inl hleft, ⟨_, _, _, _, _, hbefore, hword, hafter, rfl⟩, rfl⟩
  · rintro ⟨left, r, -, hleft | hblanks, ⟨before, r₂, word, r₃, after, hbefore, hword, hafter, rfl⟩,
      rfl⟩
    · exact .mk hleft hbefore hword hafter
    -- blanks that were read as an operand leave none in front of the keyword
    · exact absurd hbefore (hblanks.rest_not_blanksAt _ _)

instance : Decidable (LinkAt input tokens rest) :=
  decidable_of_iff _ linkAt_iff.symm

theorem LinkAt.unique {ts : List Token} {r : List Char} (h : LinkAt input tokens rest)
    (h' : LinkAt input ts r) : tokens = ts ∧ rest = r :=
  (linkAt_iff.mp h).unique (linkAt_iff.mp h')

theorem LinkAt.length_lt (h : LinkAt input tokens rest) : rest.length < input.length :=
  (linkAt_iff.mp h).length_lt

theorem orLink_eq_none_iff : orLink input = none ↔ ∀ ts r, ¬ LinkAt input ts r := by
  constructor
  · intro h ts r hl
    rw [linkAt_iff, h] at hl
    exact not_yields_none hl
  · exact fun h => eq_none_of_forall_not_yields fun ts r hy => h ts r (linkAt_iff.mpr hy)

/-- The blanks at the end of a link are all the blanks there are. -/
theorem LinkAt.rest_not_blanksAt (h : LinkAt input tokens rest) (ts : List Token)
    (r : List Char) : ¬ BlanksAt rest ts r := by
  obtain ⟨-, -, -, hafter⟩ := h
  exact hafter.rest_not_blanksAt ts r

/-- A link starts with its operand, not with blanks. -/
theorem LinkAt.not_blanksAt (h : LinkAt input tokens rest) (ts : List Token)
    (r : List Char) : ¬ BlanksAt input ts r := by
  obtain ⟨hleft, -, -, -⟩ := h
  exact hleft.not_blanksAt ts r

end Agenda.Search

/-
Agenda/Proofs/Search/Stability.lean

What is read from the start of a text is also read when the text goes on
behind it, as long as it goes on with a blank: words, keywords and operands end
where the blank begins.  For every X of the grammar there are two statements,

    X.append      X at `input`  ⟹  X at `input ++ more`
    X.of_append   X at `input ++ more`  ⟹  X at `input`

where `more` ends a word (`EndsWord`).  The exceptions are blanks, which may
go on themselves, and status predicates, whose mark may have its blanks and its
value in `more`.

The tokens of what is read are, put end to end, the text that was read
(`X.eq_append`).  The last section says from the grammar which chunk `parseNext`
finds.
-/
import Agenda.Proofs.Search.Query

namespace Agenda.Search

open Text

variable {input more rest : List Char} {tokens : List Token} {kind : TokenKind}

/-! ### The end of a word -/

/-- No word goes on with this text: it starts with a blank, or it is empty. -/
def EndsWord (more : List Char) : Prop :=
  ∀ c ∈ more.head?, isBlank c = true

theorem endsWord_nil : EndsWord [] := nofun

theorem endsWord_cons {c : Char} (h : isBlank c = true) (cs : List Char) : EndsWord (c :: cs) := by
  rintro d hd
  rwa [← Option.some.inj hd]

/-- A text without blanks ends where a word has to end. -/
theorem exists_append_of_append_eq (hmore : EndsWord more) {text : List Char}
    (htext : ∀ c ∈ text, isBlank c = false) (h : input ++ more = text ++ rest) :
    ∃ r, input = text ++ r ∧ rest = r ++ more := by
  obtain ⟨r, rfl, rfl⟩ | ⟨r, rfl, rfl⟩ := List.append_eq_append_iff.mp h
  · cases r with
    | nil => exact ⟨[], by simp, by simp⟩
    | cons c r =>
      -- the text would go on with the blank that `more` starts with
      have hc := hmore c rfl
      rw [htext c (by simp)] at hc
      cases hc
  · exact ⟨r, rfl, rfl⟩

/-- The characters of a known word are checked one by one. -/
theorem forall_not_blank {word : List Char} (h : word.any isBlank = false) :
    ∀ c ∈ word, isBlank c = false := by
  simpa using h

/-! ### Runs and keywords -/

theorem RunAt.append {p : Char → Bool} (h : RunAt p kind input tokens rest)
    (hstop : ∀ c ∈ (rest ++ more).head?, p c = false) :
    RunAt p kind (input ++ more) tokens (rest ++ more) := by
  obtain ⟨text, hne, hall, -, rfl, rfl⟩ := h
  exact ⟨text, hne, hall, hstop, List.append_assoc _ _ _, rfl⟩

/-- Blanks that are followed by something else end there. -/
theorem BlanksAt.append (h : BlanksAt input tokens rest) (hne : rest ≠ []) :
    BlanksAt (input ++ more) tokens (rest ++ more) := by
  obtain ⟨c, cs, rfl⟩ := List.exists_cons_of_ne_nil hne
  obtain ⟨-, -, -, hstop, -⟩ := id h
  exact RunAt.append h hstop

theorem WordAt.append (hmore : EndsWord more) (h : WordAt kind input tokens rest) :
    WordAt kind (input ++ more) tokens (rest ++ more) := by
  obtain ⟨-, -, -, hstop, -⟩ := id h
  refine RunAt.append h fun c hc => ?_
  cases rest with
  | nil => simp [hmore c hc]
  | cons d rest => exact hstop c hc

theorem KeywordAt.append {word : List Char} (h : KeywordAt word kind input tokens rest) :
    KeywordAt word kind (input ++ more) tokens (rest ++ more) := by
  obtain ⟨text, hsame, rfl, rfl⟩ := h
  exact ⟨text, hsame, List.append_assoc _ _ _, rfl⟩

/-- Blanks that do not fill the text end in it. -/
theorem BlanksAt.of_append (hinput : ∃ c ∈ input, isBlank c = false)
    (h : BlanksAt (input ++ more) tokens rest) :
    ∃ r, rest = r ++ more ∧ BlanksAt input tokens r := by
  obtain ⟨text, hne, hall, hstop, heq, rfl⟩ := h
  obtain ⟨r, rfl, rfl⟩ | ⟨r, rfl, rfl⟩ := List.append_eq_append_iff.mp heq
  · obtain ⟨c, hc, hblank⟩ := hinput
    rw [hall c (by simp [hc])] at hblank
    cases hblank
  · cases r with
    | nil =>
      obtain ⟨c, hc, hblank⟩ := hinput
      rw [hall c (by simpa using hc)] at hblank
      cases hblank
    | cons c r => exact ⟨c :: r, rfl, text, hne, hall, hstop, rfl, rfl⟩

theorem WordAt.of_append (hmore : EndsWord more) (h : WordAt kind (input ++ more) tokens rest) :
    ∃ r, rest = r ++ more ∧ WordAt kind input tokens r := by
  obtain ⟨text, hne, hall, hstop, heq, rfl⟩ := h
  obtain ⟨r, rfl, rfl⟩ :=
    exists_append_of_append_eq hmore (fun c hc => by simpa using hall c hc) heq
  refine ⟨r, rfl, text, hne, hall, fun c hc => ?_, rfl, rfl⟩
  obtain ⟨r, rfl⟩ := List.head?_eq_some_iff.mp hc
  exact hstop c rfl

/-- A text that is a keyword has no blanks. -/
theorem not_blank_of_same {text word : List Char} (hword : ∀ c ∈ word, isBlank c = false)
    (h : sameIgnoringAsciiCase text word = true) : ∀ c ∈ text, isBlank c = false := by
  intro c hc
  have hmem : c.toLower ∈ word.map Char.toLower := by
    rw [← beq_iff_eq.mp h]
    exact List.mem_map_of_mem hc
  obtain ⟨d, hd, hlower⟩ := List.mem_map.mp hmem
  rw [← isBlank_toLower, ← hlower, isBlank_toLower]
  exact hword d hd

theorem KeywordAt.of_append (hmore : EndsWord more) {word : List Char}
    (hword : ∀ c ∈ word, isBlank c = false)
    (h : KeywordAt word kind (input ++ more) tokens rest) :
    ∃ r, rest = r ++ more ∧ KeywordAt word kind input tokens r := by
  obtain ⟨text, hsame, heq, rfl⟩ := h
  obtain ⟨r, rfl, rfl⟩ := exists_append_of_append_eq hmore (not_blank_of_same hword hsame) heq
  exact ⟨r, rfl, text, hsame, rfl, rfl⟩

/-! ### Operands -/

theorem ValueAt.append (h : ValueAt input tokens rest) :
    ValueAt (input ++ more) tokens (rest ++ more) :=
  h.imp KeywordAt.append KeywordAt.append

theorem ValueAt.of_append (hmore : EndsWord more) (h : ValueAt (input ++ more) tokens rest) :
    ∃ r, rest = r ++ more ∧ ValueAt input tokens r := by
  rcases h with h | h
  · obtain ⟨r, rfl, hdone⟩ := h.of_append hmore (forall_not_blank rfl)
    exact ⟨r, rfl, .inl hdone⟩
  · obtain ⟨r, rfl, hnot⟩ := h.of_append hmore (forall_not_blank rfl)
    exact ⟨r, rfl, .inr hnot⟩

theorem ValueAt.ne_nil (h : ValueAt input tokens rest) : input ≠ [] := by
  rintro rfl
  exact Nat.not_lt_zero _ (valueAt_iff.mp h).length_lt

theorem StatusAt.append (h : StatusAt input tokens rest) :
    StatusAt (input ++ more) tokens (rest ++ more) := by
  cases h with
  | glued hmark hvalue => exact .glued hmark.append hvalue.append
  | spaced hmark hgap hvalue =>
    exact .spaced hmark.append (hgap.append hvalue.ne_nil) hvalue.append

/-- The mark of a status predicate that stands here is followed by something in the same text. -/
def MarkFollowed (input : List Char) : Prop :=
  ∀ mark r, KeywordAt ['i', 's', ':'] .donePrefix input mark r → ∃ c ∈ r, isBlank c = false

theorem StatusAt.of_append (hmore : EndsWord more) (hinput : MarkFollowed input)
    (h : StatusAt (input ++ more) tokens rest) :
    ∃ r, rest = r ++ more ∧ StatusAt input tokens r := by
  cases h with
  | glued hmark hvalue =>
    obtain ⟨r, rfl, hmark'⟩ := hmark.of_append hmore (forall_not_blank rfl)
    obtain ⟨r', rfl, hvalue'⟩ := hvalue.of_append hmore
    exact ⟨r', rfl, .glued hmark' hvalue'⟩
  | spaced hmark hgap hvalue =>
    obtain ⟨r, rfl, hmark'⟩ := hmark.of_append hmore (forall_not_blank rfl)
    obtain ⟨r', rfl, hgap'⟩ := hgap.of_append (hinput _ _ hmark')
    obtain ⟨r'', rfl, hvalue'⟩ := hvalue.of_append hmore
    exact ⟨r'', rfl, .spaced hmark' hgap' hvalue'⟩

theorem OperandAt.append (hmore : EndsWord more) (hinput : MarkFollowed input)
    (h : OperandAt kind input tokens rest) :
    OperandAt kind (input ++ more) tokens (rest ++ more) := by
  cases h with
  | status h => exact .status h.append
  | term hnot hword =>
    refine .term (fun ts r hs => ?_) (hword.append hmore)
    obtain ⟨r, -, hs⟩ := hs.of_append hmore hinput
    exact hnot ts r hs

theorem OperandAt.of_append (hmore : EndsWord more) (hinput : MarkFollowed input)
    (h : OperandAt kind (input ++ more) tokens rest) :
    ∃ r, rest = r ++ more ∧ OperandAt kind input tokens r := by
  cases h with
  | status h =>
    obtain ⟨r, rfl, h'⟩ := h.of_append hmore hinput
    exact ⟨r, rfl, .status h'⟩
  | term hnot hword =>
    obtain ⟨r, rfl, hword'⟩ := hword.of_append hmore
    exact ⟨r, rfl, .term (fun ts r hs => hnot ts _ hs.append) hword'⟩

/-! ### Nothing is lost

The characters of the tokens are the text that was read. -/

/-- The characters of some tokens, in order. -/
def textOf (tokens : List Token) : List Char :=
  tokens.flatMap fun token => token.text.toList

@[simp] theorem textOf_append (tokens tokens' : List Token) :
    textOf (tokens ++ tokens') = textOf tokens ++ textOf tokens' :=
  List.flatMap_append

@[simp] theorem textOf_ofList (kind : TokenKind) (text : List Char) :
    textOf [Token.ofList kind text] = text := by
  simp [textOf, Token.ofList]

theorem RunAt.eq_append {p : Char → Bool} (h : RunAt p kind input tokens rest) :
    input = textOf tokens ++ rest := by
  obtain ⟨text, -, -, -, rfl, rfl⟩ := h
  rw [textOf_ofList]

theorem KeywordAt.eq_append {word : List Char} (h : KeywordAt word kind input tokens rest) :
    input = textOf tokens ++ rest := by
  obtain ⟨text, -, rfl, rfl⟩ := h
  rw [textOf_ofList]

theorem StatusAt.eq_append (h : StatusAt input tokens rest) : input = textOf tokens ++ rest := by
  have hvalue : ∀ {i ts r}, ValueAt i ts r → i = textOf ts ++ r :=
    fun h => h.elim KeywordAt.eq_append KeywordAt.eq_append
  cases h with
  | glued hmark hv => rw [hmark.eq_append, hvalue hv, textOf_append, List.append_assoc]
  | spaced hmark hgap hv =>
    rw [hmark.eq_append, RunAt.eq_append hgap, hvalue hv, textOf_append, textOf_append,
      List.append_assoc, List.append_assoc]

theorem OperandAt.eq_append (h : OperandAt kind input tokens rest) :
    input = textOf tokens ++ rest := by
  cases h with
  | status h => exact h.eq_append
  | term _ h => exact RunAt.eq_append h

theorem LinkAt.eq_append (h : LinkAt input tokens rest) : input = textOf tokens ++ rest := by
  obtain ⟨hleft, hbefore, hword, hafter⟩ := h
  rw [hleft.eq_append, RunAt.eq_append hbefore, hword.eq_append, RunAt.eq_append hafter]
  simp only [textOf_append, List.append_assoc]

/-! ### The loop over alternatives as a relation -/

/-- What the loop over alternatives reads: links as long as there are any, then an operand. -/
inductive AlternativesAt : List Char → List Token → List Char → Prop
  | last {input link r operand rest} :
      LinkAt input link r → (∀ ts r', ¬ LinkAt r ts r') → OperandAt .orTerm r operand rest →
      AlternativesAt input (link ++ operand) rest
  | more {input link r others rest} :
      LinkAt input link r → AlternativesAt r others rest →
      AlternativesAt input (link ++ others) rest

theorem alternativesAt_iff :
    AlternativesAt input tokens rest ↔ Yields (alternatives input) tokens rest := by
  constructor
  · intro h
    induction h with
    | @last input link r operand rest hlink hnone hop =>
      obtain ⟨m, hm, rfl, rfl⟩ := linkAt_iff.mp hlink
      obtain ⟨n, hn, rfl, rfl⟩ := yields_operand_iff.mpr (.inl hop)
      have hstop : alternatives m.rest = none := alternatives_eq_none_iff.mpr (.inl hnone)
      rw [alternatives]
      simp only [hm, hstop, orLink_eq_none_iff.mpr hnone, hn, Option.map_some]
      exact yields_some (m.append n)
    | @more input link r others rest hlink _ ih =>
      obtain ⟨m, hm, rfl, rfl⟩ := linkAt_iff.mp hlink
      obtain ⟨n, hn, rfl, rfl⟩ := ih
      rw [alternatives]
      simp only [hm, hn]
      exact yields_some (m.append n)
  · rintro ⟨m, hm, rfl, rfl⟩
    fun_induction alternatives input with
    | case1 input _ => cases hm
    | case2 input link hlink more hmore ih =>
      obtain rfl := Option.some.inj hm
      exact .more (linkAt_of_orLink hlink) (ih more hmore)
    | case3 input _ _ _ _ _ _ => cases hm
    | case4 input link hlink hmore hnext ih =>
      -- the last operand cannot be blanks: the link took them all
      obtain ⟨last, hlast, rfl⟩ := Option.map_eq_some_iff.mp hm
      have hlink := linkAt_of_orLink hlink
      have hop := (yields_operand_iff.mp ⟨last, hlast, rfl, rfl⟩).resolve_right
        (hlink.rest_not_blanksAt _ _)
      exact .last hlink (orLink_eq_none_iff.mp hnext) hop

theorem AlternativesAt.eq_append (h : AlternativesAt input tokens rest) :
    input = textOf tokens ++ rest := by
  induction h with
  | last hlink _ hop => rw [hlink.eq_append, hop.eq_append, textOf_append, List.append_assoc]
  | more hlink _ ih => rw [hlink.eq_append, ih, textOf_append, List.append_assoc]

theorem OperandAt.ne_nil (h : OperandAt kind input tokens rest) : input ≠ [] := by
  rintro rfl
  exact Nat.not_lt_zero _ h.length_lt

/-! ### Chunks from the grammar -/

theorem parseNext_of_alternativesAt (h : AlternativesAt input tokens rest) :
    parseNext input = { tokens, rest } := by
  obtain ⟨m, hm, rfl, rfl⟩ := alternativesAt_iff.mp h
  exact parseNext_of_some hm

theorem parseNext_of_operandAt (hnone : alternatives input = none)
    (h : OperandAt .andTerm input tokens rest) : parseNext input = { tokens, rest } := by
  have hchunk := (parseNext_of_none hnone h.ne_nil).resolve_right (h.not_blanksAt _ _)
  obtain ⟨htokens, hrest⟩ := hchunk.unique h
  rw [← htokens, ← hrest]

theorem BlanksAt.ne_nil (h : BlanksAt input tokens rest) : input ≠ [] := by
  rintro rfl
  exact Nat.not_lt_zero _ (blanksAt_iff.mp h).length_lt

theorem parseNext_of_blanksAt (h : BlanksAt input tokens rest) :
    parseNext input = { tokens, rest } := by
  have hnone : alternatives input = none :=
    alternatives_eq_none_iff.mpr (.inl fun ts r hl => hl.not_blanksAt _ _ h)
  have hchunk := (parseNext_of_none hnone h.ne_nil).resolve_left fun ho => ho.not_blanksAt _ _ h
  obtain ⟨htokens, hrest⟩ := (blanksAt_iff.mp hchunk).unique (blanksAt_iff.mp h)
  rw [← htokens, ← hrest]

theorem length_rest_parseNext_lt (hne : input ≠ []) :
    (parseNext input).rest.length < input.length := by
  cases h : alternatives input with
  | some m => rw [parseNext_of_some h]; exact m.rest_lt
  | none =>
    rcases parseNext_of_none h hne with hop | hb
    · exact hop.length_lt
    · exact (blanksAt_iff.mp hb).length_lt

end Agenda.Search

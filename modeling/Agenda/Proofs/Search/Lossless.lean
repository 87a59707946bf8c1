/-
Agenda/Proofs/Search/Lossless.lean

Reading chunk by chunk loses nothing and comes to an end.  Two facts about a
chunk carry both:

* its tokens, put end to end and followed by its rest, are the text it was read
  from (`textOf_parseNext`), which adds up the `X.eq_append` of the grammar;
* it has a token, and no token is empty (`solid_parseNext`), which adds up the
  `X.solid` below.

So the rest of a chunk is a proper end of its text, and reading chunk after
chunk has nothing left after at most as many chunks as there are characters
(`exists_parseAll_eq`).  Put end to end, the tokens of all chunks are the whole
text again (`textOf_parseAll`).
-/
import Agenda.Proofs.Search.Stability

namespace Agenda.Search

variable {input rest : List Char} {tokens : List Token} {kind : TokenKind}

/-! ### No token is empty -/

/-- There is a token, and every token has a character at least. -/
def Solid (tokens : List Token) : Prop :=
  tokens ≠ [] ∧ ∀ token ∈ tokens, token.text ≠ ""

theorem Solid.append {others : List Token} (h : Solid tokens) (h' : Solid others) :
    Solid (tokens ++ others) := by
  refine ⟨List.append_ne_nil_of_left_ne_nil h.1 others, fun token htoken => ?_⟩
  rcases List.mem_append.mp htoken with htoken | htoken
  · exact h.2 token htoken
  · exact h'.2 token htoken

theorem solid_ofList {text : List Char} (h : text ≠ []) (kind : TokenKind) :
    Solid [Token.ofList kind text] := by
  refine ⟨List.cons_ne_nil _ _, fun token htoken => ?_⟩
  rw [List.mem_singleton.mp htoken]
  intro hempty
  exact h (String.ofList_eq_empty_iff.mp hempty)

theorem RunAt.solid {p : Char → Bool} (h : RunAt p kind input tokens rest) : Solid tokens := by
  obtain ⟨text, hne, -, -, -, rfl⟩ := h
  exact solid_ofList hne kind

theorem KeywordAt.solid {word : List Char} (hword : word ≠ [])
    (h : KeywordAt word kind input tokens rest) : Solid tokens := by
  obtain ⟨text, hsame, -, rfl⟩ := h
  refine solid_ofList (fun hnil => hword ?_) kind
  rw [← List.length_eq_zero_iff, ← length_eq_of_sameIgnoringAsciiCase hsame, hnil, List.length_nil]

theorem ValueAt.solid (h : ValueAt input tokens rest) : Solid tokens :=
  h.elim (KeywordAt.solid (List.cons_ne_nil _ _)) (KeywordAt.solid (List.cons_ne_nil _ _))

theorem StatusAt.solid (h : StatusAt input tokens rest) : Solid tokens := by
  cases h with
  | glued hmark hvalue => exact (hmark.solid (List.cons_ne_nil _ _)).append hvalue.solid
  | spaced hmark hgap hvalue =>
    exact ((hmark.solid (List.cons_ne_nil _ _)).append (RunAt.solid hgap)).append hvalue.solid

theorem OperandAt.solid (h : OperandAt kind input tokens rest) : Solid tokens := by
  cases h with
  | status h => exact h.solid
  | term _ h => exact RunAt.solid h

theorem LinkAt.solid (h : LinkAt input tokens rest) : Solid tokens := by
  obtain ⟨hleft, hbefore, hword, hafter⟩ := h
  exact hleft.solid.append ((RunAt.solid hbefore).append
    ((hword.solid (List.cons_ne_nil _ _)).append (RunAt.solid hafter)))

theorem AlternativesAt.solid (h : AlternativesAt input tokens rest) : Solid tokens := by
  induction h with
  | last hlink _ hop => exact hlink.solid.append hop.solid
  | more hlink _ ih => exact hlink.solid.append ih

/-! ### One chunk -/

/-- A chunk is what the loop over alternatives reads, an operand, or blanks. -/
theorem parseNext_cases (hne : input ≠ []) :
    AlternativesAt input (parseNext input).tokens (parseNext input).rest ∨
      OperandAt .andTerm input (parseNext input).tokens (parseNext input).rest ∨
        BlanksAt input (parseNext input).tokens (parseNext input).rest := by
  cases h : alternatives input with
  | some m =>
    rw [parseNext_of_some h]
    exact .inl (alternativesAt_iff.mpr ⟨m, h, rfl, rfl⟩)
  | none => exact .inr (parseNext_of_none h hne)

/-- **A chunk loses nothing.** -/
theorem textOf_parseNext (input : List Char) :
    textOf (parseNext input).tokens ++ (parseNext input).rest = input := by
  by_cases hne : input = []
  · rw [hne, parseNext_nil]
    rfl
  · rcases parseNext_cases hne with h | h | h
    · exact h.eq_append.symm
    · exact h.eq_append.symm
    · exact (RunAt.eq_append h).symm

/-- **A chunk reads something.** -/
theorem solid_parseNext (hne : input ≠ []) : Solid (parseNext input).tokens := by
  rcases parseNext_cases hne with h | h | h
  · exact h.solid
  · exact h.solid
  · exact RunAt.solid h

theorem tokens_parseNext_eq_nil_iff : (parseNext input).tokens = [] ↔ input = [] := by
  constructor
  · intro h
    by_contra hne
    exact (solid_parseNext hne).1 h
  · rintro rfl
    rw [parseNext_nil]

/-! ### Chunk after chunk -/

/-- What is left of a text when `n` chunks were read from it. -/
def unread (input : List Char) : Nat → List Char
  | 0 => input
  | n + 1 => unread (parseNext input).rest n

/-- **Reading comes to an end**: after at most as many chunks as there are characters nothing is
left, and the chunks of the text are those that were read until then. -/
theorem exists_parseAll_eq (input : List Char) :
    ∃ n ≤ input.length, unread input n = [] ∧ (∀ k < n, unread input k ≠ []) ∧
      parseAll input = (List.range n).map fun k => parseNext (unread input k) := by
  induction hlength : input.length using Nat.strong_induction_on generalizing input with
  | _ length ih =>
    by_cases hne : input = []
    · refine ⟨0, Nat.zero_le _, hne, fun k hk => absurd hk (Nat.not_lt_zero k), ?_⟩
      rw [hne, parseAll_nil]
      rfl
    · have hlt := length_rest_parseNext_lt hne
      obtain ⟨n, hn, hend, hbefore, hchunks⟩ := ih _ (hlength ▸ hlt) (parseNext input).rest rfl
      refine ⟨n + 1, by omega, hend, fun k hk => ?_, ?_⟩
      · cases k with
        | zero => exact hne
        | succ k => exact hbefore k (Nat.lt_of_succ_lt_succ hk)
      · rw [parseAll_eq_cons hne, hchunks, List.range_succ_eq_map, List.map_cons, List.map_map]
        rfl

/-- **All chunks together lose nothing.** -/
theorem textOf_parseAll (input : List Char) :
    textOf ((parseAll input).flatMap Chunk.tokens) = input := by
  induction hlength : input.length using Nat.strong_induction_on generalizing input with
  | _ length ih =>
    by_cases hne : input = []
    · rw [hne, parseAll_nil]
      rfl
    · have hlt := length_rest_parseNext_lt hne
      rw [parseAll_eq_cons hne, List.flatMap_cons, textOf_append,
        ih _ (hlength ▸ hlt) (parseNext input).rest rfl, textOf_parseNext]

/-- **Reading is lossless and ends.**  A chunk has no tokens only if the text is empty; none of its
tokens is empty, and with its rest they are the text.  Reading chunk by chunk leaves nothing after
`n` steps, and not before; the chunks read by then are all chunks of the text, and their tokens are
the text. -/
theorem parse_lossless (input : List Char) :
    ((parseNext input).tokens = [] ↔ input = []) ∧
      (∀ token ∈ (parseNext input).tokens, token.text ≠ "") ∧
      textOf (parseNext input).tokens ++ (parseNext input).rest = input ∧
      (∃ n ≤ input.length, unread input n = [] ∧ (∀ k < n, unread input k ≠ []) ∧
        parseAll input = (List.range n).map fun k => parseNext (unread input k)) ∧
      textOf ((parseAll input).flatMap Chunk.tokens) = input := by
  refine ⟨tokens_parseNext_eq_nil_iff, fun token htoken => ?_, textOf_parseNext input,
    exists_parseAll_eq input, textOf_parseAll input⟩
  have hne : input ≠ [] := by
    rintro rfl
    rw [parseNext_nil] at htoken
    cases htoken
  exact (solid_parseNext hne).2 token htoken

/-- A status predicate and a link that are given up half-way, next to blanks and letters of several
bytes. -/
theorem parse_lossless_half_way :
    let input := "is:\u00a0é\u3000or".toList
    (⟨.andTerm, "is:"⟩ : Token) ∈ (parseNext input).tokens ∧ "is:" ≠ "" ∧
      textOf ((parseAll input).flatMap Chunk.tokens) = input := by
  intro input
  obtain ⟨-, hsolid, -, -, htext⟩ := parse_lossless input
  have hmem : (⟨.andTerm, "is:"⟩ : Token) ∈ (parseNext input).tokens := by decide +kernel
  exact ⟨hmem, hsolid _ hmem, htext⟩

end Agenda.Search

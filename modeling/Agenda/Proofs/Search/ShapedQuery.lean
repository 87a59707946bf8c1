/-
Agenda/Proofs/Search/ShapedQuery.lean

What chunks of each shape ask for, and so what a query is made of.

Nothing is lost on the way from a chunk to its condition.  The value of a status
predicate is one of two words whatever its case, because lower case is blind to
the case that the keyword was matched without (`ValueAt.exists_state`); lower
case leaves a term a term (`IsTerm.lower`); and every operand of the text is one
of the condition, so there is one more than there are keywords
(`AlternativesAt.length_operandsOf`).  Each shape has conditions of its own,
`Shape.Asks`, and `Shape.Describes` says all of a chunk at once.

The query keeps a sublist of these conditions.  It drops those of blanks, and
those of status predicates that stand alone behind the first one.
-/
import Agenda.Proofs.Search.Shape
import Agenda.Proofs.Search.Spelling

namespace Agenda.Search

open Text

variable {input rest : List Char} {tokens : List Token} {kind : TokenKind} {shape : Shape}

/-! ### Words in lower case -/

/-- Lower case leaves a term a term. -/
theorem IsTerm.lower {text : String} (h : IsTerm text) : IsTerm (lower text) :=
  ⟨lower_ne_empty h.1, not_isBlank_lower h.2⟩

/-- The kinds in lower case, without those that mean nothing. -/
theorem kinds_normalize (tokens : List Token) :
    (normalize tokens).map Token.kind = (tokens.map Token.kind).filter (!·.isNoise) := by
  rw [normalize, List.map_map, List.filter_map]
  rfl

/-- A status value names a state, whatever its case. -/
theorem ValueAt.exists_state (h : ValueAt input tokens rest) :
    ∃ state : DoneState, normalize tokens = [⟨.doneValue, state.keyword⟩] := by
  rcases h with ⟨text, hsame, -, rfl⟩ | ⟨text, hsame, -, rfl⟩
  · refine ⟨.done, ?_⟩
    rw [normalize_ofList_eq hsame]
    decide +kernel
  · refine ⟨.notDone, ?_⟩
    rw [normalize_ofList_eq hsame]
    decide +kernel

theorem KeywordAt.normalize_eq_nil {word : List Char} (hkind : kind.isNoise = true)
    (h : KeywordAt word kind input tokens rest) : normalize tokens = [] := by
  obtain ⟨text, -, -, rfl⟩ := h
  simp [normalize, Token.ofList, hkind]

theorem StatusAt.exists_state (h : StatusAt input tokens rest) :
    ∃ state : DoneState, normalize tokens = [⟨.doneValue, state.keyword⟩] := by
  cases h with
  | glued hmark hvalue =>
    rw [normalize_append, hmark.normalize_eq_nil rfl, List.nil_append]
    exact hvalue.exists_state
  | spaced hmark hgap hvalue =>
    rw [normalize_append, normalize_append, hmark.normalize_eq_nil rfl, hgap.normalize_eq,
      List.nil_append, List.nil_append]
    exact hvalue.exists_state

/-! ### Operands -/

/-- The operands that some tokens stand for. -/
def operandsOf (tokens : List Token) : List Operand :=
  (normalize tokens).filterMap Operand.ofToken?

theorem operandsOf_append (tokens others : List Token) :
    operandsOf (tokens ++ others) = operandsOf tokens ++ operandsOf others := by
  rw [operandsOf, normalize_append, List.filterMap_append, operandsOf, operandsOf]

theorem BlanksAt.operandsOf_eq (h : BlanksAt input tokens rest) : operandsOf tokens = [] := by
  rw [operandsOf, h.normalize_eq, List.filterMap_nil]

theorem OperandAt.exists_operandsOf_eq (h : OperandAt .orTerm input tokens rest) :
    ∃ operand, operandsOf tokens = [operand] := by
  cases h with
  | status h =>
    obtain ⟨state, hstate⟩ := h.exists_state
    refine ⟨.status state, ?_⟩
    rw [operandsOf, hstate]
    cases state <;> rfl
  | term _ h =>
    obtain ⟨text, -, rfl⟩ := WordAt.exists_isTerm h
    exact ⟨.term (Text.lower text), rfl⟩

theorem LinkAt.exists_operandsOf_eq (h : LinkAt input tokens rest) :
    ∃ operand, operandsOf tokens = [operand] := by
  obtain ⟨hleft, hbefore, ⟨text, -, -, rfl⟩, hafter⟩ := h
  obtain ⟨operand, hoperand⟩ := hleft.exists_operandsOf_eq
  refine ⟨operand, ?_⟩
  rw [operandsOf_append, operandsOf_append, operandsOf_append, hoperand, hbefore.operandsOf_eq,
    hafter.operandsOf_eq]
  rfl

theorem OperandKinds.count_or {kinds : List TokenKind} (h : OperandKinds kinds) :
    kinds.count .or = 0 :=
  List.count_eq_zero.mpr h.or_notMem

theorem LinkAt.count_or (h : LinkAt input tokens rest) :
    (tokens.map Token.kind).count .or = 1 := by
  obtain ⟨left, hleft, hkinds⟩ := h.exists_operandKinds
  rw [hkinds, List.count_append, hleft.count_or]
  rfl

/-- There is one operand more than there are keywords. -/
theorem AlternativesAt.length_operandsOf (h : AlternativesAt input tokens rest) :
    (operandsOf tokens).length = (tokens.map Token.kind).count .or + 1 := by
  induction h with
  | last hlink _ hop =>
    obtain ⟨first, hfirst⟩ := hlink.exists_operandsOf_eq
    obtain ⟨second, hsecond⟩ := hop.exists_operandsOf_eq
    rw [operandsOf_append, hfirst, hsecond, List.map_append, List.count_append, hlink.count_or,
      hop.operandKinds.count_or]
    rfl
  | more hlink _ ih =>
    obtain ⟨first, hfirst⟩ := hlink.exists_operandsOf_eq
    rw [operandsOf_append, List.length_append, hfirst, ih, List.map_append, List.count_append,
      hlink.count_or, List.length_singleton, Nat.add_assoc]

/-! ### Chunks and their conditions -/

/-- The kinds of the tokens of a chunk. -/
def Chunk.kinds (chunk : Chunk) : List TokenKind :=
  chunk.tokens.map Token.kind

/-- What a chunk asks for. -/
def Chunk.condition (chunk : Chunk) : Condition :=
  Condition.ofTokens chunk.normalized

/-- What a chunk of the shape asks for, if its tokens are of these kinds. -/
def Shape.Asks (kinds : List TokenKind) : Shape → Condition → Prop
  | .blanks, condition => condition = .unconstrained
  | .term, condition => ∃ text, IsTerm text ∧ condition = .allTerms [text]
  | .status, condition => ∃ state, condition = .status state
  | .alternatives, condition => ∃ operands : List Operand, condition = .anyOf operands ∧
      operands.length = kinds.count .or + 1 ∧ 2 ≤ operands.length

/-- The chunk has the shape, with all that goes with it. -/
structure Shape.Describes (shape : Shape) (chunk : Chunk) : Prop where
  /-- The tokens make up the shape. -/
  fits : shape.Fits chunk.kinds
  /-- They make up no other one. -/
  only : ∀ other : Shape, other.Fits chunk.kinds → other = shape
  /-- The keyword stands between blanks. -/
  guarded : Guarded chunk.kinds
  /-- Terms are words. -/
  terms : HasTerms chunk.tokens
  /-- The condition is one of the shape. -/
  asks : shape.Asks chunk.kinds chunk.condition

theorem Shape.Fits.describes {chunk : Chunk} (h : shape.Fits chunk.kinds)
    (hterms : HasTerms chunk.tokens) (hasks : shape.Asks chunk.kinds chunk.condition) :
    shape.Describes chunk :=
  ⟨h, fun _ => h.unique, h.guarded, hterms, hasks⟩

theorem BlanksAt.describes (h : BlanksAt input tokens rest) (r : List Char) :
    Shape.blanks.Describes { tokens, rest := r } := by
  refine Shape.Fits.describes (RunAt.kinds_eq h) h.hasTerms ?_
  show Condition.ofTokens (normalize tokens) = .unconstrained
  rw [h.normalize_eq]
  rfl

theorem WordAt.describes (h : WordAt .andTerm input tokens rest) (r : List Char) :
    Shape.term.Describes { tokens, rest := r } := by
  refine Shape.Fits.describes (RunAt.kinds_eq h) (WordAt.hasTerms h) ?_
  obtain ⟨text, hterm, rfl⟩ := WordAt.exists_isTerm h
  exact ⟨Text.lower text, hterm.lower, rfl⟩

theorem StatusAt.describes (h : StatusAt input tokens rest) (r : List Char) :
    Shape.status.Describes { tokens, rest := r } := by
  refine Shape.Fits.describes h.statusKinds h.hasTerms ?_
  obtain ⟨state, hstate⟩ := h.exists_state
  refine ⟨state, ?_⟩
  show Condition.ofTokens (normalize tokens) = .status state
  rw [hstate]
  cases state <;> rfl

theorem AlternativesAt.describes (h : AlternativesAt input tokens rest) (r : List Char) :
    Shape.alternatives.Describes { tokens, rest := r } := by
  refine Shape.Fits.describes h.alternativesKinds h.hasTerms ⟨operandsOf tokens, ?_, ?_⟩
  · have hmem : TokenKind.or ∈ (normalize tokens).map Token.kind := by
      rw [kinds_normalize]
      exact List.mem_filter.mpr ⟨h.alternativesKinds.or_mem, rfl⟩
    obtain ⟨token, htoken, hor⟩ := List.mem_map.mp hmem
    have hany : ((normalize tokens).any fun token => token.kind = .or) = true :=
      List.any_eq_true.mpr ⟨token, htoken, decide_eq_true hor⟩
    show Condition.ofTokens (normalize tokens) = .anyOf (operandsOf tokens)
    rw [Condition.ofTokens, if_pos hany, operandsOf]
  · have hpos := List.count_pos_iff.mpr h.alternativesKinds.or_mem
    have hlength := h.length_operandsOf
    exact ⟨hlength, by omega⟩

/-- **Every chunk has a shape.** -/
theorem exists_describes_parseNext (hne : input ≠ []) :
    ∃ shape : Shape, shape.Describes (parseNext input) := by
  rcases parseNext_cases hne with h | h | h
  · exact ⟨_, h.describes _⟩
  · cases h with
    | status h => exact ⟨_, h.describes _⟩
    | term _ h => exact ⟨_, WordAt.describes h _⟩
  · exact ⟨_, h.describes _⟩

theorem exists_describes_of_mem {chunk : Chunk} (h : chunk ∈ parseAll input) :
    ∃ shape : Shape, shape.Describes chunk := by
  obtain ⟨n, -, -, hunread, hchunks⟩ := exists_parseAll_eq input
  rw [hchunks, List.mem_map] at h
  obtain ⟨k, hk, rfl⟩ := h
  exact exists_describes_parseNext (hunread k (List.mem_range.mp hk))

/-- The chunks that ask for a status are the status predicates that stand alone. -/
theorem Shape.Describes.isStatus_condition {chunk : Chunk} (h : shape.Describes chunk) :
    chunk.condition.isStatus = decide (StatusKinds chunk.kinds) := by
  have hstatus : StatusKinds chunk.kinds ↔ shape = .status := by
    constructor
    · exact fun hs => (h.only .status hs).symm
    · rintro rfl
      exact h.fits
  have hasks := h.asks
  rw [Bool.eq_iff_iff, decide_eq_true_iff, hstatus]
  cases shape with
  | blanks => rw [show chunk.condition = .unconstrained from hasks]; decide
  | term =>
    obtain ⟨text, -, hcondition⟩ := hasks
    simp [hcondition]
  | status =>
    obtain ⟨state, hcondition⟩ := hasks
    simp [hcondition]
  | alternatives =>
    obtain ⟨operands, hcondition, -⟩ := hasks
    simp [hcondition]

/-- Terms are asked for by chunks that are one word. -/
theorem Shape.Describes.exists_isTerm {chunk : Chunk} (h : shape.Describes chunk)
    {terms : List String} (hterms : chunk.condition = .allTerms terms) :
    ∃ term, IsTerm term ∧ terms = [term] := by
  have hasks := h.asks
  rw [hterms] at hasks
  cases shape with
  | blanks | status | alternatives => simp [Shape.Asks] at hasks
  | term =>
    obtain ⟨term, hterm, heq⟩ := hasks
    exact ⟨term, hterm, Condition.allTerms.inj heq⟩

/-- No alternative of a chunk is lost. -/
theorem Shape.Describes.length_operands {chunk : Chunk} (h : shape.Describes chunk)
    {operands : List Operand} (hoperands : chunk.condition = .anyOf operands) :
    operands.length = chunk.kinds.count .or + 1 ∧ 2 ≤ operands.length := by
  have hasks := h.asks
  rw [hoperands] at hasks
  cases shape with
  | blanks | status | term => simp [Shape.Asks] at hasks
  | alternatives =>
    obtain ⟨others, heq, hlength⟩ := hasks
    rwa [Condition.anyOf.inj heq]

/-! ### Queries -/

theorem significant_sublist (seen : Bool) (conditions : List Condition) :
    (significant seen conditions).Sublist conditions := by
  induction conditions generalizing seen with
  | nil => exact .slnil
  | cons condition conditions ih =>
    cases condition with
    | anyOf | allTerms => exact (ih seen).cons_cons _
    | unconstrained => exact (ih seen).cons _
    | status state =>
      cases seen with
      | true => exact (ih true).cons _
      | false => exact (ih true).cons_cons _

theorem unconstrained_notMem_significant (seen : Bool) (conditions : List Condition) :
    Condition.unconstrained ∉ significant seen conditions := by
  induction conditions generalizing seen with
  | nil => exact List.not_mem_nil
  | cons condition conditions ih => cases condition <;> cases seen <;> simp [significant, ih]

/-- Of the status predicates that stand alone the first one is kept. -/
theorem filter_isStatus_significant (conditions : List Condition) :
    (significant false conditions).filter Condition.isStatus =
      (conditions.find? Condition.isStatus).toList := by
  induction conditions with
  | nil => rfl
  | cons condition conditions ih =>
    cases condition with
    | anyOf | allTerms | unconstrained => simpa [significant] using ih
    | status state =>
      rw [significant, if_neg Bool.false_ne_true, significant_eq_filter false,
        List.filter_cons_of_pos rfl, List.filter_filter, List.find?_cons_of_pos rfl]
      simp

theorem conditions_parse_eq (text : String) : (Query.parse text).conditions =
    significant false ((parseAll text.toList).map Chunk.condition) := rfl

/-- The first status that is asked for is that of the first chunk that is one. -/
theorem find?_isStatus_map_condition (input : List Char) :
    ((parseAll input).map Chunk.condition).find? Condition.isStatus =
      ((parseAll input).find? fun chunk => decide (StatusKinds chunk.kinds)).map
        Chunk.condition := by
  have hsame : ∀ chunk ∈ parseAll input,
      (Condition.isStatus ∘ Chunk.condition) chunk = decide (StatusKinds chunk.kinds) := by
    intro chunk hchunk
    obtain ⟨shape, hshape⟩ := exists_describes_of_mem hchunk
    exact hshape.isStatus_condition
  rw [List.find?_map, ← List.head?_filter, ← List.head?_filter, List.filter_congr hsame]

/-- What else is asked for is kept. -/
theorem filter_not_isStatus_significant (seen : Bool) (conditions : List Condition) :
    (significant seen conditions).filter (!·.isStatus) =
      (asking conditions).filter (!·.isStatus) := by
  induction conditions generalizing seen with
  | nil => rfl
  | cons condition conditions ih =>
    rw [asking] at ih ⊢
    cases condition <;> cases seen <;> simp [significant, ih]

/-- The query of the text is made of these chunks. -/
structure MadeOf (text : String) (kept : List Chunk) : Prop where
  /-- They are chunks of the text, in order. -/
  sublist : kept.Sublist (parseAll text.toList)
  /-- Its conditions are theirs. -/
  conditions : (Query.parse text).conditions = kept.map Chunk.condition
  /-- Each of them asks for something. -/
  asks : .unconstrained ∉ (Query.parse text).conditions
  /-- Terms are asked for one by one, and are words. -/
  terms : ∀ chunk ∈ kept, ∀ terms, chunk.condition = .allTerms terms →
    ∃ term, IsTerm term ∧ terms = [term]
  /-- A group has one alternative more than its chunk has keywords. -/
  operands : ∀ chunk ∈ kept, ∀ operands, chunk.condition = .anyOf operands →
    operands.length = chunk.kinds.count .or + 1 ∧ 2 ≤ operands.length
  /-- A status is asked for once if one stands alone in the text, the first one, and not
  otherwise. -/
  status : (Query.parse text).conditions.filter Condition.isStatus =
    (((parseAll text.toList).find? fun chunk => decide (StatusKinds chunk.kinds)).map
      Chunk.condition).toList
  /-- Nothing else that is asked for is dropped. -/
  rest : (Query.parse text).conditions.filter (!·.isStatus) =
    (asking ((parseAll text.toList).map Chunk.condition)).filter (!·.isStatus)

/-- **Chunks and conditions have the intended shapes.**  The chunks of a text are the whole text,
and every one of them has one of the four shapes.  The query is made of some of them: all but
blanks, and status predicates that stand alone behind the first one. -/
theorem parse_shapes (text : String) :
    textOf ((parseAll text.toList).flatMap Chunk.tokens) = text.toList ∧
      (∀ chunk ∈ parseAll text.toList, ∃ shape : Shape, shape.Describes chunk) ∧
      ∃ kept : List Chunk, MadeOf text kept := by
  have hshapes : ∀ chunk ∈ parseAll text.toList, ∃ shape : Shape, shape.Describes chunk :=
    fun chunk hchunk => exists_describes_of_mem hchunk
  obtain ⟨kept, hkept, hconditions⟩ := List.sublist_map_iff.mp
    (significant_sublist false ((parseAll text.toList).map Chunk.condition))
  refine ⟨textOf_parseAll text.toList, hshapes, kept, hkept, hconditions,
    unconstrained_notMem_significant _ _, ?_, ?_, ?_, filter_not_isStatus_significant _ _⟩
  · intro chunk hchunk terms hterms
    obtain ⟨shape, hshape⟩ := hshapes chunk (hkept.mem hchunk)
    exact hshape.exists_isTerm hterms
  · intro chunk hchunk operands hoperands
    obtain ⟨shape, hshape⟩ := hshapes chunk (hkept.mem hchunk)
    exact hshape.length_operands hoperands
  · rw [conditions_parse_eq, filter_isStatus_significant, find?_isStatus_map_condition]

/-- A group with a status predicate and two spellings of the keyword, between two status predicates
that stand alone, the first of them with a gap. -/
theorem parse_shapes_errands :
    let text := "IS: done  Milk OR is:notdone or Éclair is:notdone"
    let group : Chunk := {
      tokens := [⟨.orTerm, "Milk"⟩, ⟨.whitespace, " "⟩, ⟨.or, "OR"⟩, ⟨.whitespace, " "⟩,
        ⟨.donePrefix, "is:"⟩, ⟨.doneValue, "notdone"⟩, ⟨.whitespace, " "⟩, ⟨.or, "or"⟩,
        ⟨.whitespace, " "⟩, ⟨.orTerm, "Éclair"⟩]
      rest := " is:notdone".toList }
    group ∈ parseAll text.toList ∧ Guarded group.kinds ∧
      (Query.parse text).conditions.filter Condition.isStatus = [.status .done] := by
  intro text group
  obtain ⟨-, hshapes, _, hmade⟩ := parse_shapes text
  have hmem : group ∈ parseAll text.toList := by decide +kernel
  obtain ⟨shape, hshape⟩ := hshapes group hmem
  exact ⟨hmem, hshape.guarded, hmade.status.trans (by decide +kernel)⟩

end Agenda.Search

/-
Agenda/Proofs/Search/Shape.lean

The shapes of chunks.  By the kinds of its tokens a chunk is one of four
things,

    blanks          whitespace
    term            and_term
    status          S = done_prefix whitespace? done_value
    alternatives    O (whitespace or whitespace O)+      O = or_term | S

and never two of them at once (`Shape.Fits.unique`).  The grammar allows blanks
as an operand, but none ever is one: the blanks around the keyword are taken
whole, so no blanks are left where an operand is wanted.

For each relation of the grammar there are two statements: the kinds of the
tokens that are read (`X.kinds_eq`, or the shape they make up), and that the
terms among them are words (`X.hasTerms`).
-/
import Agenda.Proofs.Search.Lossless

namespace Agenda.Search

open Text

/-! ### Shapes -/

/-- A status predicate: its mark, blanks or none, its value. -/
inductive StatusKinds : List TokenKind → Prop
  | glued : StatusKinds [.donePrefix, .doneValue]
  | spaced : StatusKinds [.donePrefix, .whitespace, .doneValue]

/-- An alternative: a term or a status predicate. -/
inductive OperandKinds : List TokenKind → Prop
  | term : OperandKinds [.orTerm]
  | status {kinds} : StatusKinds kinds → OperandKinds kinds

/-- The keyword with the blanks around it. -/
def keywordKinds : List TokenKind :=
  [.whitespace, .or, .whitespace]

/-- Alternatives with the keyword between them, two or more. -/
inductive AlternativesKinds : List TokenKind → Prop
  | two {left right} : OperandKinds left → OperandKinds right →
      AlternativesKinds (left ++ (keywordKinds ++ right))
  | more {left others} : OperandKinds left → AlternativesKinds others →
      AlternativesKinds (left ++ (keywordKinds ++ others))

/-- What a chunk is. -/
inductive Shape where
  /-- A run of blanks. -/
  | blanks
  /-- A word to search for. -/
  | term
  /-- A status predicate that stands alone. -/
  | status
  /-- Several alternatives. -/
  | alternatives
deriving DecidableEq, Repr

/-- Tokens of these kinds make up the shape. -/
def Shape.Fits : Shape → List TokenKind → Prop
  | .blanks, kinds => kinds = [.whitespace]
  | .term, kinds => kinds = [.andTerm]
  | .status, kinds => StatusKinds kinds
  | .alternatives, kinds => AlternativesKinds kinds

variable {input rest : List Char} {tokens : List Token} {kind : TokenKind}
variable {kinds left right : List TokenKind} {shape other : Shape}

theorem statusKinds_iff :
    StatusKinds kinds ↔
      kinds = [.donePrefix, .doneValue] ∨ kinds = [.donePrefix, .whitespace, .doneValue] := by
  constructor
  · rintro (_ | _)
    · exact .inl rfl
    · exact .inr rfl
  · rintro (rfl | rfl)
    · exact .glued
    · exact .spaced

instance (kinds : List TokenKind) : Decidable (StatusKinds kinds) :=
  decidable_of_iff _ statusKinds_iff.symm

theorem OperandKinds.or_notMem (h : OperandKinds kinds) : TokenKind.or ∉ kinds := by
  rcases h with _ | (_ | _) <;> decide

theorem AlternativesKinds.or_mem (h : AlternativesKinds kinds) : TokenKind.or ∈ kinds := by
  cases h <;> simp [keywordKinds]

/-- The only shape that tokens of these kinds can have: the keyword tells, or else the first
token. -/
def Shape.ofKinds (kinds : List TokenKind) : Shape :=
  if .or ∈ kinds then .alternatives
  else match kinds with
    | .whitespace :: _ => .blanks
    | .andTerm :: _ => .term
    | _ => .status

theorem Shape.Fits.eq_ofKinds (h : shape.Fits kinds) : shape = .ofKinds kinds := by
  cases shape with
  | blanks =>
    obtain rfl : kinds = [.whitespace] := h
    rfl
  | term =>
    obtain rfl : kinds = [.andTerm] := h
    rfl
  | status => rcases h with _ | _ <;> rfl
  | alternatives => exact (if_pos (AlternativesKinds.or_mem h)).symm

/-- **A chunk has one shape only.** -/
theorem Shape.Fits.unique (h : shape.Fits kinds) (h' : other.Fits kinds) : other = shape := by
  rw [h.eq_ofKinds, h'.eq_ofKinds]

/-! ### The keyword and its neighbours -/

/-- Wherever the keyword stands, blanks stand on either side of it. -/
def Guarded (kinds : List TokenKind) : Prop :=
  ∀ before after, kinds = before ++ .or :: after →
    before.getLast? = some .whitespace ∧ after.head? = some .whitespace

theorem guarded_of_notMem (h : TokenKind.or ∉ kinds) : Guarded kinds := by
  rintro before after rfl
  exact absurd (List.mem_append_right before List.mem_cons_self) h

theorem Guarded.keyword_append (hleft : TokenKind.or ∉ left) (hright : Guarded right) :
    Guarded (left ++ (keywordKinds ++ right)) := by
  intro before after heq
  obtain ⟨mid, rfl, hmid⟩ | ⟨mid, rfl, hmid⟩ := List.append_eq_append_iff.mp heq
  · -- behind `left` it is the keyword that was put there, or one of `right`
    match mid, hmid with
    | [.whitespace], hmid =>
      obtain rfl : .whitespace :: right = after := by simpa [keywordKinds] using hmid
      simp
    | .whitespace :: .or :: .whitespace :: mid, hmid =>
      obtain ⟨hlast, hhead⟩ := hright mid after (by simpa [keywordKinds] using hmid)
      refine ⟨?_, hhead⟩
      simp [List.getLast?_append, List.getLast?_cons, hlast]
  · cases mid with
    | nil => cases hmid
    | cons k mid =>
      obtain rfl : TokenKind.or = k := (List.cons.inj hmid).1
      exact absurd (List.mem_append_right before List.mem_cons_self) hleft

theorem AlternativesKinds.guarded (h : AlternativesKinds kinds) : Guarded kinds := by
  induction h with
  | two hleft hright => exact .keyword_append hleft.or_notMem (guarded_of_notMem hright.or_notMem)
  | more hleft _ ih => exact .keyword_append hleft.or_notMem ih

theorem Shape.Fits.guarded (h : shape.Fits kinds) : Guarded kinds := by
  cases shape with
  | blanks =>
    obtain rfl : kinds = [.whitespace] := h
    exact guarded_of_notMem (by decide)
  | term =>
    obtain rfl : kinds = [.andTerm] := h
    exact guarded_of_notMem (by decide)
  | status => exact guarded_of_notMem (OperandKinds.status h).or_notMem
  | alternatives => exact AlternativesKinds.guarded h

/-! ### The kinds of what the grammar finds -/

theorem RunAt.kinds_eq {p : Char → Bool} (h : RunAt p kind input tokens rest) :
    tokens.map Token.kind = [kind] := by
  obtain ⟨text, -, -, -, -, rfl⟩ := h
  rfl

theorem KeywordAt.kinds_eq {word : List Char} (h : KeywordAt word kind input tokens rest) :
    tokens.map Token.kind = [kind] := by
  obtain ⟨text, -, -, rfl⟩ := h
  rfl

theorem ValueAt.kinds_eq (h : ValueAt input tokens rest) :
    tokens.map Token.kind = [.doneValue] :=
  h.elim KeywordAt.kinds_eq KeywordAt.kinds_eq

theorem StatusAt.statusKinds (h : StatusAt input tokens rest) :
    StatusKinds (tokens.map Token.kind) := by
  cases h with
  | glued hmark hvalue =>
    rw [List.map_append, hmark.kinds_eq, hvalue.kinds_eq]
    exact .glued
  | spaced hmark hgap hvalue =>
    rw [List.map_append, List.map_append, hmark.kinds_eq, RunAt.kinds_eq hgap, hvalue.kinds_eq]
    exact .spaced

theorem OperandAt.operandKinds (h : OperandAt .orTerm input tokens rest) :
    OperandKinds (tokens.map Token.kind) := by
  cases h with
  | status h => exact .status h.statusKinds
  | term _ h =>
    rw [RunAt.kinds_eq h]
    exact .term

theorem LinkAt.exists_operandKinds (h : LinkAt input tokens rest) :
    ∃ left, OperandKinds left ∧ tokens.map Token.kind = left ++ keywordKinds := by
  obtain ⟨hleft, hbefore, hword, hafter⟩ := h
  refine ⟨_, hleft.operandKinds, ?_⟩
  rw [List.map_append, List.map_append, List.map_append, RunAt.kinds_eq hbefore, hword.kinds_eq,
    RunAt.kinds_eq hafter]
  rfl

theorem AlternativesAt.alternativesKinds (h : AlternativesAt input tokens rest) :
    AlternativesKinds (tokens.map Token.kind) := by
  induction h with
  | last hlink _ hop =>
    obtain ⟨left, hleft, hkinds⟩ := hlink.exists_operandKinds
    rw [List.map_append, hkinds, List.append_assoc]
    exact .two hleft hop.operandKinds
  | more hlink _ ih =>
    obtain ⟨left, hleft, hkinds⟩ := hlink.exists_operandKinds
    rw [List.map_append, hkinds, List.append_assoc]
    exact .more hleft ih

/-! ### Terms -/

/-- The text is one word. -/
def IsTerm (text : String) : Prop :=
  text ≠ "" ∧ ∀ c ∈ text.toList, isBlank c = false

/-- The terms among the tokens are words. -/
def HasTerms (tokens : List Token) : Prop :=
  ∀ token ∈ tokens, token.kind = .andTerm ∨ token.kind = .orTerm → IsTerm token.text

theorem HasTerms.append {others : List Token} (h : HasTerms tokens) (h' : HasTerms others) :
    HasTerms (tokens ++ others) := by
  intro token htoken
  exact (List.mem_append.mp htoken).elim (h token) (h' token)

theorem hasTerms_of_kinds_eq (h : tokens.map Token.kind = [kind])
    (hkind : kind ≠ .andTerm ∧ kind ≠ .orTerm) : HasTerms tokens := by
  intro token htoken hterm
  have hmem : token.kind ∈ tokens.map Token.kind := List.mem_map_of_mem htoken
  rw [h, List.mem_singleton] at hmem
  rw [hmem] at hterm
  exact absurd hterm (not_or.mpr hkind)

theorem BlanksAt.hasTerms (h : BlanksAt input tokens rest) : HasTerms tokens :=
  hasTerms_of_kinds_eq (RunAt.kinds_eq h) (by decide)

/-- A word is one token, and one term. -/
theorem WordAt.exists_isTerm (h : WordAt kind input tokens rest) :
    ∃ text, IsTerm text ∧ tokens = [⟨kind, text⟩] := by
  obtain ⟨text, hne, hall, -, -, rfl⟩ := h
  refine ⟨String.ofList text, ⟨mt String.ofList_eq_empty_iff.mp hne, fun c hc => ?_⟩, rfl⟩
  rw [String.toList_ofList] at hc
  simpa using hall c hc

theorem WordAt.hasTerms (h : WordAt kind input tokens rest) : HasTerms tokens := by
  obtain ⟨text, hterm, rfl⟩ := h.exists_isTerm
  intro token htoken _
  rwa [List.mem_singleton.mp htoken]

theorem StatusAt.hasTerms (h : StatusAt input tokens rest) : HasTerms tokens := by
  have hmark : ∀ {i ts r}, KeywordAt ['i', 's', ':'] .donePrefix i ts r → HasTerms ts :=
    fun h => hasTerms_of_kinds_eq h.kinds_eq (by decide)
  have hvalue : ∀ {i ts r}, ValueAt i ts r → HasTerms ts :=
    fun h => hasTerms_of_kinds_eq h.kinds_eq (by decide)
  cases h with
  | glued hm hv => exact (hmark hm).append (hvalue hv)
  | spaced hm hgap hv => exact ((hmark hm).append hgap.hasTerms).append (hvalue hv)

theorem OperandAt.hasTerms (h : OperandAt kind input tokens rest) : HasTerms tokens := by
  cases h with
  | status h => exact h.hasTerms
  | term _ h => exact WordAt.hasTerms h

theorem LinkAt.hasTerms (h : LinkAt input tokens rest) : HasTerms tokens := by
  obtain ⟨hleft, hbefore, hword, hafter⟩ := h
  have hkeyword := hasTerms_of_kinds_eq hword.kinds_eq (by decide)
  exact hleft.hasTerms.append (hbefore.hasTerms.append (hkeyword.append hafter.hasTerms))

theorem AlternativesAt.hasTerms (h : AlternativesAt input tokens rest) : HasTerms tokens := by
  induction h with
  | last hlink _ hop => exact hlink.hasTerms.append hop.hasTerms
  | more hlink _ ih => exact hlink.hasTerms.append ih

end Agenda.Search

/-
Agenda/Proofs/Search/Rendering.lean

Reading the text of a query gives the query back.  Conditions are written with
nothing but blanks between them, so the reader has to find where each of them
ends.  One condition is one chunk, whatever follows it:

    parseNext (condition ++ more) = { condition's tokens, more }

as long as `more` ends a word and does not start with the keyword
(`parseNext_render`), and both hold of what follows a condition in the text of
a query.

Not every query is the reading of some text.  `Query.Plain` names those that
are written back as they were read: a term is one word in lower case that is no
keyword and does not start with a status predicate, a group has at least two
alternatives, and one status predicate at most stands alone.
-/
import Agenda.Proofs.Search.Juxtaposition
import Agenda.Proofs.Text.LowerCase

namespace Agenda.Search

open Text

variable {more : List Char} {kind : TokenKind}

/-! ### Plain queries -/

/-- A text that is read as one term, the term itself. -/
structure PlainTerm (text : String) : Prop where
  /-- There is something to read. -/
  ne_empty : text ≠ ""
  /-- It is one word. -/
  not_blank : ∀ c ∈ text.toList, isBlank c = false
  /-- Reading it does not change it. -/
  lower_eq : Text.lower text = text
  /-- It is not the keyword between alternatives. -/
  ne_or : text ≠ "or"
  /-- It is not the mark of a status predicate, which could go on behind a blank. -/
  ne_mark : text ≠ "is:"
  /-- No status predicate stands at its start. -/
  not_status : ∀ state : DoneState, ¬ state.render.toList <+: text.toList

/-- The operand is written as it was read. -/
def Operand.Plain : Operand → Prop
  | .term text => PlainTerm text
  | .status _ => True

/-- The condition is written as it was read. -/
def Condition.Plain : Condition → Prop
  | .anyOf operands => 2 ≤ operands.length ∧ ∀ operand ∈ operands, operand.Plain
  | .allTerms terms => terms.length = 1 ∧ ∀ text ∈ terms, PlainTerm text
  | .status _ => True
  | .unconstrained => False

/-- The query is written as it was read. -/
structure Query.Plain (query : Query) : Prop where
  /-- Every condition is. -/
  conditions : ∀ condition ∈ query.conditions, condition.Plain
  /-- No second status predicate stands alone. -/
  status : query.conditions.countP Condition.isStatus ≤ 1

/-! ### The tokens of a condition -/

/-- The tokens of an alternative. -/
def Operand.tokens (kind : TokenKind) : Operand → List Token
  | .term text => [⟨kind, text⟩]
  | .status state => [⟨.donePrefix, "is:"⟩, ⟨.doneValue, state.keyword⟩]

/-- The tokens between two alternatives. -/
def orTokens : List Token :=
  [⟨.whitespace, " "⟩, ⟨.or, "OR"⟩, ⟨.whitespace, " "⟩]

/-- The tokens of a condition. -/
def Condition.tokens : Condition → List Token
  | .anyOf operands => orTokens.intercalate (operands.map (Operand.tokens .orTerm))
  | .allTerms terms => terms.map fun text => ⟨.andTerm, text⟩
  | .status state => Operand.tokens .andTerm (.status state)
  | .unconstrained => []

theorem PlainTerm.normalize_singleton {text : String} (h : PlainTerm text)
    (hkind : kind.isNoise = false) : normalize [⟨kind, text⟩] = [⟨kind, text⟩] := by
  simp [normalize, hkind, h.lower_eq]

theorem normalize_status (state : DoneState) :
    normalize (Operand.tokens kind (.status state)) = [⟨.doneValue, state.keyword⟩] := by
  have hlower : Text.lower state.keyword = state.keyword := by cases state <;> decide +kernel
  simp [normalize, Operand.tokens, TokenKind.isNoise, hlower]

@[simp] theorem ofKeyword?_keyword (state : DoneState) :
    DoneState.ofKeyword? state.keyword = some state := by
  cases state <;> rfl

/-- An alternative is told by its tokens. -/
theorem Operand.Plain.filterMap_normalize {operand : Operand} (h : operand.Plain) :
    (normalize (operand.tokens .orTerm)).filterMap Operand.ofToken? = [operand] := by
  cases operand with
  | term text =>
    rw [Operand.tokens, PlainTerm.normalize_singleton h rfl]
    rfl
  | status state =>
    rw [normalize_status]
    simp [Operand.ofToken?]

/-- The tokens between alternatives stand for none. -/
theorem normalize_orTokens : normalize orTokens = [⟨.or, "or"⟩] := by
  decide +kernel

theorem filterMap_normalize_alternatives {operands : List Operand}
    (h : ∀ operand ∈ operands, operand.Plain) :
    (normalize (Condition.anyOf operands).tokens).filterMap Operand.ofToken? = operands := by
  induction operands with
  | nil => rfl
  | cons operand operands ih =>
    have hfirst := (h operand List.mem_cons_self).filterMap_normalize
    have hrest := ih fun o ho => h o (List.mem_cons_of_mem operand ho)
    rw [Condition.tokens] at hrest ⊢
    cases operands with
    | nil => rwa [List.map_singleton, List.intercalate_singleton]
    | cons next operands =>
      rw [List.map_cons, List.intercalate_cons_of_ne_nil (by simp), normalize_append,
        normalize_append, List.filterMap_append, List.filterMap_append, hfirst, hrest,
        normalize_orTokens]
      rfl

theorem exists_cons_cons {α : Type} {l : List α} (h : 2 ≤ l.length) :
    ∃ a b l', l = a :: b :: l' := by
  match l, h with
  | a :: b :: l', _ => exact ⟨a, b, l', rfl⟩

/-- **The tokens of a plain condition stand for it.** -/
theorem Condition.Plain.ofTokens_normalize {condition : Condition} (h : condition.Plain) :
    Condition.ofTokens (normalize condition.tokens) = condition := by
  cases condition with
  | anyOf operands =>
    obtain ⟨hlength, hplain⟩ := h
    have hor : ((normalize (Condition.anyOf operands).tokens).any fun token =>
        token.kind = .or) = true := by
      obtain ⟨first, second, operands, rfl⟩ := exists_cons_cons hlength
      rw [Condition.tokens, List.map_cons, List.intercalate_cons_of_ne_nil (by simp),
        normalize_append, normalize_append, List.any_append, List.any_append, normalize_orTokens]
      simp
    rw [Condition.ofTokens, if_pos hor, filterMap_normalize_alternatives hplain]
  | allTerms terms =>
    obtain ⟨hlength, hplain⟩ := h
    obtain ⟨text, rfl⟩ := List.length_eq_one_iff.mp hlength
    rw [Condition.tokens, List.map_singleton,
      (hplain text List.mem_cons_self).normalize_singleton rfl]
    rfl
  | status state =>
    rw [Condition.tokens, normalize_status]
    simp [Condition.ofTokens, statusOfToken?]
  | unconstrained => exact h.elim

/-! ### Reading an alternative -/

/-- In a text in lower case a keyword is met as it is. -/
theorem KeywordAt.eq_append_of_lower {word input rest : List Char} {ts : List Token}
    (h : KeywordAt word kind input ts rest) (hinput : ∀ c ∈ input, c.toLower = c)
    (hword : ∀ c ∈ word, c.toLower = c) : input = word ++ rest := by
  obtain ⟨text, hsame, rfl, -⟩ := h
  rw [eq_of_sameIgnoringAsciiCase (fun c hc => hinput c (List.mem_append_left _ hc)) hword hsame]

/-- In a text in lower case a status predicate is met as it is, but for the blanks in it. -/
theorem StatusAt.exists_eq_append_of_lower {input rest : List Char} {ts : List Token}
    (h : StatusAt input ts rest) (hinput : ∀ c ∈ input, c.toLower = c) :
    ∃ gap, ∃ state : DoneState, (∀ c ∈ gap, isBlank c = true) ∧
      input = "is:".toList ++ (gap ++ (state.keyword.toList ++ rest)) := by
  have hvalue : ∀ {i us}, ValueAt i us rest → (∀ c ∈ i, c.toLower = c) →
      ∃ state : DoneState, i = state.keyword.toList ++ rest := by
    rintro i us (hword | hword) hi
    · exact ⟨.done, hword.eq_append_of_lower hi (forall_toLower_eq rfl)⟩
    · exact ⟨.notDone, hword.eq_append_of_lower hi (forall_toLower_eq rfl)⟩
  cases h with
  | glued hmark hval =>
    obtain rfl := hmark.eq_append_of_lower hinput (forall_toLower_eq rfl)
    obtain ⟨state, rfl⟩ := hvalue hval fun c hc => hinput c (List.mem_append_right _ hc)
    exact ⟨[], state, nofun, rfl⟩
  | spaced hmark hgap hval =>
    obtain rfl := hmark.eq_append_of_lower hinput (forall_toLower_eq rfl)
    obtain ⟨gap, -, hblank, -, rfl, -⟩ := hgap
    obtain ⟨state, rfl⟩ := hvalue hval fun c hc =>
      hinput c (List.mem_append_right _ (List.mem_append_right _ hc))
    exact ⟨gap, state, hblank, rfl⟩

namespace PlainTerm

variable {text : String}

theorem toList_ne_nil (h : PlainTerm text) : text.toList ≠ [] := by
  simpa using h.ne_empty

/-- No status predicate stands at the start of a plain term. -/
theorem not_statusAt (h : PlainTerm text) (ts : List Token) (r : List Char) :
    ¬ StatusAt text.toList ts r := by
  intro hstatus
  obtain ⟨gap, state, hblank, heq⟩ :=
    hstatus.exists_eq_append_of_lower (toLower_of_lower_eq h.lower_eq)
  cases gap with
  | nil =>
    refine h.not_status state ⟨r, ?_⟩
    rw [heq, DoneState.render, String.toList_append, List.nil_append, List.append_assoc]
  | cons c gap =>
    have hc := h.not_blank c (by rw [heq]; simp)
    rw [hblank c List.mem_cons_self] at hc
    cases hc

/-- What looks like the mark of a status predicate goes on in the term. -/
theorem markFollowed (h : PlainTerm text) : MarkFollowed text.toList := by
  intro mark r hmark
  have heq := hmark.eq_append_of_lower (toLower_of_lower_eq h.lower_eq) (forall_toLower_eq rfl)
  cases r with
  | nil => exact absurd (String.toList_inj.mp (heq : text.toList = "is:".toList)) h.ne_mark
  | cons c r => exact ⟨c, List.mem_cons_self, h.not_blank c (by rw [heq]; simp)⟩

end PlainTerm

theorem statusAt_render (state : DoneState) :
    StatusAt state.render.toList (Operand.tokens kind (.status state)) [] := by
  refine .glued (r := state.keyword.toList) ⟨"is:".toList, by decide, ?_, rfl⟩ ?_
  · rw [DoneState.render, String.toList_append]
  · cases state with
    | done => exact .inl ⟨_, by decide, rfl, rfl⟩
    | notDone => exact .inr ⟨_, by decide, rfl, rfl⟩

theorem markFollowed_render (state : DoneState) : MarkFollowed state.render.toList := by
  intro mark r hmark
  have hlower : ∀ c ∈ state.render.toList, c.toLower = c := by
    cases state <;> exact forall_toLower_eq rfl
  have heq := hmark.eq_append_of_lower hlower (forall_toLower_eq rfl)
  rw [DoneState.render, String.toList_append] at heq
  rw [← List.append_cancel_left heq]
  cases state with
  | done => exact ⟨'d', List.mem_cons_self, rfl⟩
  | notDone => exact ⟨'n', List.mem_cons_self, rfl⟩

/-- **A plain operand is read as a whole**, where the word ends behind it. -/
theorem Operand.Plain.operandAt {operand : Operand} (h : operand.Plain) (hmore : EndsWord more) :
    OperandAt kind (operand.render.toList ++ more) (operand.tokens kind) more := by
  cases operand with
  | term text =>
    have hword : OperandAt kind text.toList [⟨kind, text⟩] [] := by
      refine .term (PlainTerm.not_statusAt h)
        ⟨text.toList, PlainTerm.toList_ne_nil h, fun c hc => ?_, nofun,
          (List.append_nil _).symm, ?_⟩
      · simp [PlainTerm.not_blank h c hc]
      · rw [Token.ofList, String.ofList_toList]
    exact hword.append hmore (PlainTerm.markFollowed h)
  | status state =>
    have hstatus : StatusAt state.render.toList (Operand.tokens kind (.status state)) [] :=
      statusAt_render state
    exact .append hmore (markFollowed_render state) (.status hstatus)

theorem Operand.Plain.render_not_blank {operand : Operand} (h : operand.Plain) :
    ∀ c ∈ operand.render.toList, isBlank c = false := by
  cases operand with
  | term text => exact PlainTerm.not_blank h
  | status state => cases state <;> exact forall_not_blank rfl

theorem Operand.Plain.render_ne_nil {operand : Operand} (h : operand.Plain) :
    operand.render.toList ≠ [] := by
  cases operand with
  | term text => exact PlainTerm.toList_ne_nil h
  | status state => cases state <;> decide

theorem Operand.Plain.render_not_or {operand : Operand} (h : operand.Plain) :
    sameIgnoringAsciiCase operand.render.toList ['o', 'r'] = false := by
  cases operand with
  | term text =>
    by_contra hsame
    rw [Bool.not_eq_false] at hsame
    have heq := eq_of_sameIgnoringAsciiCase (toLower_of_lower_eq (PlainTerm.lower_eq h))
      (forall_toLower_eq rfl) hsame
    exact PlainTerm.ne_or h (String.toList_inj.mp (heq : text.toList = "or".toList))
  | status state => cases state <;> decide

/-- Nothing but a word stands at the start of what is written for an operand. -/
theorem Operand.Plain.head?_render {operand : Operand} (h : operand.Plain) (more : List Char) :
    ∀ c ∈ (operand.render.toList ++ more).head?, isBlank c = false := by
  intro c hc
  rw [List.head?_append_of_ne_nil _ h.render_ne_nil] at hc
  exact h.render_not_blank c (List.mem_of_mem_head? hc)

/-- A text that starts with a plain operand does not start with the keyword. -/
theorem Operand.Plain.startsPlainly {operand : Operand} (h : operand.Plain)
    (hmore : EndsWord more) : StartsPlainly (operand.render.toList ++ more) := by
  intro word rest heq hsame hends
  rw [dropBlanks_eq_self (h.head?_render more)] at heq
  -- both words end where the first blank is
  obtain ⟨r, hr, rfl⟩ := exists_append_of_append_eq hmore (not_blank_of_or hsame) heq
  cases r with
  | nil =>
    have hnot := h.render_not_or
    rw [hr, List.append_nil, hsame] at hnot
    cases hnot
  | cons c r =>
    have hc := h.render_not_blank c (by rw [hr]; simp)
    rw [hends c rfl] at hc
    cases hc

/-! ### Reading a condition -/

theorem Operand.Plain.linkAt {operand : Operand} (h : operand.Plain)
    (hmore : ∀ c ∈ more.head?, isBlank c = false) :
    LinkAt (operand.render.toList ++ (" OR ".toList ++ more)) (operand.tokens .orTerm ++ orTokens)
      more := by
  have hor : " OR ".toList ++ more = [' '] ++ (['O', 'R'] ++ ([' '] ++ more)) := rfl
  rw [hor]
  exact .mk (h.operandAt (endsWord_cons (by decide) _))
    ⟨[' '], by simp, List.forall_mem_singleton.mpr rfl, by rintro c ⟨⟩; rfl, rfl, rfl⟩
    ⟨['O', 'R'], by decide, rfl, rfl⟩
    ⟨[' '], by simp, List.forall_mem_singleton.mpr rfl, hmore, rfl, rfl⟩

@[simp] theorem render_anyOf_singleton (operand : Operand) :
    (Condition.anyOf [operand]).render = operand.render := by
  simp [Condition.render]

@[simp] theorem tokens_anyOf_singleton (operand : Operand) :
    (Condition.anyOf [operand]).tokens = operand.tokens .orTerm :=
  List.intercalate_singleton

theorem toList_render_anyOf_cons (operand : Operand) {operands : List Operand}
    (hne : operands ≠ []) :
    (Condition.anyOf (operand :: operands)).render.toList =
      operand.render.toList ++ (" OR ".toList ++ (Condition.anyOf operands).render.toList) := by
  simp only [Condition.render, String.toList_intercalate, List.map_cons]
  rw [List.intercalate_cons_of_ne_nil (by simpa using hne), List.append_assoc]

theorem tokens_anyOf_cons (operand : Operand) {operands : List Operand} (hne : operands ≠ []) :
    (Condition.anyOf (operand :: operands)).tokens =
      (operand.tokens .orTerm ++ orTokens) ++ (Condition.anyOf operands).tokens := by
  simp only [Condition.tokens, List.map_cons]
  rw [List.intercalate_cons_of_ne_nil (by simpa using hne)]

/-- A group starts with the word of its first alternative. -/
theorem exists_render_anyOf_cons (operand : Operand) (operands : List Operand) :
    ∃ tail, EndsWord tail ∧
      (Condition.anyOf (operand :: operands)).render.toList = operand.render.toList ++ tail := by
  cases operands with
  | nil => exact ⟨[], endsWord_nil, by simp⟩
  | cons next operands =>
    exact ⟨_, endsWord_cons (by decide) _, toList_render_anyOf_cons operand (by simp)⟩

/-- **A group is read as a whole**, link by link. -/
theorem alternativesAt_render {operand : Operand} {operands : List Operand} (hne : operands ≠ [])
    (h : ∀ o ∈ operand :: operands, o.Plain) (hmore : EndsWord more)
    (hplain : StartsPlainly more) :
    AlternativesAt ((Condition.anyOf (operand :: operands)).render.toList ++ more)
      (Condition.anyOf (operand :: operands)).tokens more := by
  induction operands generalizing operand with
  | nil => exact absurd rfl hne
  | cons next operands ih =>
    have hnext : next.Plain := h next (by simp)
    obtain ⟨tail, -, htail⟩ := exists_render_anyOf_cons next operands
    have hhead : ∀ c ∈ ((Condition.anyOf (next :: operands)).render.toList ++ more).head?,
        isBlank c = false := by
      rw [htail, List.append_assoc]
      exact hnext.head?_render _
    have hlink := (h operand List.mem_cons_self).linkAt hhead
    rw [toList_render_anyOf_cons operand hne, List.append_assoc, List.append_assoc,
      tokens_anyOf_cons operand hne]
    cases operands with
    | nil =>
      -- the last alternative is not joined to what follows the group
      have hlast : OperandAt .orTerm _ _ more := hnext.operandAt hmore
      rw [render_anyOf_singleton] at hlink ⊢
      rw [tokens_anyOf_singleton]
      exact .last hlink (hlast.not_linkAt hplain) hlast
    | cons _ _ => exact .more hlink (ih (by simp) fun o ho => h o (List.mem_cons_of_mem _ ho))

/-- A plain condition starts with the word of an operand. -/
theorem Condition.Plain.exists_operand {condition : Condition} (h : condition.Plain) :
    ∃ operand : Operand, ∃ tail, operand.Plain ∧ EndsWord tail ∧
      condition.render.toList = operand.render.toList ++ tail := by
  cases condition with
  | anyOf operands =>
    obtain ⟨hlength, hplain⟩ := h
    obtain ⟨first, second, operands, rfl⟩ := exists_cons_cons hlength
    obtain ⟨tail, htail, heq⟩ := exists_render_anyOf_cons first (second :: operands)
    exact ⟨first, tail, hplain first List.mem_cons_self, htail, heq⟩
  | allTerms terms =>
    obtain ⟨hlength, hplain⟩ := h
    obtain ⟨text, rfl⟩ := List.length_eq_one_iff.mp hlength
    exact ⟨.term text, [], hplain text List.mem_cons_self, endsWord_nil,
      by simp [Condition.render, Operand.render]⟩
  | status state => exact ⟨.status state, [], trivial, endsWord_nil, (List.append_nil _).symm⟩
  | unconstrained => exact h.elim

/-- **A plain condition is one chunk**, where what follows it is not joined to it. -/
theorem parseNext_render {condition : Condition} (h : condition.Plain) (hmore : EndsWord more)
    (hplain : StartsPlainly more) :
    parseNext (condition.render.toList ++ more) = { tokens := condition.tokens, rest := more } := by
  -- a single operand starts no group
  have hsingle : ∀ operand : Operand, operand.Plain →
      parseNext (operand.render.toList ++ more) =
        { tokens := operand.tokens .andTerm, rest := more } := by
    intro operand ho
    refine parseNext_of_operandAt (alternatives_eq_none_iff.mpr (.inl ?_)) (ho.operandAt hmore)
    exact (ho.operandAt hmore).not_linkAt hplain
  cases condition with
  | anyOf operands =>
    obtain ⟨hlength, hoperands⟩ := h
    obtain ⟨first, second, operands, rfl⟩ := exists_cons_cons hlength
    exact parseNext_of_alternativesAt (alternativesAt_render (by simp) hoperands hmore hplain)
  | allTerms terms =>
    obtain ⟨hlength, hterms⟩ := h
    obtain ⟨text, rfl⟩ := List.length_eq_one_iff.mp hlength
    have hrender : (Condition.allTerms [text]).render = (Operand.term text).render := by
      simp [Condition.render, Operand.render]
    rw [hrender]
    exact hsingle (.term text) (hterms text List.mem_cons_self)
  | status state => exact hsingle (.status state) trivial
  | unconstrained => exact h.elim

/-! ### Reading a query -/

/-- What is written for some conditions behind another one. -/
def renderTail (conditions : List Condition) : List Char :=
  conditions.flatMap fun condition => ' ' :: condition.render.toList

theorem renderTail_cons (condition : Condition) (conditions : List Condition) :
    renderTail (condition :: conditions) =
      ' ' :: (condition.render.toList ++ renderTail conditions) :=
  List.flatMap_cons

theorem toList_render_cons (condition : Condition) (conditions : List Condition) :
    (Query.render { conditions := condition :: conditions }).toList =
      condition.render.toList ++ renderTail conditions := by
  induction conditions generalizing condition with
  | nil => simp [Query.render, renderTail]
  | cons next conditions ih =>
    have hnext := ih next
    simp only [Query.render, String.toList_intercalate, List.map_cons] at hnext ⊢
    rw [List.intercalate_cons_of_ne_nil (by simp), hnext, renderTail_cons, List.append_assoc]
    rfl

theorem endsWord_renderTail (conditions : List Condition) : EndsWord (renderTail conditions) := by
  cases conditions with
  | nil => exact endsWord_nil
  | cons condition conditions =>
    rw [renderTail_cons]
    exact endsWord_blank _

theorem startsPlainly_renderTail {conditions : List Condition}
    (h : ∀ condition ∈ conditions, condition.Plain) : StartsPlainly (renderTail conditions) := by
  cases conditions with
  | nil =>
    intro word rest heq hsame
    exact absurd (List.append_eq_nil_iff.mp heq.symm).1 (ne_nil_of_or hsame)
  | cons condition conditions =>
    obtain ⟨operand, tail, hoperand, htail, heq⟩ := (h condition List.mem_cons_self).exists_operand
    have hends : EndsWord (tail ++ renderTail conditions) := by
      cases tail with
      | nil => exact endsWord_renderTail conditions
      | cons c tail => exact htail
    have hplain := hoperand.startsPlainly hends
    rwa [renderTail_cons, heq, List.append_assoc, StartsPlainly, ← List.nil_append (' ' :: _),
      dropBlanks_seam (by simp)]

/-- The condition at the start of a text is read first. -/
theorem asking_chunkConditions_append {condition : Condition} (h : condition.Plain)
    (hmore : EndsWord more) (hplain : StartsPlainly more) :
    asking (chunkConditions (condition.render.toList ++ more)) =
      condition :: asking (chunkConditions more) := by
  obtain ⟨operand, tail, hoperand, -, heq⟩ := h.exists_operand
  have hne : condition.render.toList ++ more ≠ [] := by
    rw [heq]
    simp [hoperand.render_ne_nil]
  have hasks : condition ≠ .unconstrained := by
    rintro rfl
    exact h
  rw [chunkConditions_of_parseNext hne (parseNext_render h hmore hplain), h.ofTokens_normalize,
    asking, List.filter_cons_of_pos (by simpa using hasks)]
  rfl

theorem asking_chunkConditions_renderTail {conditions : List Condition}
    (h : ∀ condition ∈ conditions, condition.Plain) :
    asking (chunkConditions (renderTail conditions)) = conditions := by
  induction conditions with
  | nil => rw [renderTail, List.flatMap_nil, chunkConditions_nil]; rfl
  | cons condition conditions ih =>
    have hrest : ∀ c ∈ conditions, c.Plain := fun c hc => h c (List.mem_cons_of_mem condition hc)
    -- the blank in front asks for nothing
    rw [renderTail_cons, ← asking_dropBlanks, ← List.nil_append (' ' :: _),
      dropBlanks_seam (by simp), asking_dropBlanks,
      asking_chunkConditions_append (h condition List.mem_cons_self)
        (endsWord_renderTail conditions) (startsPlainly_renderTail hrest), ih hrest]

/-- **Every condition of the text of a query is found**, and no other. -/
theorem asking_chunkConditions_render {query : Query} (h : query.Plain) :
    asking (chunkConditions query.render.toList) = query.conditions := by
  obtain ⟨conditions⟩ := query
  cases conditions with
  | nil => exact congrArg asking chunkConditions_nil
  | cons condition conditions =>
    have hrest : ∀ c ∈ conditions, c.Plain :=
      fun c hc => h.conditions c (List.mem_cons_of_mem condition hc)
    rw [toList_render_cons, asking_chunkConditions_append (h.conditions _ List.mem_cons_self)
      (endsWord_renderTail conditions) (startsPlainly_renderTail hrest),
      asking_chunkConditions_renderTail hrest]

/-- Where one status predicate at most stands alone, every condition counts. -/
theorem significant_eq_self {conditions : List Condition}
    (hasks : ∀ condition ∈ conditions, condition ≠ .unconstrained)
    (hcount : conditions.countP Condition.isStatus ≤ 1) :
    significant false conditions = conditions := by
  induction conditions with
  | nil => rfl
  | cons condition conditions ih =>
    have ih := ih fun c hc => hasks c (List.mem_cons_of_mem condition hc)
    rw [List.countP_cons] at hcount
    cases condition with
    | status state =>
      -- no further one stands alone
      simp only [isStatus_status, if_true] at hcount
      have hnone : conditions.countP Condition.isStatus = 0 := by omega
      have hself := ih (by omega)
      rw [List.countP_eq_zero] at hnone
      rw [significant, if_neg (by simp), significant_eq_filter false, hself,
        List.filter_eq_self.mpr fun c hc => by simpa using hnone c hc]
    | anyOf operands => exact congrArg _ (ih (by omega))
    | allTerms terms => exact congrArg _ (ih (by omega))
    | unconstrained => exact absurd rfl (hasks _ List.mem_cons_self)

/-- **Reading the text of a plain query gives the query back**, with all conditions in their
order. -/
theorem parse_render {query : Query} (h : query.Plain) : Query.parse query.render = query := by
  have hasks : ∀ condition ∈ query.conditions, condition ≠ .unconstrained := by
    rintro condition hc rfl
    exact h.conditions _ hc
  have hconditions : (Query.parse query.render).conditions = query.conditions := by
    rw [conditions_parse, ← significant_asking, asking_chunkConditions_render h,
      significant_eq_self hasks h.status]
  exact congrArg Query.mk hconditions

/-- Terms that start like a keyword, a group in between and a status predicate that stands alone. -/
theorem parse_render_errands :
    let query : Query := { conditions :=
      [.allTerms ["orange"], .anyOf [.status .notDone, .term "is:d", .term "ςtraße"],
       .status .done, .allTerms ["basis:"]] }
    query.Plain ∧ query.render = "orange is:notdone OR is:d OR ςtraße is:done basis:" ∧
      Query.parse query.render = query := by
  intro query
  have hterm : ∀ text ∈ ["orange", "is:d", "ςtraße", "basis:"], PlainTerm text := by
    intro text htext
    simp only [List.mem_cons, List.not_mem_nil, or_false] at htext
    rcases htext with rfl | rfl | rfl | rfl <;>
      exact ⟨by decide, forall_not_blank (by decide +kernel), by decide +kernel, by decide,
        by decide, by rintro (_ | _) <;> decide +kernel⟩
  have h : query.Plain := by
    refine ⟨fun condition hc => ?_, by decide⟩
    simp only [query, List.mem_cons, List.not_mem_nil, or_false] at hc
    rcases hc with rfl | rfl | rfl | rfl
    · exact ⟨rfl, by simpa using hterm "orange" (by simp)⟩
    · refine ⟨by decide, fun operand ho => ?_⟩
      simp only [List.mem_cons, List.not_mem_nil, or_false] at ho
      rcases ho with rfl | rfl | rfl
      · exact trivial
      · exact hterm "is:d" (by simp)
      · exact hterm "ςtraße" (by simp)
    · exact trivial
    · exact ⟨rfl, by simpa using hterm "basis:" (by simp)⟩
  exact ⟨h, by decide +kernel, parse_render h⟩

end Agenda.Search

/-
Agenda/Proofs/Search/Juxtaposition.lean

Two search texts next to each other mean that both must hold.  The chunks of

    first ++ " " ++ second

are those of `first` followed by those of `second`, unless something straddles
the blank between them: a link, whose keyword is the last word of `first` or the
first word of `second`, or a status predicate, whose mark ends `first`.
`Separable` excludes the two, and nothing else can go wrong, since everything
else ends where a blank begins (`Agenda.Proofs.Search.Stability`).

Of the status predicates that stand alone a query keeps the first one, so one
in `first` hides those of `second`; apart from that, conditions are appended
(`conditions_parse_join`).
-/
import Agenda.Proofs.Search.Conditions
import Mathlib.Data.List.DropRight

namespace Agenda.Search

open Text

/-! ### Words -/

/-- The words of a text: its runs of characters that are not blank. -/
def wordsOf (text : List Char) : List (List Char) :=
  (text.splitOnP isBlank).filter (· ≠ [])

theorem wordsOf_append_cons {c : Char} (hc : isBlank c = true) (before after : List Char) :
    wordsOf (before ++ c :: after) = wordsOf before ++ wordsOf after := by
  rw [wordsOf, List.splitOnP_append_cons before after hc, List.filter_append]
  rfl

theorem wordsOf_cons {c : Char} (hc : isBlank c = true) (text : List Char) :
    wordsOf (c :: text) = wordsOf text :=
  wordsOf_append_cons hc [] text

theorem wordsOf_of_endsWord {more : List Char} (h : EndsWord more) (before : List Char) :
    wordsOf (before ++ more) = wordsOf before ++ wordsOf more := by
  cases more with
  | nil => rw [List.append_nil]; exact (List.append_nil _).symm
  | cons c more =>
    have hc := h c rfl
    rw [wordsOf_append_cons hc, wordsOf_cons hc]

theorem wordsOf_blanks_append {gap : List Char} (h : ∀ c ∈ gap, isBlank c = true)
    (text : List Char) : wordsOf (gap ++ text) = wordsOf text := by
  induction gap with
  | nil => rfl
  | cons c gap ih =>
    rw [List.cons_append, wordsOf_cons (h c List.mem_cons_self),
      ih fun d hd => h d (List.mem_cons_of_mem c hd)]

theorem wordsOf_blanks {gap : List Char} (h : ∀ c ∈ gap, isBlank c = true) : wordsOf gap = [] := by
  have hnil := wordsOf_blanks_append h []
  rwa [List.append_nil] at hnil

theorem wordsOf_word {word : List Char} (hne : word ≠ []) (h : ∀ c ∈ word, isBlank c = false) :
    wordsOf word = [word] := by
  rw [wordsOf, List.splitOnP_eq_singleton h]
  simp [hne]

/-! ### Texts that may stand next to each other -/

/-- Nothing straddles the blank between two texts: `first` does not end with the keyword or with
the mark of a status predicate, and `second` does not start with the keyword. -/
structure Separable (first second : String) : Prop where
  /-- The last word of `first` is not the keyword. -/
  last_word : ∀ word ∈ (wordsOf first.toList).getLast?,
    sameIgnoringAsciiCase word ['o', 'r'] = false
  /-- Without the blanks at its end, `first` does not end with the mark. -/
  no_mark :
    sameIgnoringAsciiCase ((first.toList.rdropWhile isBlank).rtake 3) ['i', 's', ':'] = false
  /-- The first word of `second` is not the keyword. -/
  first_word : ∀ word ∈ (wordsOf second.toList).head?,
    sameIgnoringAsciiCase word ['o', 'r'] = false

/-- Neither a link nor a status predicate is left open at the end of the text. -/
structure Closed (input : List Char) : Prop where
  /-- No keyword stands alone at the end. -/
  keyword : ∀ before word gap, input = before ++ (word ++ gap) →
    (∃ c ∈ before.getLast?, isBlank c = true) →
    sameIgnoringAsciiCase word ['o', 'r'] = true → ∃ c ∈ gap, isBlank c = false
  /-- No mark stands at the end. -/
  mark : ∀ before word gap, input = before ++ (word ++ gap) →
    sameIgnoringAsciiCase word ['i', 's', ':'] = true → ∃ c ∈ gap, isBlank c = false

/-- The text does not start with the keyword. -/
def StartsPlainly (input : List Char) : Prop :=
  ∀ word rest, dropBlanks input = word ++ rest →
    sameIgnoringAsciiCase word ['o', 'r'] = true → ¬ EndsWord rest

theorem Closed.of_append {before input : List Char} (h : Closed (before ++ input)) :
    Closed input := by
  refine ⟨fun b word gap heq hblank hword => ?_, fun b word gap heq hword => ?_⟩
  · refine h.keyword (before ++ b) word gap (by rw [heq, List.append_assoc]) ?_ hword
    obtain ⟨c, hc, hblank⟩ := hblank
    exact ⟨c, by rw [List.getLast?_append, Option.mem_def.mp hc]; rfl, hblank⟩
  · exact h.mark (before ++ b) word gap (by rw [heq, List.append_assoc]) hword

theorem Closed.markFollowed {input : List Char} (h : Closed input) : MarkFollowed input := by
  rintro mark r ⟨text, hsame, rfl, -⟩
  exact h.mark [] text r rfl hsame

/-- The keyword has no blanks. -/
theorem not_blank_of_or {word : List Char} (h : sameIgnoringAsciiCase word ['o', 'r'] = true) :
    ∀ c ∈ word, isBlank c = false :=
  not_blank_of_same (forall_not_blank rfl) h

theorem ne_nil_of_or {word : List Char} (h : sameIgnoringAsciiCase word ['o', 'r'] = true) :
    word ≠ [] := by
  rintro rfl
  cases h

theorem rdropWhile_append_blanks {text gap : List Char} (hgap : ∀ c ∈ gap, isBlank c = true)
    (htext : ∀ c ∈ text.getLast?, isBlank c = false) :
    (text ++ gap).rdropWhile isBlank = text := by
  rw [List.rdropWhile, List.reverse_append,
    List.dropWhile_append_of_pos fun c hc => hgap c (List.mem_reverse.mp hc)]
  rw [← List.head?_reverse] at htext
  rw [← dropBlanks, dropBlanks_eq_self htext, List.reverse_reverse]

/-- A text starts plainly if its first word is not the keyword. -/
theorem startsPlainly_of_head? {text : List Char}
    (h : ∀ word ∈ (wordsOf text).head?, sameIgnoringAsciiCase word ['o', 'r'] = false) :
    StartsPlainly text := by
  intro word rest heq hsame hends
  have hgap : ∀ c ∈ text.takeWhile isBlank, isBlank c = true :=
    fun c hc => List.mem_takeWhile_imp hc
  -- dropping blanks does not change the words
  have hsplit : text = text.takeWhile isBlank ++ (word ++ rest) := by
    rw [← heq, dropBlanks, List.takeWhile_append_dropWhile]
  have hwords : wordsOf text = word :: wordsOf rest := by
    rw [hsplit, wordsOf_blanks_append hgap, wordsOf_of_endsWord hends,
      wordsOf_word (ne_nil_of_or hsame) (not_blank_of_or hsame), List.singleton_append]
  have hfalse := h word (by rw [hwords]; rfl)
  rw [hsame] at hfalse
  cases hfalse

namespace Separable

variable {first second : String}

theorem closed (h : Separable first second) : Closed first.toList := by
  refine ⟨fun before word gap heq ⟨c, hc, hblank⟩ hsame => ?_, fun before word gap heq hsame => ?_⟩
  · by_contra hgap
    simp only [not_exists, not_and, Bool.not_eq_false] at hgap
    obtain ⟨before, rfl⟩ := List.getLast?_eq_some_iff.mp hc
    -- the word stands between blanks, so it is the last one
    have hends : EndsWord gap := fun d hd => hgap d (List.mem_of_mem_head? hd)
    have hlast : wordsOf first.toList = wordsOf before ++ [word] := by
      rw [heq, List.append_assoc, List.singleton_append, wordsOf_append_cons hblank,
        wordsOf_of_endsWord hends, wordsOf_blanks hgap, List.append_nil,
        wordsOf_word (ne_nil_of_or hsame) (not_blank_of_or hsame)]
    have hfalse := h.last_word word (by rw [hlast, List.getLast?_concat]; rfl)
    rw [hsame] at hfalse
    cases hfalse
  · by_contra hgap
    simp only [not_exists, not_and, Bool.not_eq_false] at hgap
    have hlength : word.length = 3 := length_eq_of_sameIgnoringAsciiCase hsame
    have hword : ∀ c ∈ word, isBlank c = false :=
      not_blank_of_same (forall_not_blank rfl) hsame
    -- without the blanks at its end the text ends with the mark
    have hlast : ∀ c ∈ (before ++ word).getLast?, isBlank c = false := by
      intro c hc
      have hne : word ≠ [] := List.ne_nil_of_length_eq_add_one hlength
      rw [List.getLast?_append_of_ne_nil _ hne] at hc
      exact hword c (List.mem_of_mem_getLast? hc)
    have hfalse := h.no_mark
    rw [heq, ← List.append_assoc, rdropWhile_append_blanks hgap hlast, List.rtake,
      List.length_append, hlength, Nat.add_sub_cancel, List.drop_left, hsame] at hfalse
    cases hfalse

theorem startsPlainly (h : Separable first second) : StartsPlainly second.toList :=
  startsPlainly_of_head? h.first_word

end Separable

/-! ### The blank in between -/

section Seam

variable {input second rest : List Char} {tokens : List Token} {kind : TokenKind}

theorem endsWord_blank (second : List Char) : EndsWord (' ' :: second) :=
  endsWord_cons (by decide) second

theorem BlanksAt.isBlank_of_head? (h : BlanksAt input tokens rest) :
    ∀ c ∈ input.head?, isBlank c = true := by
  obtain ⟨gap, hne, hall, -, rfl, -⟩ := h
  obtain ⟨c, gap, rfl⟩ := List.exists_cons_of_ne_nil hne
  rintro d hd
  rw [← Option.some.inj hd]
  exact hall c List.mem_cons_self

/-- After some blanks the text goes on with `second`. -/
theorem dropBlanks_seam (hinput : ∀ c ∈ input, isBlank c = true) (second : List Char) :
    dropBlanks (input ++ ' ' :: second) = dropBlanks second := by
  rw [dropBlanks, List.dropWhile_append_of_pos hinput]
  exact List.dropWhile_cons_of_pos (by decide)

/-- In a closed text something follows the keyword of a link. -/
theorem Closed.exists_after_keyword (hclosed : Closed input) {left before word : List Token}
    {r₁ r₂ r₃ : List Char} (hleft : OperandAt kind input left r₁) (hbefore : BlanksAt r₁ before r₂)
    (hword : KeywordAt ['o', 'r'] .or r₂ word r₃) : ∃ c ∈ r₃, isBlank c = false := by
  obtain ⟨gap, hne, hblank, -, rfl, -⟩ := hbefore
  obtain ⟨text, hsame, rfl, -⟩ := hword
  refine hclosed.keyword (textOf left ++ gap) text r₃ ?_ ?_ hsame
  · rw [List.append_assoc]
    exact hleft.eq_append
  · rw [List.getLast?_append_of_ne_nil _ hne]
    exact ⟨_, List.getLast?_eq_some_getLast hne, hblank _ (List.getLast_mem hne)⟩

/-- An operand is not joined to a text that does not start with the keyword. -/
theorem OperandAt.not_linkAt (h : OperandAt .orTerm input tokens rest) (hrest : StartsPlainly rest)
    (ts : List Token) (r : List Char) : ¬ LinkAt input ts r := by
  rintro ⟨hleft, hbefore, ⟨word, hsame, hsplit, -⟩, hafter⟩
  obtain ⟨-, rfl⟩ := h.unique hleft
  have hends : EndsWord _ := hafter.isBlank_of_head?
  exact hrest _ _ (hbefore.dropBlanks_eq.trans hsplit) hsame hends

/-- A closed text is left neither by a link nor by what its keyword stands between. -/
theorem LinkAt.of_append (hclosed : Closed input) (hsecond : StartsPlainly second)
    (h : LinkAt (input ++ ' ' :: second) tokens rest) :
    ∃ r, rest = r ++ ' ' :: second ∧ LinkAt input tokens r := by
  have hmore := endsWord_blank second
  obtain ⟨hleft, hbefore, hword, hafter⟩ := h
  obtain ⟨r₁, rfl, hleft'⟩ := hleft.of_append hmore hclosed.markFollowed
  by_cases hr₁ : ∃ c ∈ r₁, isBlank c = false
  · obtain ⟨r₂, rfl, hbefore'⟩ := hbefore.of_append hr₁
    obtain ⟨r₃, rfl, hword'⟩ := hword.of_append hmore (forall_not_blank rfl)
    -- the keyword is not the last word of the closed text
    have hr₃ := hclosed.exists_after_keyword hleft' hbefore' hword'
    obtain ⟨r₄, rfl, hafter'⟩ := hafter.of_append hr₃
    exact ⟨r₄, rfl, .mk hleft' hbefore' hword' hafter'⟩
  · -- only blanks are left of the closed text, so the keyword would be the first word of `second`
    simp only [not_exists, not_and, Bool.not_eq_false] at hr₁
    have hplain : StartsPlainly (r₁ ++ ' ' :: second) := by
      rwa [StartsPlainly, dropBlanks_seam hr₁ second]
    exact absurd (.mk hleft hbefore hword hafter) (hleft.not_linkAt hplain _ _)

theorem LinkAt.rest_ne_nil (hclosed : Closed input) (h : LinkAt input tokens rest) :
    rest ≠ [] := by
  rintro rfl
  obtain ⟨hleft, hbefore, hword, ⟨gap, -, hblank, -, rfl, -⟩⟩ := h
  obtain ⟨c, hc, hfalse⟩ := hclosed.exists_after_keyword hleft hbefore hword
  rw [List.append_nil] at hc
  rw [hblank c hc] at hfalse
  cases hfalse

theorem LinkAt.append {more : List Char} (hmore : EndsWord more) (hclosed : Closed input)
    (h : LinkAt input tokens rest) : LinkAt (input ++ more) tokens (rest ++ more) := by
  have hne := h.rest_ne_nil hclosed
  obtain ⟨hleft, hbefore, hword, hafter⟩ := h
  refine .mk (hleft.append hmore hclosed.markFollowed) (hbefore.append ?_) hword.append
    (hafter.append hne)
  rintro rfl
  obtain ⟨word, hsame, hnil, -⟩ := hword
  exact ne_nil_of_or hsame (List.append_eq_nil_iff.mp hnil.symm).1

theorem LinkAt.closed (hclosed : Closed input) (h : LinkAt input tokens rest) : Closed rest := by
  rw [h.eq_append] at hclosed
  exact hclosed.of_append

theorem AlternativesAt.append (hclosed : Closed input) (hsecond : StartsPlainly second)
    (h : AlternativesAt input tokens rest) :
    AlternativesAt (input ++ ' ' :: second) tokens (rest ++ ' ' :: second) := by
  have hmore := endsWord_blank second
  induction h with
  | last hlink hnone hop =>
    have hrest := hlink.closed hclosed
    refine .last (hlink.append hmore hclosed) (fun ts r hl => ?_)
      (hop.append hmore hrest.markFollowed)
    obtain ⟨r, -, hl⟩ := hl.of_append hrest hsecond
    exact hnone ts r hl
  | more hlink _ ih => exact .more (hlink.append hmore hclosed) (ih (hlink.closed hclosed))

/-- In a closed text the links do not go on to the end. -/
theorem Closed.not_linksToEnd (hclosed : Closed input) : ¬ LinksToEnd input := by
  intro h
  induction h with
  | last hlink => exact hlink.rest_ne_nil hclosed rfl
  | more hlink _ ih => exact ih (hlink.closed hclosed)

/-- **The first chunk ends before the blank in between**, if the text does not start with blanks. -/
theorem parseNext_append (hclosed : Closed input) (hsecond : StartsPlainly second) {c : Char}
    (hc : c ∈ input.head?) (hblank : isBlank c = false) :
    parseNext (input ++ ' ' :: second) =
        { tokens := (parseNext input).tokens, rest := (parseNext input).rest ++ ' ' :: second } ∧
      input = textOf (parseNext input).tokens ++ (parseNext input).rest := by
  cases hread : alternatives input with
  | some m =>
    have halt := alternativesAt_iff.mpr ⟨m, hread, rfl, rfl⟩
    rw [parseNext_of_alternativesAt halt]
    exact ⟨parseNext_of_alternativesAt (halt.append hclosed hsecond), halt.eq_append⟩
  | none =>
    have hne : input ≠ [] := by
      rintro rfl
      cases hc
    have hnoLink := (alternatives_eq_none_iff.mp hread).resolve_right hclosed.not_linksToEnd
    have hop := (parseNext_of_none hread hne).resolve_right fun hb => by
      rw [hb.isBlank_of_head? c hc] at hblank
      cases hblank
    have hjoined : alternatives (input ++ ' ' :: second) = none := by
      refine alternatives_eq_none_iff.mpr (.inl fun ts r hl => ?_)
      obtain ⟨r, -, hl⟩ := hl.of_append hclosed hsecond
      exact hnoLink ts r hl
    exact ⟨parseNext_of_operandAt hjoined
      (hop.append (endsWord_blank second) hclosed.markFollowed), hop.eq_append⟩

/-! ### Conditions -/

/-- **The conditions of two texts, one after the other**, but for those that ask for nothing. -/
theorem asking_chunkConditions_join (hclosed : Closed input) (hsecond : StartsPlainly second) :
    asking (chunkConditions (input ++ ' ' :: second)) =
      asking (chunkConditions input) ++ asking (chunkConditions second) := by
  induction hn : input.length using Nat.strong_induction_on generalizing input with
  | _ n ih =>
    rw [← asking_dropBlanks (input ++ _), ← asking_dropBlanks input]
    have hsplit : input.takeWhile isBlank ++ dropBlanks input = input :=
      List.takeWhile_append_dropWhile
    cases hdrop : dropBlanks input with
    | nil =>
      have hblank : ∀ c ∈ input, isBlank c = true := List.dropWhile_eq_nil_iff.mp hdrop
      rw [dropBlanks_seam hblank, asking_dropBlanks, chunkConditions_nil]
      rfl
    | cons c cs =>
      have hclosed' : Closed (c :: cs) := by
        rw [← hdrop]
        rw [← hsplit] at hclosed
        exact hclosed.of_append
      have hc : isBlank c = false := head?_dropBlanks input c (by rw [hdrop]; rfl)
      have hjoined : dropBlanks (input ++ ' ' :: second) = (c :: cs) ++ ' ' :: second := by
        rw [dropBlanks, List.dropWhile_append, ← dropBlanks, hdrop]
        rfl
      -- one chunk is read from what is left of the first text
      obtain ⟨hnext, htext⟩ := parseNext_append hclosed' hsecond (c := c) rfl hc
      have hshort : (parseNext (c :: cs)).rest.length < n := by
        have hlt := length_rest_parseNext_lt (List.cons_ne_nil c cs)
        have hle : (c :: cs).length ≤ input.length :=
          hdrop ▸ (List.dropWhile_suffix isBlank).length_le
        omega
      have hrest : Closed (parseNext (c :: cs)).rest := by
        rw [htext] at hclosed'
        exact hclosed'.of_append
      rw [hjoined, chunkConditions_of_ne_nil (List.cons_ne_nil c cs),
        chunkConditions_of_ne_nil (List.append_ne_nil_of_left_ne_nil (List.cons_ne_nil c cs) _),
        hnext]
      rw [← List.singleton_append, asking_append, ih _ hshort hrest rfl, ← List.append_assoc,
        ← asking_append]
      rfl

end Seam

/-! ### Queries -/

/-- A status predicate stands alone in the query. -/
def Query.hasStatus (query : Query) : Bool :=
  query.conditions.any Condition.isStatus

theorem toList_join (first second : String) :
    (first ++ " " ++ second).toList = first.toList ++ ' ' :: second.toList := by
  simp

/-- **Conditions are appended**, but for the status predicates of `second` if `first` has one. -/
theorem conditions_parse_join {first second : String} (h : Separable first second) :
    (Query.parse (first ++ " " ++ second)).conditions =
      (Query.parse first).conditions ++
        if (Query.parse first).hasStatus
        then (Query.parse second).conditions.filter fun condition => !condition.isStatus
        else (Query.parse second).conditions := by
  rw [Query.hasStatus, conditions_parse first, any_isStatus_significant, conditions_parse,
    conditions_parse second, toList_join, ← significant_asking,
    asking_chunkConditions_join h.closed h.startsPlainly, ← asking_append, significant_asking,
    significant_append, Bool.false_or]
  split
  · next hstatus => rw [hstatus, significant_eq_filter false]
  · next hstatus => rw [Bool.not_eq_true] at hstatus; rw [hstatus]

theorem admits_iff {query : Query} {listId : String} {item : Item} :
    query.admits listId item = true ↔ item.listId = listId ∧ ∀ condition ∈ query.conditions,
      condition.holds (Text.lower item.summary) item.isComplete = true := by
  rw [Query.admits, Bool.and_eq_true, decide_eq_true_iff, List.all_eq_true]

/-- **Juxtaposing search texts is conjunction.**  The conditions of the joined text are those of
`first` and then those of `second`, whose status predicates are dropped if `first` has one.  So
whatever the joined text admits, `first` admits, and unless both texts have a status predicate that
stands alone, the joined text admits what both admit. -/
theorem parse_join {first second : String} (h : Separable first second) :
    (Query.parse (first ++ " " ++ second)).conditions =
        (Query.parse first).conditions ++
          (if (Query.parse first).hasStatus
          then (Query.parse second).conditions.filter fun condition => !condition.isStatus
          else (Query.parse second).conditions) ∧
      (∀ listId item, (Query.parse (first ++ " " ++ second)).admits listId item = true →
        (Query.parse first).admits listId item = true) ∧
      (((Query.parse first).hasStatus && (Query.parse second).hasStatus) = false →
        ∀ listId item, (Query.parse (first ++ " " ++ second)).admits listId item =
          ((Query.parse first).admits listId item && (Query.parse second).admits listId item)) := by
  have hjoin := conditions_parse_join h
  refine ⟨hjoin, fun listId item hadmits => ?_, fun hstatus listId item => ?_⟩
  · rw [admits_iff, hjoin] at hadmits
    exact admits_iff.mpr ⟨hadmits.1, fun condition hc => hadmits.2 condition
      (List.mem_append_left _ hc)⟩
  · -- nothing is dropped
    have hall : (if (Query.parse first).hasStatus
        then (Query.parse second).conditions.filter fun condition => !condition.isStatus
        else (Query.parse second).conditions) = (Query.parse second).conditions := by
      split
      · next hfirst =>
        rw [hfirst, Bool.true_and, Query.hasStatus, List.any_eq_false] at hstatus
        exact List.filter_eq_self.mpr fun condition hc => by simpa using hstatus condition hc
      · rfl
    rw [hall] at hjoin
    rw [Query.admits, hjoin, List.all_append, Query.admits, Query.admits]
    cases decide (item.listId = listId) <;> simp

/-- A status predicate on either side: the second one is dropped. -/
theorem parse_join_statuses :
    Separable "is:doneor milk" "is:notdone orange" ∧
      (Query.parse ("is:doneor milk" ++ " " ++ "is:notdone orange")).conditions =
        [.status .done, .allTerms ["or"], .allTerms ["milk"], .allTerms ["orange"]] := by
  have h : Separable "is:doneor milk" "is:notdone orange" :=
    ⟨by decide +kernel, by decide +kernel, by decide +kernel⟩
  refine ⟨h, (parse_join h).1.trans ?_⟩
  decide +kernel

end Agenda.Search

/-
Agenda/Proofs/Search/Literal.lean

Searching for words.  A search text of plain words, which are not the keyword
and do not start with the mark of a status predicate, has one condition for
each of them: its lower case occurs in the lower case of the summary
(`conditions_parse_words`, `admits_words_iff`).

A word that stands in the summary literally is found there unless a sigma in
it has one form at the end of the word and another one inside of the summary
(`Agenda.Proofs.Text.FinalSigma`).  So a text of plain words finds what is
literally there if all of them are settled, and a single word does so only
then (`admits_literal`).
-/
import Agenda.Proofs.Search.Rendering
import Agenda.Proofs.Search.Spelling
import Agenda.Proofs.Text.FinalSigma

namespace Agenda.Search

open Text

variable {word rest input : List Char} {kind : TokenKind}

/-! ### Plain words -/

/-- The word is read as nothing but a word to search for. -/
structure PlainWord (word : List Char) : Prop where
  /-- It is not the keyword between alternatives. -/
  not_or : sameIgnoringAsciiCase word ['o', 'r'] = false
  /-- It does not start with the mark of a status predicate. -/
  not_mark : sameIgnoringAsciiCase (word.take 3) ['i', 's', ':'] = false

instance (word : List Char) : Decidable (PlainWord word) :=
  decidable_of_iff _ ⟨fun h => PlainWord.mk h.1 h.2, fun h => And.intro h.not_or h.not_mark⟩

/-- What a plain word asks for. -/
def Condition.ofWord (word : List Char) : Condition :=
  .allTerms [lower (String.ofList word)]

theorem PlainWord.not_keywordAt_mark (h : PlainWord word) (hrest : EndsWord rest)
    (ts : List Token) (r : List Char) :
    ¬ KeywordAt ['i', 's', ':'] .donePrefix (word ++ rest) ts r := by
  intro hmark
  obtain ⟨r, -, text, hsame, rfl, -⟩ := hmark.of_append hrest (forall_not_blank rfl)
  have hlength : text.length = 3 := length_eq_of_sameIgnoringAsciiCase hsame
  have hfalse := h.not_mark
  rw [← hlength, List.take_left, hsame] at hfalse
  cases hfalse

theorem PlainWord.operandAt (h : PlainWord word) (hne : word ≠ [])
    (hword : ∀ c ∈ word, isBlank c = false) (hrest : EndsWord rest) :
    OperandAt kind (word ++ rest) [Token.ofList kind word] rest := by
  refine .term (fun ts r hstatus => ?_)
    ⟨word, hne, fun c hc => by simp [hword c hc], fun c hc => by simp [hrest c hc], rfl, rfl⟩
  cases hstatus with
  | glued hmark => exact h.not_keywordAt_mark hrest _ _ hmark
  | spaced hmark => exact h.not_keywordAt_mark hrest _ _ hmark

/-! ### One condition for each word -/

/-- **A plain word is one chunk**, where what follows it is not joined to it. -/
theorem chunkConditions_word_append (h : PlainWord word) (hne : word ≠ [])
    (hword : ∀ c ∈ word, isBlank c = false) (hrest : EndsWord rest)
    (hplain : StartsPlainly rest) :
    chunkConditions (word ++ rest) = .ofWord word :: chunkConditions rest := by
  have hnone : alternatives (word ++ rest) = none :=
    alternatives_eq_none_iff.mpr (.inl ((h.operandAt hne hword hrest).not_linkAt hplain))
  have hnext := parseNext_of_operandAt hnone (h.operandAt hne hword hrest)
  rw [chunkConditions_of_parseNext (List.append_ne_nil_of_left_ne_nil hne rest) hnext]
  rfl

/-- **A text of plain words asks for each of them**, and for nothing else. -/
theorem asking_chunkConditions_words (h : ∀ word ∈ wordsOf input, PlainWord word) :
    asking (chunkConditions input) = (wordsOf input).map .ofWord := by
  induction input using words_induction with
  | blank text hwords =>
    rw [← asking_dropBlanks, dropBlanks_eq_nil hwords, hwords, chunkConditions_nil]
    rfl
  | word text first rest hne hfirst hrest hsplit hwords ih =>
    rw [hwords, List.forall_mem_cons] at h
    have hplain : StartsPlainly rest :=
      startsPlainly_of_head? fun word hword => (h.2 word (List.mem_of_mem_head? hword)).not_or
    rw [← asking_dropBlanks, hsplit, chunkConditions_word_append h.1 hne hfirst hrest hplain,
      hwords, List.map_cons, ← ih h.2]
    rfl

/-- The conditions of a text of plain words are those of its words. -/
theorem conditions_parse_words {text : String}
    (h : ∀ word ∈ wordsOf text.toList, PlainWord word) :
    (Query.parse text).conditions = (wordsOf text.toList).map .ofWord := by
  rw [conditions_parse, ← significant_asking, asking_chunkConditions_words h]
  refine significant_eq_self ?_ ?_
  · rintro _ hc rfl
    obtain ⟨word, -, hcontra⟩ := List.mem_map.mp hc
    cases hcontra
  · rw [List.countP_map, List.countP_eq_zero.mpr fun _ _ => by simp [Condition.ofWord]]
    exact Nat.zero_le 1

theorem holds_ofWord (word : List Char) (summary : String) (isComplete : Bool) :
    (Condition.ofWord word).holds (lower summary) isComplete = true ↔
      lowerList word <:+: lowerList summary.toList := by
  rw [Condition.ofWord, Condition.holds, List.all_cons, List.all_nil, Bool.and_true, occursIn,
    occursInList_iff, toList_lower, toList_lower, String.toList_ofList]

/-- **What a text of plain words admits**: the items of the list whose summaries have all of them,
in lower case. -/
theorem admits_words_iff {text : String} (h : ∀ word ∈ wordsOf text.toList, PlainWord word)
    {listId : String} {item : Item} :
    (Query.parse text).admits listId item = true ↔ item.listId = listId ∧
      ∀ word ∈ wordsOf text.toList, lowerList word <:+: lowerList item.summary.toList := by
  rw [admits_iff, conditions_parse_words h, List.forall_mem_map]
  simp only [holds_ofWord]

/-! ### What is literally there -/

/-- **When a search finds what is literally there.**  Where all words of a search text of plain
words stand in a summary, the item is admitted if and only if those that are not settled also occur
there in lower case.  And the settled words are those that a search for nothing else finds wherever
they stand. -/
theorem admits_literal {text : String} (h : ∀ word ∈ wordsOf text.toList, PlainWord word) :
    (∀ item : Item, (∀ word ∈ wordsOf text.toList, word <:+: item.summary.toList) →
      ((Query.parse text).admits item.listId item = true ↔
        ∀ word ∈ wordsOf text.toList, ¬ Settled word →
          lowerList word <:+: lowerList item.summary.toList)) ∧
    ∀ word ∈ wordsOf text.toList, (Settled word ↔
      ∀ item : Item, word <:+: item.summary.toList →
        (Query.parse (String.ofList word)).admits item.listId item = true) := by
  refine ⟨fun item hliteral => ?_, fun word hmem => ?_⟩
  · rw [admits_words_iff h, and_iff_right rfl]
    refine forall₂_congr fun word hword => ⟨fun hfound _ => hfound, fun hfound => ?_⟩
    by_cases hsettled : Settled word
    · exact hsettled.lowerList_isInfix (hliteral word hword)
    · exact hfound hsettled
  · have hwords : wordsOf (String.ofList word).toList = [word] := by
      rw [String.toList_ofList, wordsOf_of_mem_wordsOf hmem]
    have hplain : ∀ w ∈ wordsOf (String.ofList word).toList, PlainWord w := by
      rw [hwords]
      exact List.forall_mem_singleton.mpr (h word hmem)
    simp only [admits_words_iff hplain, hwords, List.forall_mem_singleton, true_and]
    rw [settled_iff_forall_isInfix]
    refine ⟨fun hall item => hall item.summary.toList, fun hall text hstands => ?_⟩
    have hitem := hall { id := "", listId := "", summary := String.ofList text }
    rw [String.toList_ofList] at hitem
    exact hitem hstands

/-- The first sigma sees a case behind it; the one at the end of `ΟΔΟΣ` sees nothing there, so it
is found at the end of a word only. -/
theorem admits_literal_road :
    let text := "Σίσυφος ΟΔΟΣ"
    let item : Item := { id := "hill", listId := inboxId, summary := "Σίσυφος: η ΟΔΟΣ." }
    (∀ word ∈ wordsOf text.toList, PlainWord word) ∧
      (∀ word ∈ wordsOf text.toList, word <:+: item.summary.toList) ∧
      (Query.parse text).admits item.listId item = true ∧
      ∃ other : Item, "ΟΔΟΣ".toList <:+: other.summary.toList ∧
        (Query.parse "ΟΔΟΣ").admits other.listId other = false := by
  intro text item
  have hplain : ∀ word ∈ wordsOf text.toList, PlainWord word := by decide +kernel
  have hliteral : ∀ word ∈ wordsOf text.toList, word <:+: item.summary.toList := by decide +kernel
  have hroad : "ΟΔΟΣ".toList ∈ wordsOf text.toList := by decide +kernel
  have hloose : ¬ Settled "ΟΔΟΣ".toList := by decide +kernel
  obtain ⟨hadmits, hwords⟩ := admits_literal hplain
  refine ⟨hplain, hliteral, (hadmits item hliteral).mpr ?_, ?_⟩
  · decide +kernel
  · have hmissed := mt (hwords _ hroad).mpr hloose
    simpa only [not_forall, exists_prop, Bool.not_eq_true, String.ofList_toList] using hmissed

/-- `ΑΣ` stands in `ΑΣΑ`, but `ας` does not stand in `ασα`. -/
theorem not_admits_sigma_inside :
    let text := "ΑΣ"
    let item : Item := { id := "a", listId := inboxId, summary := "ΑΣΑ" }
    (∀ word ∈ wordsOf text.toList, PlainWord word) ∧
      (∀ word ∈ wordsOf text.toList, word <:+: item.summary.toList) ∧
      ¬ (Query.parse text).admits item.listId item = true := by
  intro text item
  have hplain : ∀ word ∈ wordsOf text.toList, PlainWord word := by decide +kernel
  refine ⟨hplain, by decide +kernel, ?_⟩
  rw [admits_words_iff hplain]
  decide +kernel

end Agenda.Search

/-
Agenda/Proofs/Search/Spelling.lean

A search text means its words.  Two texts are alike when they have the same
words, but for the case of ASCII letters, with blanks in the same places,
however many blanks and of whatever kind:

    Alike input input'

Whatever the grammar finds at the start of a text it finds at the start of
every text alike, with tokens that mean the same, and the rests are alike again
(`X.alike`).  Words are cut where a status predicate ends, so the texts that
are compared on the way need not start where a word does.

Two texts with the same words are alike when the blanks at their starts are
dropped, provided that both or neither end with blanks (`alike_dropBlanks`), and
blanks at the start ask for nothing.  So their queries are equal
(`parse_eq_of_sameWords`).
-/
import Agenda.Proofs.Search.Juxtaposition
import Agenda.Proofs.Text.LowerCase
import Mathlib.Data.List.Forall2

namespace Agenda.Search

open Text

variable {input input' rest : List Char} {tokens : List Token} {kind : TokenKind}

/-! ### Texts that are alike -/

/-- The texts have the same words, but for the case of ASCII letters, and blanks in the same
places. -/
inductive Alike : List Char → List Char → Prop
  | nil : Alike [] []
  | char {c d s t} : isBlank c = false → d.toLower = c.toLower → Alike s t →
      Alike (c :: s) (d :: t)
  | gap {s t ts us r r'} : BlanksAt s ts r → BlanksAt t us r' → Alike r r' → Alike s t

theorem Alike.symm (h : Alike input input') : Alike input' input := by
  induction h with
  | nil => exact .nil
  | char hc hlower _ ih =>
    refine .char ?_ hlower.symm ih
    rw [← isBlank_toLower, hlower, isBlank_toLower, hc]
  | gap hgap hgap' _ ih => exact .gap hgap' hgap ih

/-- A text without blanks is met again, in its own spelling. -/
theorem Alike.exists_append {text : List Char} (htext : ∀ c ∈ text, isBlank c = false)
    (h : Alike (text ++ rest) input') :
    ∃ text' rest', input' = text' ++ rest' ∧ sameIgnoringAsciiCase text' text = true ∧
      Alike rest rest' := by
  induction text generalizing input' with
  | nil => exact ⟨[], input', rfl, rfl, h⟩
  | cons c text ih =>
    obtain ⟨hc, htext⟩ := List.forall_mem_cons.mp htext
    cases h with
    | char _ hlower h =>
      obtain ⟨text', rest', rfl, hsame, hrest⟩ := ih htext h
      refine ⟨_ :: text', rest', rfl, ?_, hrest⟩
      rw [sameIgnoringAsciiCase, List.map_cons, List.map_cons, hlower, beq_iff_eq.mp hsame,
        beq_self_eq_true]
    | gap hgap =>
      have hblank := hgap.isBlank_of_head? c rfl
      rw [hc] at hblank
      cases hblank

theorem Alike.append {text text' : List Char} (htext : ∀ c ∈ text, isBlank c = false)
    (hsame : sameIgnoringAsciiCase text' text = true) (h : Alike input input') :
    Alike (text ++ input) (text' ++ input') := by
  have hmap := beq_iff_eq.mp hsame
  induction text generalizing text' with
  | nil =>
    obtain rfl := List.map_eq_nil_iff.mp hmap
    exact h
  | cons c text ih =>
    obtain ⟨hc, htext⟩ := List.forall_mem_cons.mp htext
    obtain ⟨d, text', rfl, hlower, hrest⟩ := List.map_eq_cons_iff.mp hmap
    exact .char hc hlower (ih htext (beq_iff_eq.mpr hrest) hrest)

/-- Words end in the same places. -/
theorem Alike.endsWord (h : Alike input input') (hends : EndsWord input) : EndsWord input' := by
  cases h with
  | nil => exact endsWord_nil
  | char hc =>
    have hblank := hends _ rfl
    rw [hc] at hblank
    cases hblank
  | gap _ hgap' => exact hgap'.isBlank_of_head?

/-! ### What stands at the start -/

theorem BlanksAt.normalize_eq (h : BlanksAt input tokens rest) : normalize tokens = [] := by
  obtain ⟨text, -, -, -, -, rfl⟩ := h
  rfl

theorem BlanksAt.alike (h : BlanksAt input tokens rest) (halike : Alike input input') :
    ∃ us r, BlanksAt input' us r ∧ normalize us = normalize tokens ∧ Alike rest r := by
  cases halike with
  | nil => exact absurd rfl h.ne_nil
  | char hc =>
    have hblank := h.isBlank_of_head? _ rfl
    rw [hc] at hblank
    cases hblank
  | gap hgap hgap' hrest =>
    obtain ⟨rfl, rfl⟩ := (blanksAt_iff.mp h).unique (blanksAt_iff.mp hgap)
    exact ⟨_, _, hgap', by rw [hgap'.normalize_eq, h.normalize_eq], hrest⟩

/-- Tokens in different spellings of a text mean the same. -/
theorem normalize_ofList_eq {text text' : List Char}
    (h : sameIgnoringAsciiCase text' text = true) (kind : TokenKind) :
    normalize [Token.ofList kind text'] = normalize [Token.ofList kind text] := by
  have hlower : lower (String.ofList text') = lower (String.ofList text) :=
    lower_eq_of_same (by rwa [String.toList_ofList, String.toList_ofList])
  cases hnoise : kind.isNoise <;> simp [normalize, Token.ofList, hnoise, hlower]

theorem KeywordAt.alike {word : List Char} (hword : ∀ c ∈ word, isBlank c = false)
    (h : KeywordAt word kind input tokens rest) (halike : Alike input input') :
    ∃ us r, KeywordAt word kind input' us r ∧ normalize us = normalize tokens ∧ Alike rest r := by
  obtain ⟨text, hsame, rfl, rfl⟩ := h
  obtain ⟨text', r, rfl, hsame', hrest⟩ := halike.exists_append (not_blank_of_same hword hsame)
  refine ⟨_, r, ⟨text', ?_, rfl, rfl⟩, normalize_ofList_eq hsame' kind, hrest⟩
  rw [sameIgnoringAsciiCase, beq_iff_eq.mp hsame']
  exact hsame

theorem WordAt.alike (h : WordAt kind input tokens rest) (halike : Alike input input') :
    ∃ us r, WordAt kind input' us r ∧ normalize us = normalize tokens ∧ Alike rest r := by
  obtain ⟨text, hne, hall, hstop, rfl, rfl⟩ := h
  have htext : ∀ c ∈ text, isBlank c = false := fun c hc => by simpa using hall c hc
  obtain ⟨text', r, rfl, hsame, hrest⟩ := halike.exists_append htext
  have hends : EndsWord rest := fun c hc => by simpa using hstop c hc
  refine ⟨_, r, ⟨text', ?_, fun c hc => ?_, fun c hc => ?_, rfl, rfl⟩,
    normalize_ofList_eq hsame kind, hrest⟩
  · rintro rfl
    exact hne (List.length_eq_zero_iff.mp (length_eq_of_sameIgnoringAsciiCase hsame).symm)
  · show (!isBlank c) = true
    rw [not_blank_of_same htext hsame c hc, Bool.not_false]
  · show (!isBlank c) = false
    rw [hrest.endsWord hends c hc, Bool.not_true]

theorem ValueAt.alike (h : ValueAt input tokens rest) (halike : Alike input input') :
    ∃ us r, ValueAt input' us r ∧ normalize us = normalize tokens ∧ Alike rest r := by
  rcases h with h | h
  · obtain ⟨us, r, h', hsame, hrest⟩ := h.alike (forall_not_blank rfl) halike
    exact ⟨us, r, .inl h', hsame, hrest⟩
  · obtain ⟨us, r, h', hsame, hrest⟩ := h.alike (forall_not_blank rfl) halike
    exact ⟨us, r, .inr h', hsame, hrest⟩

theorem StatusAt.alike (h : StatusAt input tokens rest) (halike : Alike input input') :
    ∃ us r, StatusAt input' us r ∧ normalize us = normalize tokens ∧ Alike rest r := by
  cases h with
  | glued hmark hvalue =>
    obtain ⟨us, r, hmark', hsame, halike⟩ := hmark.alike (forall_not_blank rfl) halike
    obtain ⟨vs, r', hvalue', hsame', halike⟩ := hvalue.alike halike
    refine ⟨_, r', .glued hmark' hvalue', ?_, halike⟩
    rw [normalize_append, normalize_append, hsame, hsame']
  | spaced hmark hgap hvalue =>
    obtain ⟨us, r, hmark', hsame, halike⟩ := hmark.alike (forall_not_blank rfl) halike
    obtain ⟨gs, s, hgap', hgaps, halike⟩ := hgap.alike halike
    obtain ⟨vs, r', hvalue', hsame', halike⟩ := hvalue.alike halike
    refine ⟨_, r', .spaced hmark' hgap' hvalue', ?_, halike⟩
    simp only [normalize_append, hsame, hgaps, hsame']

theorem OperandAt.alike (h : OperandAt kind input tokens rest) (halike : Alike input input') :
    ∃ us r, OperandAt kind input' us r ∧ normalize us = normalize tokens ∧ Alike rest r := by
  cases h with
  | status h =>
    obtain ⟨us, r, h', hsame, hrest⟩ := h.alike halike
    exact ⟨us, r, .status h', hsame, hrest⟩
  | term hnot h =>
    obtain ⟨us, r, h', hsame, hrest⟩ := h.alike halike
    refine ⟨us, r, .term (fun ts r hs => ?_) h', hsame, hrest⟩
    obtain ⟨_, _, hs, -, -⟩ := hs.alike halike.symm
    exact hnot _ _ hs

theorem LinkAt.alike (h : LinkAt input tokens rest) (halike : Alike input input') :
    ∃ us r, LinkAt input' us r ∧ normalize us = normalize tokens ∧ Alike rest r := by
  obtain ⟨hleft, hbefore, hword, hafter⟩ := h
  obtain ⟨_, _, hleft', hs₁, halike⟩ := hleft.alike halike
  obtain ⟨_, _, hbefore', hs₂, halike⟩ := hbefore.alike halike
  obtain ⟨_, _, hword', hs₃, halike⟩ := hword.alike (forall_not_blank rfl) halike
  obtain ⟨_, _, hafter', hs₄, halike⟩ := hafter.alike halike
  refine ⟨_, _, .mk hleft' hbefore' hword' hafter', ?_, halike⟩
  simp only [normalize_append, hs₁, hs₂, hs₃, hs₄]

theorem AlternativesAt.alike (h : AlternativesAt input tokens rest)
    (halike : Alike input input') :
    ∃ us r, AlternativesAt input' us r ∧ normalize us = normalize tokens ∧ Alike rest r := by
  induction h generalizing input' with
  | last hlink hnone hop =>
    obtain ⟨_, _, hlink', hs₁, halike⟩ := hlink.alike halike
    obtain ⟨_, _, hop', hs₂, hrest⟩ := hop.alike halike
    refine ⟨_, _, .last hlink' (fun ts r hl => ?_) hop', ?_, hrest⟩
    · obtain ⟨_, _, hl, -, -⟩ := hl.alike halike.symm
      exact hnone _ _ hl
    · rw [normalize_append, normalize_append, hs₁, hs₂]
  | more hlink _ ih =>
    obtain ⟨_, _, hlink', hs₁, halike⟩ := hlink.alike halike
    obtain ⟨_, _, hmore', hs₂, hrest⟩ := ih halike
    refine ⟨_, _, .more hlink' hmore', ?_, hrest⟩
    rw [normalize_append, normalize_append, hs₁, hs₂]

/-! ### Chunks -/

theorem Alike.alternatives_eq_none (h : Alike input input') (hnone : alternatives input = none) :
    alternatives input' = none := by
  refine eq_none_of_forall_not_yields fun ts r hread => ?_
  obtain ⟨_, _, hread, -, -⟩ := (alternativesAt_iff.mpr hread).alike h.symm
  rw [alternativesAt_iff, hnone] at hread
  exact not_yields_none hread

/-- **The first chunks of texts that are alike mean the same**, and leave texts that are alike. -/
theorem Alike.parseNext (h : Alike input input') (hne : input ≠ []) :
    (parseNext input').normalized = (parseNext input).normalized ∧
      Alike (parseNext input).rest (parseNext input').rest := by
  cases hread : alternatives input with
  | some m =>
    have halt := alternativesAt_iff.mpr ⟨m, hread, rfl, rfl⟩
    obtain ⟨us, r, halt', hsame, hrest⟩ := halt.alike h
    rw [parseNext_of_alternativesAt halt, parseNext_of_alternativesAt halt']
    exact ⟨hsame, hrest⟩
  | none =>
    rcases parseNext_of_none hread hne with hop | hgap
    · obtain ⟨us, r, hop', hsame, hrest⟩ := hop.alike h
      rw [parseNext_of_operandAt (h.alternatives_eq_none hread) hop']
      exact ⟨hsame, hrest⟩
    · obtain ⟨us, r, hgap', hsame, hrest⟩ := hgap.alike h
      rw [parseNext_of_blanksAt hgap']
      exact ⟨hsame, hrest⟩

theorem Alike.eq_nil_iff (h : Alike input input') : input = [] ↔ input' = [] := by
  cases h with
  | nil => exact Iff.rfl
  | char => simp
  | gap hgap hgap' => exact iff_of_false hgap.ne_nil hgap'.ne_nil

theorem Alike.chunkConditions_eq (h : Alike input input') :
    chunkConditions input = chunkConditions input' := by
  induction hlength : input.length using Nat.strong_induction_on generalizing input input' with
  | _ length ih =>
    by_cases hne : input = []
    · rw [h.eq_nil_iff.mp hne, hne]
    · obtain ⟨hsame, hrest⟩ := h.parseNext hne
      rw [chunkConditions_of_ne_nil hne, chunkConditions_of_ne_nil (mt h.eq_nil_iff.mpr hne), hsame,
        ih _ (hlength ▸ length_rest_parseNext_lt hne) hrest rfl]

/-! ### Texts with the same words -/

/-- The texts have the same words, but for the case of ASCII letters. -/
def SameWords (text text' : List Char) : Prop :=
  List.Forall₂ (fun word word' => sameIgnoringAsciiCase word' word = true)
    (wordsOf text) (wordsOf text')

instance (text text' : List Char) : Decidable (SameWords text text') :=
  inferInstanceAs (Decidable (List.Forall₂ _ _ _))

/-- The text ends with a blank. -/
def endsBlank (text : List Char) : Bool :=
  text.getLast?.any isBlank

theorem endsBlank_append {text : List Char} (hne : text ≠ []) (before : List Char) :
    endsBlank (before ++ text) = endsBlank text := by
  rw [endsBlank, List.getLast?_append_of_ne_nil _ hne, endsBlank]

theorem endsBlank_word_append {word : List Char} (h : ∀ c ∈ word, isBlank c = false)
    (rest : List Char) : endsBlank (word ++ rest) = endsBlank rest := by
  by_cases hrest : rest = []
  · rw [hrest, List.append_nil]
    cases hlast : word.getLast? with
    | none => rw [endsBlank, hlast]; rfl
    | some c =>
      rw [endsBlank, hlast]
      exact h c (List.mem_of_getLast? hlast)
  · exact endsBlank_append hrest word

theorem endsBlank_of_blanks {gap : List Char} (hne : gap ≠ [])
    (h : ∀ c ∈ gap, isBlank c = true) : endsBlank gap = true := by
  rw [endsBlank, List.getLast?_eq_some_getLast hne]
  exact h _ (List.getLast_mem hne)

theorem endsBlank_dropBlanks (h : dropBlanks input ≠ []) :
    endsBlank (dropBlanks input) = endsBlank input := by
  rw [← endsBlank_append h (input.takeWhile isBlank), dropBlanks,
    List.takeWhile_append_dropWhile]

theorem wordsOf_dropBlanks (text : List Char) : wordsOf (dropBlanks text) = wordsOf text := by
  have hgap : ∀ c ∈ text.takeWhile isBlank, isBlank c = true :=
    fun c hc => List.mem_takeWhile_imp hc
  rw [dropBlanks, ← wordsOf_blanks_append hgap (text.dropWhile isBlank),
    List.takeWhile_append_dropWhile]

/-- A text that does not start with blanks is empty, or its first word and what follows it. -/
theorem eq_nil_or_word (h : ∀ c ∈ input.head?, isBlank c = false) :
    input = [] ∨ ∃ word rest, word ≠ [] ∧ (∀ c ∈ word, isBlank c = false) ∧ EndsWord rest ∧
      input = word ++ rest ∧ wordsOf input = word :: wordsOf rest := by
  cases input with
  | nil => exact .inl rfl
  | cons c text =>
    have hc : isBlank c = false := h c rfl
    have hword : ∀ d ∈ (c :: text).takeWhile fun d => !isBlank d, isBlank d = false :=
      fun d hd => by simpa using List.mem_takeWhile_imp hd
    have hne : ((c :: text).takeWhile fun d => !isBlank d) ≠ [] := by simp [hc]
    have hends : EndsWord ((c :: text).dropWhile fun d => !isBlank d) := by
      intro d hd
      have hstop := List.head?_dropWhile_not (fun d => !isBlank d) (c :: text)
      rw [Option.mem_def.mp hd] at hstop
      simpa using hstop
    refine .inr ⟨_, _, hne, hword, hends, List.takeWhile_append_dropWhile.symm, ?_⟩
    conv_lhs => rw [← List.takeWhile_append_dropWhile (p := fun d => !isBlank d) (l := c :: text)]
    rw [wordsOf_of_endsWord hends, wordsOf_word hne hword, List.singleton_append]

theorem dropBlanks_eq_nil (h : wordsOf input = []) : dropBlanks input = [] := by
  refine (eq_nil_or_word (head?_dropBlanks input)).resolve_right ?_
  rintro ⟨word, rest, -, -, -, -, hwords⟩
  rw [wordsOf_dropBlanks, h] at hwords
  cases hwords

/-- Induction on the words of a text, the first one first. -/
theorem words_induction {motive : List Char → Prop}
    (blank : ∀ text, wordsOf text = [] → motive text)
    (word : ∀ text word rest, word ≠ [] → (∀ c ∈ word, isBlank c = false) → EndsWord rest →
      dropBlanks text = word ++ rest → wordsOf text = word :: wordsOf rest → motive rest →
      motive text)
    (text : List Char) : motive text := by
  induction hwords : wordsOf text generalizing text with
  | nil => exact blank text hwords
  | cons first words ih =>
    have hwords' := hwords
    rw [← wordsOf_dropBlanks] at hwords'
    rcases eq_nil_or_word (head?_dropBlanks text) with hnil | ⟨_, rest, hne, hword, hends, hsplit,
      hfirst⟩
    · rw [hnil] at hwords'
      cases hwords'
    obtain ⟨rfl, hrest⟩ := List.cons.inj (hfirst.symm.trans hwords')
    exact word text _ rest hne hword hends hsplit (hwords.trans (by rw [hrest])) (ih rest hrest)

/-- The words of a text are words by themselves. -/
theorem wordsOf_of_mem_wordsOf {text word : List Char} (h : word ∈ wordsOf text) :
    wordsOf word = [word] := by
  induction text using words_induction with
  | blank text hwords =>
    rw [hwords] at h
    cases h
  | word text first rest hne hfirst _ _ hwords ih =>
    rw [hwords, List.mem_cons] at h
    rcases h with rfl | h
    · exact wordsOf_word hne hfirst
    · exact ih h

/-- A text without words that does not end with a blank is empty. -/
theorem eq_nil_iff_wordsOf (input : List Char) :
    input = [] ↔ wordsOf input = [] ∧ endsBlank input = false := by
  constructor
  · rintro rfl
    exact ⟨wordsOf_blanks fun c hc => absurd hc List.not_mem_nil, rfl⟩
  · rintro ⟨hwords, hend⟩
    by_contra hne
    rw [endsBlank_of_blanks hne (List.dropWhile_eq_nil_iff.mp (dropBlanks_eq_nil hwords))] at hend
    cases hend

theorem EndsWord.blanksAt (h : EndsWord rest) (hne : rest ≠ []) :
    ∃ tokens, BlanksAt rest tokens (dropBlanks rest) := by
  obtain ⟨c, text, rfl⟩ := List.exists_cons_of_ne_nil hne
  refine ⟨_, (c :: text).takeWhile isBlank, ?_, fun d hd => List.mem_takeWhile_imp hd,
    head?_dropBlanks _, List.takeWhile_append_dropWhile.symm, rfl⟩
  rw [List.takeWhile_cons_of_pos (h c rfl)]
  exact List.cons_ne_nil _ _

/-- What follows a word is alike if the blanks that it starts with are dropped. -/
theorem Alike.of_endsWord {rest' : List Char} (hends : EndsWord rest) (hends' : EndsWord rest')
    (hnil : rest = [] ↔ rest' = []) (h : Alike (dropBlanks rest) (dropBlanks rest')) :
    Alike rest rest' := by
  by_cases hne : rest = []
  · rw [hne, hnil.mp hne]
    exact .nil
  · obtain ⟨ts, hgap⟩ := hends.blanksAt hne
    obtain ⟨us, hgap'⟩ := hends'.blanksAt (mt hnil.mpr hne)
    exact .gap hgap hgap' h

/-- **Texts with the same words are alike**, when the blanks at their starts are dropped. -/
theorem alike_dropBlanks (hwords : SameWords input input')
    (hend : endsBlank input = endsBlank input') :
    Alike (dropBlanks input) (dropBlanks input') := by
  -- the induction is on the words, and goes on behind the first one
  induction hn : wordsOf input generalizing input input' with
  | nil =>
    rw [SameWords, hn, List.forall₂_nil_left_iff] at hwords
    rw [dropBlanks_eq_nil hn, dropBlanks_eq_nil hwords]
    exact .nil
  | cons first words ih =>
    rw [SameWords, ← wordsOf_dropBlanks input, ← wordsOf_dropBlanks input'] at hwords
    rw [← wordsOf_dropBlanks input] at hn
    rcases eq_nil_or_word (head?_dropBlanks input) with hnil | ⟨word, rest, hne, hword, hends,
      hsplit, hfirst⟩
    · rw [hnil] at hn
      cases hn
    rcases eq_nil_or_word (head?_dropBlanks input') with hnil | ⟨word', rest', hne', hword',
      hends', hsplit', hfirst'⟩
    · rw [hnil, hn] at hwords
      cases hwords
    rw [hfirst, hfirst', List.forall₂_cons] at hwords
    obtain ⟨hsame, hrest⟩ := hwords
    have hlast : endsBlank rest = endsBlank rest' := by
      rw [← endsBlank_word_append hword, ← hsplit, endsBlank_dropBlanks, hend,
        ← endsBlank_dropBlanks, hsplit', endsBlank_word_append hword']
      · rw [hsplit']
        exact List.append_ne_nil_of_left_ne_nil hne' _
      · rw [hsplit]
        exact List.append_ne_nil_of_left_ne_nil hne _
    have hnil : rest = [] ↔ rest' = [] := by
      rw [eq_nil_iff_wordsOf, eq_nil_iff_wordsOf rest', hlast, ← List.length_eq_zero_iff,
        hrest.length_eq, List.length_eq_zero_iff]
    rw [hsplit, hsplit']
    refine .append hword hsame (.of_endsWord hends hends' hnil (ih hrest hlast ?_))
    exact (List.cons.inj (hfirst.symm.trans hn)).2

/-- **A query means its words.**  Texts with the same words, but for the case of ASCII letters,
have the same query, provided that both or neither end with a blank. -/
theorem parse_eq_of_sameWords {first second : String}
    (hwords : SameWords first.toList second.toList)
    (hend : endsBlank first.toList = endsBlank second.toList) :
    Query.parse first = Query.parse second := by
  have halike := (alike_dropBlanks hwords hend).chunkConditions_eq
  have hasking :
      asking (chunkConditions first.toList) = asking (chunkConditions second.toList) := by
    rw [← asking_dropBlanks first.toList, halike, asking_dropBlanks]
  have hconditions : (Query.parse first).conditions = (Query.parse second).conditions := by
    rw [conditions_parse, conditions_parse, ← significant_asking, hasking, significant_asking]
  exact congrArg Query.mk hconditions

/-- Keywords, a status predicate with a gap, a word that a status value cuts, and letters of
several bytes; both texts end with a blank. -/
theorem parse_eq_of_sameWords_shopping :
    let first := "  Milk   or BREAD  IS: Done Éclair is:donetoo "
    let second := "milk OR bread\tis:\u00a0DONE\u3000ÉCLAIR\nIs:DoneTOO\n\n"
    (SameWords first.toList second.toList ∧
      endsBlank first.toList = endsBlank second.toList) ∧
      Query.parse first = Query.parse second := by
  intro first second
  have hwords : SameWords first.toList second.toList := by decide +kernel
  have hend : endsBlank first.toList = endsBlank second.toList := by decide +kernel
  exact ⟨⟨hwords, hend⟩, parse_eq_of_sameWords hwords hend⟩

end Agenda.Search

/-
Agenda/Proofs/Json/Skipping.lean

Values that nobody asks for.  Whatever a document says, and however deep it is
nested, skipping it succeeds and ends where the document ends
(`reads_skipValue`): the strings in it need not spell texts, and its numbers may be
too large.
-/
import Agenda.Proofs.Json.Settled

namespace Agenda.Json

open Text

variable {input rest mid : List Char} {lexemes : List (List Char)}

/-! ### Marks and words -/

theorem Spans.reads_separator {mark : Char} (hmark : isGap mark = false)
    (h : Spans ([mark] :: lexemes) input rest) :
    ∃ mid, Reads (separator mark input) () mid ∧ Spans lexemes mid rest := by
  obtain ⟨gap, mid, hgap, rfl, hmid⟩ := h
  exact ⟨mid, Json.reads_separator hgap hmark mid, hmid⟩

theorem Spans.reads_comma (closing : Char) (h : Spans ([','] :: lexemes) input rest) :
    ∃ mid, Reads (afterPart closing input) .more mid ∧ Spans lexemes mid rest := by
  obtain ⟨gap, mid, hgap, rfl, hmid⟩ := h
  exact ⟨mid, reads_afterPart_comma hgap closing mid, hmid⟩

theorem Spans.reads_closing {closing : Char} (hgap : isGap closing = false) (hne : closing ≠ ',')
    (h : Spans [[closing]] input rest) : Reads (afterPart closing input) .close rest := by
  obtain ⟨gap, mid, hgap', rfl, rfl⟩ := h
  exact reads_afterPart_closing hgap' hgap hne mid

/-- A container ends at once where its closing mark stands. -/
theorem Spans.closesAtOnce_eq {closing : Char} (hgap : isGap closing = false)
    (h : Spans [[closing]] input rest) :
    ∃ lt, closesAtOnce closing input = some ⟨(), rest, lt⟩ := by
  obtain ⟨mid, hskip, rfl⟩ := h.skipGaps_eq hgap
  refine ⟨length_lt_of_skipGaps hskip, ?_⟩
  unfold closesAtOnce
  split
  · next heq =>
    cases hskip.symm.trans heq
    rw [if_pos rfl]
    rfl
  · next heq => cases hskip.symm.trans heq

/-- A container goes on where something else stands. -/
theorem Spans.closesAtOnce_eq_none {closing c : Char} {word : List Char} (hgap : isGap c = false)
    (hne : c ≠ closing) (h : Spans ((c :: word) :: lexemes) input rest) :
    closesAtOnce closing input = none := by
  obtain ⟨gap, mid, hgap', rfl, -⟩ := h
  exact closesAtOnce_of_ne hgap' hgap hne _

theorem reads_literal (c : Char) (word rest : List Char) :
    Reads (literal word (c :: (word ++ rest))) () rest := by
  have hword : ∃ le, expectWord word (word ++ rest) = .ok ⟨rest, le⟩ := by
    induction word with
    | nil => exact ⟨_, rfl⟩
    | cons d word ih =>
      obtain ⟨le, h⟩ := ih
      rw [List.cons_append, expectWord, if_pos rfl, h]
      exact ⟨_, rfl⟩
  obtain ⟨le, h⟩ := hword
  rw [literal, h]
  exact ⟨_, rfl, rfl, rfl⟩

/-! ### One value -/

section SkipValue

variable {cs : List Char}

theorem reads_skipValue_string (h : skipGaps input = '"' :: cs)
    (hbody : Reads (skipStringBody cs) () rest) : Reads (skipValue input) () rest := by
  obtain ⟨lt, hbody⟩ := hbody.eq_ok
  rw [skipValue]
  split
  · next heq => cases h.symm.trans heq
  · next heq =>
    cases h.symm.trans heq
    rw [if_pos rfl, hbody]
    exact ⟨_, rfl, rfl, rfl⟩

theorem reads_skipValue_array (h : skipGaps input = '[' :: cs)
    (hbody : (∃ lt, closesAtOnce ']' cs = some ⟨(), rest, lt⟩) ∨
      closesAtOnce ']' cs = none ∧ Reads (skipElements cs) () rest) :
    Reads (skipValue input) () rest := by
  rw [skipValue]
  split
  · next heq => cases h.symm.trans heq
  · next heq =>
    cases h.symm.trans heq
    rw [if_neg (by decide), if_pos rfl]
    rcases hbody with ⟨lt, hclose⟩ | ⟨hopen, hbody⟩
    · rw [hclose]
      exact ⟨_, rfl, rfl, rfl⟩
    · obtain ⟨lt, hbody⟩ := hbody.eq_ok
      rw [hopen, hbody]
      exact ⟨_, rfl, rfl, rfl⟩

theorem reads_skipValue_object (h : skipGaps input = openObject :: cs)
    (hbody : (∃ lt, closesAtOnce closeObject cs = some ⟨(), rest, lt⟩) ∨
      closesAtOnce closeObject cs = none ∧ Reads (skipMembers cs) () rest) :
    Reads (skipValue input) () rest := by
  rw [skipValue]
  split
  · next heq => cases h.symm.trans heq
  · next heq =>
    cases h.symm.trans heq
    rw [if_neg (by decide), if_neg (by decide), if_pos rfl]
    rcases hbody with ⟨lt, hclose⟩ | ⟨hopen, hbody⟩
    · rw [hclose]
      exact ⟨_, rfl, rfl, rfl⟩
    · obtain ⟨lt, hbody⟩ := hbody.eq_ok
      rw [hopen, hbody]
      exact ⟨_, rfl, rfl, rfl⟩

theorem reads_skipValue_word {c : Char} {word : List Char}
    (hword : c = 'n' ∧ word = ['u', 'l', 'l'] ∨ c = 't' ∧ word = ['r', 'u', 'e'] ∨
      c = 'f' ∧ word = ['a', 'l', 's', 'e'])
    (h : skipGaps input = c :: (word ++ rest)) : Reads (skipValue input) () rest := by
  obtain ⟨lt, hread⟩ := (reads_literal c word rest).eq_ok
  rw [skipValue]
  split
  · next heq => cases h.symm.trans heq
  · next heq =>
    cases h.symm.trans heq
    rcases hword with ⟨rfl, rfl⟩ | ⟨rfl, rfl⟩ | ⟨rfl, rfl⟩
    · rw [if_neg (by decide), if_neg (by decide), if_neg (by decide), if_pos rfl, hread]
      exact ⟨_, rfl, rfl, rfl⟩
    · rw [if_neg (by decide), if_neg (by decide), if_neg (by decide), if_neg (by decide),
        if_pos rfl, hread]
      exact ⟨_, rfl, rfl, rfl⟩
    · rw [if_neg (by decide), if_neg (by decide), if_neg (by decide), if_neg (by decide),
        if_neg (by decide), if_pos rfl, hread]
      exact ⟨_, rfl, rfl, rfl⟩

theorem reads_skipValue_number (n : NumberText) (hrest : Ends rest)
    (h : skipGaps input = n.chars ++ rest) : Reads (skipValue input) () rest := by
  have hread := reads_skipNumber n hrest
  obtain ⟨c, cs, hcons, hc⟩ := n.exists_chars_eq_cons
  rw [hcons, List.cons_append] at h hread
  obtain ⟨lt, hread⟩ := hread.eq_ok
  have hne := ne_of_number_start hc
  rw [skipValue]
  split
  · next heq => cases h.symm.trans heq
  · next heq =>
    cases h.symm.trans heq
    rw [if_neg (hne _ (by decide)), if_neg (hne _ (by decide)),
      if_neg (hne _ (by decide)), if_neg (hne _ (by decide)),
      if_neg (hne _ (by decide)), if_neg (hne _ (by decide)), if_pos hc]
    rw [hread]
    exact ⟨_, rfl, rfl, rfl⟩

end SkipValue

/-! ### Elements and members -/

section Parts

variable {r r' : List Char}

theorem reads_skipElements_close (hv : Reads (skipValue input) () r)
    (hturn : Reads (afterPart ']' r) .close rest) : Reads (skipElements input) () rest := by
  obtain ⟨lt, hv⟩ := hv.eq_ok
  obtain ⟨lt', hturn⟩ := hturn.eq_ok
  rw [skipElements, hv]
  simp only [hturn]
  exact ⟨_, rfl, rfl, rfl⟩

theorem reads_skipElements_more (hv : Reads (skipValue input) () r)
    (hturn : Reads (afterPart ']' r) .more r') (hmore : Reads (skipElements r') () rest) :
    Reads (skipElements input) () rest := by
  obtain ⟨lt, hv⟩ := hv.eq_ok
  obtain ⟨lt', hturn⟩ := hturn.eq_ok
  obtain ⟨lt'', hmore⟩ := hmore.eq_ok
  rw [skipElements, hv]
  simp only [hturn, hmore]
  exact ⟨_, rfl, rfl, rfl⟩

theorem reads_skipMembers_close (hname : Reads (skipName input) () r)
    (hv : Reads (skipValue r) () r') (hturn : Reads (afterPart closeObject r') .close rest) :
    Reads (skipMembers input) () rest := by
  obtain ⟨lt, hname⟩ := hname.eq_ok
  obtain ⟨lt', hv⟩ := hv.eq_ok
  obtain ⟨lt'', hturn⟩ := hturn.eq_ok
  rw [skipMembers, hname]
  simp only [hv, hturn]
  exact ⟨_, rfl, rfl, rfl⟩

theorem reads_skipMembers_more {r'' : List Char} (hname : Reads (skipName input) () r)
    (hv : Reads (skipValue r) () r') (hturn : Reads (afterPart closeObject r') .more r'')
    (hmore : Reads (skipMembers r'') () rest) : Reads (skipMembers input) () rest := by
  obtain ⟨lt, hname⟩ := hname.eq_ok
  obtain ⟨lt', hv⟩ := hv.eq_ok
  obtain ⟨lt'', hturn⟩ := hturn.eq_ok
  obtain ⟨hlt, hmore⟩ := hmore.eq_ok
  rw [skipMembers, hname]
  simp only [hv, hturn, hmore]
  exact ⟨_, rfl, rfl, rfl⟩

/-- The name of a skipped member need not spell a text either. -/
theorem Spans.reads_skipName {name : List Glyph}
    (h : Spans (quoted name :: [':'] :: lexemes) input rest) :
    ∃ mid, Reads (skipName input) () mid ∧ Spans lexemes mid rest := by
  obtain ⟨gap, afterName, hgap, rfl, hcolon⟩ := h
  obtain ⟨mid, hcolon, hmid⟩ := hcolon.reads_separator rfl
  have hquote : Reads (openName (gap ++ (quoted name ++ afterName))) ()
      (name.flatMap Glyph.chars ++ '"' :: afterName) := by
    rw [quoted_append]
    exact Json.reads_separator hgap rfl _
  obtain ⟨lt, hquote⟩ := hquote.eq_ok
  obtain ⟨lt', hbody⟩ := (reads_skipStringBody name afterName).eq_ok
  obtain ⟨lt'', hcolon⟩ := hcolon.eq_ok
  refine ⟨mid, ?_, hmid⟩
  rw [skipName, hquote]
  change Reads (skipStringBody (name.flatMap Glyph.chars ++ '"' :: afterName) >>= _) _ _
  rw [hbody]
  change Reads (separator ':' afterName >>= _) _ _
  rw [hcolon]
  exact ⟨_, rfl, rfl, rfl⟩

end Parts

/-- An array does not end where its first element stands. -/
theorem closesAtOnce_elementLexemes (v : Document) (vs : List Document)
    (h : Spans (elementLexemes (v :: vs) ++ lexemes) input rest) :
    closesAtOnce ']' input = none := by
  obtain ⟨c, word, more, hcons, hc, hne⟩ := v.exists_lexemes_eq_cons
  cases vs with
  | nil =>
    rw [elementLexemes, hcons] at h
    exact h.closesAtOnce_eq_none hc hne
  | cons next vs =>
    rw [elementLexemes_cons_cons, hcons] at h
    exact h.closesAtOnce_eq_none hc hne

/-- An object does not end where the name of its first member stands. -/
theorem closesAtOnce_memberLexemes (member : Member) (members : List Member)
    (h : Spans (memberLexemes (member :: members) ++ lexemes) input rest) :
    closesAtOnce closeObject input = none := by
  obtain ⟨name, v⟩ := member
  cases members with
  | nil => exact h.closesAtOnce_eq_none rfl (by decide)
  | cons next members =>
    rw [memberLexemes_cons_cons] at h
    exact h.closesAtOnce_eq_none rfl (by decide)

/-! ### Whole documents -/

mutual

/-- **Every document can be skipped.** -/
theorem reads_skipValue : ∀ (v : Document) {input rest : List Char}, Spans v.lexemes input rest →
    Ends rest → Reads (skipValue input) () rest
  | .null, _, _, h, _ => by
    obtain ⟨mid, hskip, rfl⟩ := h.skipGaps_eq rfl
    exact reads_skipValue_word (.inl ⟨rfl, rfl⟩) hskip
  | .bool true, _, _, h, _ => by
    obtain ⟨mid, hskip, rfl⟩ := h.skipGaps_eq rfl
    exact reads_skipValue_word (.inr (.inl ⟨rfl, rfl⟩)) hskip
  | .bool false, _, _, h, _ => by
    obtain ⟨mid, hskip, rfl⟩ := h.skipGaps_eq rfl
    exact reads_skipValue_word (.inr (.inr ⟨rfl, rfl⟩)) hskip
  | .number n, _, _, h, hrest => by
    obtain ⟨c, word, lexemes, hcons, hc, -⟩ := (Document.number n).exists_lexemes_eq_cons
    obtain ⟨hword, rfl⟩ := List.cons.inj hcons
    rw [hcons] at h
    obtain ⟨mid, hskip, rfl⟩ := h.skipGaps_eq hc
    exact reads_skipValue_number n hrest (by rw [hskip, hword, List.cons_append])
  | .string glyphs, _, _, h, _ => by
    obtain ⟨mid, hskip, rfl⟩ := h.skipGaps_eq rfl
    rw [List.append_assoc, List.singleton_append] at hskip
    exact reads_skipValue_string hskip (reads_skipStringBody glyphs mid)
  | .array [], _, _, h, _ => by
    rw [Document.lexemes] at h
    obtain ⟨mid, hskip, h⟩ := h.skipGaps_eq rfl
    exact reads_skipValue_array hskip (.inl (h.closesAtOnce_eq rfl))
  | .array (v :: vs), _, _, h, _ => by
    rw [Document.lexemes] at h
    obtain ⟨mid, hskip, h⟩ := h.skipGaps_eq rfl
    have hopen := closesAtOnce_elementLexemes v vs h
    exact reads_skipValue_array hskip (.inr ⟨hopen, reads_skipElements (v :: vs) (by simp) h⟩)
  | .object [], _, _, h, _ => by
    rw [Document.lexemes] at h
    obtain ⟨mid, hskip, h⟩ := h.skipGaps_eq (by decide)
    exact reads_skipValue_object hskip (.inl (h.closesAtOnce_eq (by decide)))
  | .object (member :: members), _, _, h, _ => by
    rw [Document.lexemes] at h
    obtain ⟨mid, hskip, h⟩ := h.skipGaps_eq (by decide)
    have hopen := closesAtOnce_memberLexemes member members h
    exact reads_skipValue_object hskip
      (.inr ⟨hopen, reads_skipMembers (member :: members) (by simp) h⟩)

theorem reads_skipElements : ∀ (vs : List Document) {input rest : List Char}, vs ≠ [] →
    Spans (elementLexemes vs ++ [[']']]) input rest → Reads (skipElements input) () rest
  | [], _, _, hne, _ => absurd rfl hne
  | [v], _, _, _, h => by
    obtain ⟨mid, hv, hclose⟩ := spans_append_iff.mp h
    exact reads_skipElements_close (reads_skipValue v hv (hclose.ends (by decide)))
      (hclose.reads_closing rfl (by decide))
  | v :: next :: vs, _, _, _, h => by
    rw [elementLexemes_cons_cons, List.append_assoc] at h
    obtain ⟨mid, hv, hcomma⟩ := spans_append_iff.mp h
    obtain ⟨mid', hturn, hmore⟩ := hcomma.reads_comma ']'
    exact reads_skipElements_more (reads_skipValue v hv (hcomma.ends (by decide))) hturn
      (reads_skipElements (next :: vs) (by simp) hmore)

theorem reads_skipMembers : ∀ (members : List Member) {input rest : List Char},
    members ≠ [] → Spans (memberLexemes members ++ [[closeObject]]) input rest →
      Reads (skipMembers input) () rest
  | [], _, _, hne, _ => absurd rfl hne
  | [(name, v)], _, _, _, h => by
    obtain ⟨mid, hname, h⟩ := h.reads_skipName
    obtain ⟨mid', hv, hclose⟩ := spans_append_iff.mp h
    exact reads_skipMembers_close hname (reads_skipValue v hv (hclose.ends (by decide)))
      (hclose.reads_closing (by decide) (by decide))
  | (name, v) :: next :: members, _, _, _, h => by
    rw [memberLexemes_cons_cons, List.cons_append, List.cons_append, List.append_assoc] at h
    obtain ⟨mid, hname, h⟩ := h.reads_skipName
    obtain ⟨mid', hv, hcomma⟩ := spans_append_iff.mp h
    obtain ⟨mid'', hturn, hmore⟩ := hcomma.reads_comma closeObject
    exact reads_skipMembers_more hname (reads_skipValue v hv (hcomma.ends (by decide))) hturn
      (reads_skipMembers (next :: members) (by simp) hmore)

end

end Agenda.Json

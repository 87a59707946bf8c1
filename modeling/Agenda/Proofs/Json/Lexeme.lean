/-
Agenda/Proofs/Json/Lexeme.lean

Marks, words, strings and numbers that are read stand in the text.  The reader takes the
text apart from left to right; what it has gone past when it succeeds is put together
here again, as the spelling of what was read.
-/
import Agenda.Proofs.Json.Skipping

namespace Agenda.Json

open Text

variable {α β δ : Type} {input rest mid : List Char}

/-! ### Steps that succeed -/

theorem exists_of_bind_eq_ok {x : Except Fault α} {next : α → Except Fault β} {b : β}
    (h : x >>= next = .ok b) : ∃ a, x = .ok a ∧ next a = .ok b := by
  cases x with
  | error fault => cases h
  | ok a => exact ⟨a, rfl, h⟩

theorem exists_of_map_eq_ok {x : Except Fault α} {f : α → β} {b : β} (h : x.map f = .ok b) :
    ∃ a, x = .ok a ∧ f a = b := by
  cases x with
  | error fault => cases h
  | ok a => exact ⟨a, rfl, Except.ok.inj h⟩

/-! ### Marks and words -/

theorem Spans.append {lexemes lexemes' : List (List Char)} (h : Spans lexemes input mid)
    (h' : Spans lexemes' mid rest) : Spans (lexemes ++ lexemes') input rest :=
  spans_append_iff.mpr ⟨mid, h, h'⟩

theorem spans_singleton (lexeme rest : List Char) : Spans [lexeme] (lexeme ++ rest) rest :=
  spans_cons lexeme rfl

theorem spans_of_skipGaps (lexeme : List Char) (h : skipGaps input = lexeme ++ rest) :
    Spans [lexeme] input rest :=
  Spans.of_skipGaps (h ▸ spans_singleton lexeme rest)

theorem spans_of_separator {mark : Char} {r : Reading Unit input}
    (h : separator mark input = .ok r) : Spans [[mark]] input r.rest := by
  unfold separator at h
  split at h
  · cases h
  · next hskip =>
    split at h
    · next hmark =>
      cases h
      subst hmark
      exact spans_of_skipGaps [_] hskip
    · cases h

theorem spans_of_afterPart {closing : Char} {turn : Reading Turn input}
    (h : afterPart closing input = .ok turn) :
    Spans [[match turn.value with | .more => ',' | .close => closing]] input turn.rest := by
  unfold afterPart at h
  split at h
  · cases h
  · next hskip =>
    split at h
    · next hmark =>
      cases h
      subst hmark
      exact spans_of_skipGaps [_] hskip
    · split at h
      · next hmark =>
        cases h
        subst hmark
        exact spans_of_skipGaps [_] hskip
      · cases h

theorem spans_of_closesAtOnce {closing : Char} {r : Reading Unit input}
    (h : closesAtOnce closing input = some r) : Spans [[closing]] input r.rest := by
  unfold closesAtOnce at h
  split at h
  · next hskip =>
    split at h
    · next hmark =>
      cases h
      subst hmark
      exact spans_of_skipGaps [_] hskip
    · cases h
  · cases h

theorem eq_append_of_literal {c : Char} {word : List Char} {r : Reading Unit (c :: input)}
    (h : literal word (c :: input) = .ok r) : input = word ++ r.rest := by
  have hword : ∀ (word input : List Char) {found}, expectWord word input = .ok found →
      input = word ++ found.1 := by
    intro word
    induction word with
    | nil =>
      rintro input _ ⟨⟩
      rfl
    | cons d word ih =>
      intro input found hfound
      cases input with
      | nil => cases hfound
      | cons e input =>
        rw [expectWord] at hfound
        split at hfound
        · next heq =>
          obtain ⟨shorter, hshorter, rfl⟩ := exists_of_map_eq_ok hfound
          rw [List.cons_append, heq, ← ih input hshorter]
        · cases hfound
  obtain ⟨found, hfound, rfl⟩ := exists_of_map_eq_ok h
  exact hword word input hfound

/-! ### Strings -/

theorem eq_of_hex4 {r : Reading Nat input} (h : hex4 input = .ok r) :
    ∃ a b c d, input = a :: b :: c :: d :: r.rest ∧ hexValue4? a b c d = some r.value := by
  unfold hex4 at h
  split at h
  · next a b c d cs =>
    split at h
    · next hvalue =>
      cases h
      exact ⟨a, b, c, d, rfl, hvalue⟩
    · cases h
  · cases h

theorem eq_of_lowSurrogate {high : Nat} {r : Reading Char input}
    (h : lowSurrogate high input = .ok r) :
    ∃ glyph : Glyph, input = glyph.chars ++ r.rest := by
  unfold lowSurrogate at h
  split at h
  · cases h
  · cases h
  · obtain ⟨low, hhex, h⟩ := exists_of_bind_eq_ok h
    obtain ⟨a, b, c, d, heq, hvalue⟩ := eq_of_hex4 hhex
    generalize joinSurrogates high = join at h
    split at h
    · cases h
      exact ⟨.unit a b c d _ hvalue, congrArg (fun cs => '\\' :: 'u' :: cs) heq⟩
    · cases h
  · cases h

theorem eq_of_unicodeEscape {r : Reading Char input} (h : unicodeEscape input = .ok r) :
    ∃ glyphs : List Glyph, '\\' :: 'u' :: input = glyphs.flatMap Glyph.chars ++ r.rest := by
  obtain ⟨unit, hhex, h⟩ := exists_of_bind_eq_ok h
  obtain ⟨a, b, c, d, heq, hvalue⟩ := eq_of_hex4 hhex
  have hunit := congrArg (fun cs => '\\' :: 'u' :: cs) heq
  split at h
  · cases h
  · split at h
    · obtain ⟨low, hlow, h⟩ := exists_of_bind_eq_ok h
      cases h
      obtain ⟨glyph, hglyph⟩ := eq_of_lowSurrogate hlow
      refine ⟨[.unit a b c d _ hvalue, glyph], hunit.trans ?_⟩
      simp [Glyph.chars, Reading.andThen, hglyph]
    · cases h
      exact ⟨[.unit a b c d _ hvalue], hunit⟩

theorem eq_of_escape {r : Reading Char input} (h : escape input = .ok r) :
    ∃ glyphs : List Glyph, '\\' :: input = glyphs.flatMap Glyph.chars ++ r.rest := by
  unfold escape at h
  split at h
  · cases h
  · next c cs =>
    split at h
    · next d hshort =>
      cases h
      exact ⟨[.short c d hshort], rfl⟩
    · split at h
      · next hu =>
        subst hu
        obtain ⟨s, hunicode, rfl⟩ := exists_of_map_eq_ok h
        obtain ⟨glyphs, heq⟩ := eq_of_unicodeEscape hunicode
        exact ⟨glyphs, heq⟩
      · cases h

theorem eq_of_stringBody {r : Reading (List Char) input} (h : stringBody input = .ok r) :
    ∃ glyphs : List Glyph, input = glyphs.flatMap Glyph.chars ++ '"' :: r.rest := by
  fun_induction stringBody input with
  | case1 => cases h
  | case2 cs =>
    cases h
    exact ⟨[], rfl⟩
  | case3 => cases h
  | case4 cs escaped hescape _ _ ih =>
    obtain ⟨s, hs, rfl⟩ := exists_of_map_eq_ok h
    obtain ⟨glyphs, heq⟩ := eq_of_escape hescape
    obtain ⟨more, hmore⟩ := ih hs
    refine ⟨glyphs ++ more, heq.trans ?_⟩
    rw [List.flatMap_append, List.append_assoc]
    exact congrArg _ hmore
  | case5 => cases h
  | case6 c cs hquote hslash hcontrol ih =>
    obtain ⟨s, hs, rfl⟩ := exists_of_map_eq_ok h
    obtain ⟨glyphs, heq⟩ := ih hs
    exact ⟨.plain c ⟨hquote, hslash, by omega⟩ :: glyphs, congrArg (c :: ·) heq⟩

theorem eq_of_skipStringBody {r : Reading Unit input} (h : skipStringBody input = .ok r) :
    ∃ glyphs : List Glyph, input = glyphs.flatMap Glyph.chars ++ '"' :: r.rest := by
  fun_induction skipStringBody input with
  | case2 a b c d cs n hvalue ih =>
    obtain ⟨s, hs, rfl⟩ := exists_of_map_eq_ok h
    obtain ⟨glyphs, heq⟩ := ih hs
    exact ⟨.unit a b c d n hvalue :: glyphs,
      congrArg (fun cs => '\\' :: 'u' :: a :: b :: c :: d :: cs) heq⟩
  | case5 c cs _ _ hshort ih =>
    obtain ⟨s, hs, rfl⟩ := exists_of_map_eq_ok h
    obtain ⟨glyphs, heq⟩ := ih hs
    obtain ⟨d, hshort⟩ := Option.isSome_iff_exists.mp hshort
    exact ⟨.short c d hshort :: glyphs, congrArg (fun cs => '\\' :: c :: cs) heq⟩
  | case7 cs =>
    cases h
    exact ⟨[], rfl⟩
  | case10 c cs _ _ hquote hslash hcontrol ih =>
    obtain ⟨s, hs, rfl⟩ := exists_of_map_eq_ok h
    obtain ⟨glyphs, heq⟩ := ih hs
    exact ⟨.plain c ⟨hquote, hslash, by omega⟩ :: glyphs, congrArg (c :: ·) heq⟩
  | _ => cases h

/-! ### Numbers -/

theorem eq_of_digits1 {r : Reading (List Char) input} (h : digits1 input = .ok r) :
    DigitRun r.value ∧ input = r.value ++ r.rest := by
  unfold digits1 at h
  split at h
  · next hpos =>
    cases h
    exact ⟨⟨List.length_pos_iff.mp hpos, fun c hc => List.mem_takeWhile_imp hc⟩,
      (List.prefix_iff_eq_append.mp (List.takeWhile_prefix _)).symm⟩
  · cases h

theorem eq_of_wholeDigits {r : Reading (List Char) input} (h : wholeDigits input = .ok r) :
    DigitRun r.value ∧ ¬ (r.value.head? = some '0' ∧ r.value.length ≠ 1) ∧
      input = r.value ++ r.rest := by
  obtain ⟨digits, hdigits, h⟩ := exists_of_bind_eq_ok h
  obtain ⟨hrun, heq⟩ := eq_of_digits1 hdigits
  split at h
  · cases h
  · next hzero =>
    cases h
    exact ⟨hrun, hzero, heq⟩

theorem eq_of_fractionPart {r : Reading (List Char) input} (h : fractionPart input = .ok (some r)) :
    DigitRun r.value ∧ input = '.' :: (r.value ++ r.rest) := by
  unfold fractionPart at h
  split at h
  · obtain ⟨digits, hdigits, h⟩ := exists_of_map_eq_ok h
    cases h
    obtain ⟨hrun, heq⟩ := eq_of_digits1 hdigits
    exact ⟨hrun, congrArg ('.' :: ·) heq⟩
  · cases h

theorem eq_of_exponentPart {r : Reading (Bool × List Char) input}
    (h : exponentPart input = .ok (some r)) : ∃ e : ExponentText, input = e.chars ++ r.rest := by
  unfold exponentPart at h
  split at h
  · next letter cs =>
    split at h
    · next hletter =>
      split at h
      all_goals
        obtain ⟨digits, hdigits, h⟩ := exists_of_map_eq_ok h
        cases h
        obtain ⟨hrun, heq⟩ := eq_of_digits1 hdigits
      · exact ⟨⟨letter, some '-', digits.value, hletter, by simp, hrun⟩,
          congrArg (fun ds => letter :: '-' :: ds) heq⟩
      · exact ⟨⟨letter, some '+', digits.value, hletter, by simp, hrun⟩,
          congrArg (fun ds => letter :: '+' :: ds) heq⟩
      · exact ⟨⟨letter, none, digits.value, hletter, by simp, hrun⟩,
          congrArg (fun ds => letter :: ds) heq⟩
    · cases h
  · cases h

theorem eq_of_unsigned {negative : Bool} {r : Reading Numeral input}
    (h : unsigned negative input = .ok r) :
    ∃ n : NumberText, n.negative = negative ∧ input = n.unsignedChars ++ r.rest := by
  obtain ⟨whole, hwhole, h⟩ := exists_of_bind_eq_ok h
  obtain ⟨hrun, hzero, heq⟩ := eq_of_wholeDigits hwhole
  obtain ⟨fraction, hfraction, h⟩ := exists_of_bind_eq_ok h
  -- each part that is there is put behind the ones before it
  cases fraction with
  | none =>
    obtain ⟨exponent, hexponent, h⟩ := exists_of_bind_eq_ok h
    cases exponent with
    | none =>
      cases h
      refine ⟨⟨negative, whole.value, none, none, hrun, hzero, nofun⟩, rfl, heq.trans ?_⟩
      simp [NumberText.unsignedChars, Reading.map]
    | some exponent =>
      cases h
      obtain ⟨e, hexponent⟩ := eq_of_exponentPart hexponent
      have heq := heq.trans (congrArg (whole.value ++ ·) hexponent)
      refine ⟨⟨negative, whole.value, none, some e, hrun, hzero, nofun⟩, rfl, heq.trans ?_⟩
      simp [NumberText.unsignedChars, Reading.map, Reading.andThen]
  | some fraction =>
    obtain ⟨exponent, hexponent, h⟩ := exists_of_bind_eq_ok h
    obtain ⟨hdigits, hfraction⟩ := eq_of_fractionPart hfraction
    have hdigits : ∀ digits ∈ some fraction.value, DigitRun digits := by
      rintro _ ⟨⟩
      exact hdigits
    have heq := heq.trans (congrArg (whole.value ++ ·) hfraction)
    cases exponent with
    | none =>
      cases h
      refine ⟨⟨negative, whole.value, some fraction.value, none, hrun, hzero, hdigits⟩, rfl,
        heq.trans ?_⟩
      simp [NumberText.unsignedChars, Reading.map, Reading.andThen]
    | some exponent =>
      cases h
      obtain ⟨e, hexponent⟩ := eq_of_exponentPart hexponent
      have heq := heq.trans
        (congrArg (fun cs => whole.value ++ '.' :: (fraction.value ++ cs)) hexponent)
      refine ⟨⟨negative, whole.value, some fraction.value, some e, hrun, hzero, hdigits⟩, rfl,
        heq.trans ?_⟩
      simp [NumberText.unsignedChars, Reading.map, Reading.andThen]

theorem eq_of_numeral {r : Reading Numeral input} (h : numeral input = .ok r) :
    ∃ n : NumberText, input = n.chars ++ r.rest := by
  unfold numeral at h
  split at h
  · obtain ⟨s, hs, rfl⟩ := exists_of_map_eq_ok h
    obtain ⟨n, hn, heq⟩ := eq_of_unsigned hs
    refine ⟨n, ?_⟩
    rw [NumberText.chars, if_pos hn]
    exact congrArg ('-' :: ·) heq
  · obtain ⟨n, hn, heq⟩ := eq_of_unsigned h
    refine ⟨n, ?_⟩
    rwa [NumberText.chars, if_neg (by simp [hn])]

/-! ### Names -/

theorem spans_quoted {glyphs : List Glyph} (hquote : Spans [['"']] input mid)
    (hbody : mid = glyphs.flatMap Glyph.chars ++ '"' :: rest) :
    Spans [quoted glyphs] input rest := by
  obtain ⟨gap, _, hgap, rfl, rfl⟩ := hquote
  refine ⟨gap, rest, hgap, ?_, rfl⟩
  rw [quoted_append, hbody, List.singleton_append]

theorem spans_of_skipName {r : Reading Unit input} (h : skipName input = .ok r) :
    ∃ name mid, Spans [quoted name] input mid ∧ Spans [[':']] mid r.rest := by
  obtain ⟨quote, hquote, h⟩ := exists_of_bind_eq_ok h
  obtain ⟨body, hbody, h⟩ := exists_of_bind_eq_ok h
  obtain ⟨colon, hcolon, h⟩ := exists_of_bind_eq_ok h
  cases h
  obtain ⟨name, heq⟩ := eq_of_skipStringBody hbody
  exact ⟨name, body.rest, spans_quoted (spans_of_separator hquote) heq, spans_of_separator hcolon⟩

theorem spans_of_memberName {r : Reading String input} (h : memberName input = .ok r) :
    ∃ name, Spans [quoted name] input r.rest := by
  obtain ⟨quote, hquote, h⟩ := exists_of_bind_eq_ok h
  obtain ⟨body, hbody, h⟩ := exists_of_bind_eq_ok h
  cases h
  obtain ⟨name, heq⟩ := eq_of_stringBody hbody
  exact ⟨name, spans_quoted (spans_of_separator hquote) heq⟩

end Agenda.Json

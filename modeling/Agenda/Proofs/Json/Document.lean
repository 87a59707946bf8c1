/-
Agenda/Proofs/Json/Document.lean

JSON documents.  A document is what a text says apart from its layout.  Strings and
numbers stand in it as they are spelled: whether a text is JSON does not depend on
whether anybody can make sense of it, and a string with half of a surrogate pair, or a
number that is too large, is well-formed all the same.

    Spans lexemes input rest

says that `input` starts with these lexemes, with gaps before each of them or without,
and that `rest` follows.  A text is written from a document if its lexemes span the
text, but for gaps at the end (`Document.Written`); so two texts that differ in their
gaps only are written from the same document.
-/
import Agenda.Proofs.Json.Reader

namespace Agenda.Json

open Text

/-! ### Strings -/

/-- One place of a string, as it is spelled. -/
inductive Glyph where
  /-- A character that stands for itself. -/
  | plain (c : Char) (h : c ≠ '"' ∧ c ≠ '\\' ∧ 32 ≤ c.toNat)
  /-- A letter after a backslash, and the character that it stands for. -/
  | short (c meaning : Char) (h : shortEscape? c = some meaning)
  /-- Four hexadecimal digits, and the number that they write. -/
  | unit (a b c d : Char) (n : Nat) (h : hexValue4? a b c d = some n)

/-- The characters of a glyph. -/
def Glyph.chars : Glyph → List Char
  | plain c _ => [c]
  | short c _ _ => ['\\', c]
  | unit a b c d _ _ => ['\\', 'u', a, b, c, d]

/-- The spelling of a text without escapes. -/
def plainGlyphs (text : List Char)
    (h : (text.all fun c => c ≠ '"' ∧ c ≠ '\\' ∧ 32 ≤ c.toNat) = true) : List Glyph :=
  text.attach.map fun c => .plain c.1 (of_decide_eq_true (List.all_eq_true.mp h c.1 c.2))

/-- A string with its quotes. -/
def quoted (glyphs : List Glyph) : List Char :=
  '"' :: (glyphs.flatMap Glyph.chars ++ ['"'])

theorem quoted_append (glyphs : List Glyph) (rest : List Char) :
    quoted glyphs ++ rest = '"' :: (glyphs.flatMap Glyph.chars ++ '"' :: rest) := by
  simp [quoted]

/-- The characters that a string spells, unless half of a surrogate pair stands alone in it. -/
def spelledChars? : List Glyph → Option (List Char)
  | [] => some []
  | .plain c _ :: glyphs => (spelledChars? glyphs).map (c :: ·)
  | .short _ d _ :: glyphs => (spelledChars? glyphs).map (d :: ·)
  | .unit _ _ _ _ n _ :: glyphs =>
    if isLowSurrogate n then none
    else if isHighSurrogate n then
      match glyphs with
      | .unit _ _ _ _ m _ :: glyphs =>
        if isLowSurrogate m then (spelledChars? glyphs).map (joinSurrogates n m :: ·) else none
      | _ => none
    else (spelledChars? glyphs).map (Char.ofNat n :: ·)

/-- The text that a string spells. -/
def spelled? (glyphs : List Glyph) : Option String :=
  (spelledChars? glyphs).map String.ofList

/-! ### Numbers -/

/-- One digit or more. -/
def DigitRun (digits : List Char) : Prop :=
  digits ≠ [] ∧ ∀ c ∈ digits, c.isDigit = true

-- the digits are looked at one by one, not all characters there are
instance (digits : List Char) : Decidable (DigitRun digits) :=
  decidable_of_iff (digits ≠ [] ∧ digits.all Char.isDigit = true)
    (and_congr_right' List.all_eq_true)

/-- An exponent, as it is spelled. -/
structure ExponentText where
  /-- The letter in front. -/
  letter : Char
  /-- The sign, if there is one. -/
  sign : Option Char
  /-- The digits. -/
  digits : List Char
  /-- The letter may be a capital. -/
  letter_eq : letter = 'e' ∨ letter = 'E'
  /-- There are two signs. -/
  sign_eq : ∀ c ∈ sign, c = '-' ∨ c = '+'
  /-- There are digits. -/
  digits_run : DigitRun digits

/-- The characters of an exponent. -/
def ExponentText.chars (e : ExponentText) : List Char :=
  e.letter :: (e.sign.toList ++ e.digits)

/-- A number, as it is spelled. -/
structure NumberText where
  /-- A sign stands in front. -/
  negative : Bool
  /-- The digits before the point. -/
  whole : List Char
  /-- The digits after the point, if there is one. -/
  fraction : Option (List Char) := none
  /-- The exponent, if there is one. -/
  exponent : Option ExponentText := none
  /-- There are digits before the point. -/
  whole_run : DigitRun whole
  /-- A zero in front stands alone. -/
  whole_zero : ¬ (whole.head? = some '0' ∧ whole.length ≠ 1)
  /-- There are digits after the point. -/
  fraction_run : ∀ digits ∈ fraction, DigitRun digits

namespace NumberText

/-- The characters of a number after its sign. -/
def unsignedChars (n : NumberText) : List Char :=
  n.whole ++ (n.fraction.elim [] ('.' :: ·) ++ n.exponent.elim [] ExponentText.chars)

/-- The characters of a number. -/
def chars (n : NumberText) : List Char :=
  if n.negative then '-' :: n.unsignedChars else n.unsignedChars

/-- The parts of a number that say which number it is. -/
def numeral (n : NumberText) : Numeral where
  negative := n.negative
  whole := n.whole
  fraction := n.fraction
  exponent := n.exponent.map fun e => (e.sign = some '-', e.digits)

/-- The number zero, of which there is one spelling without sign, point and exponent. -/
def zero : NumberText where
  negative := false
  whole := ['0']
  whole_run := by decide
  whole_zero := by decide
  fraction_run := by rintro _ ⟨⟩

theorem exists_whole_eq_cons (n : NumberText) :
    ∃ c cs, n.whole = c :: cs ∧ c.isDigit = true := by
  obtain ⟨c, cs, h⟩ := List.exists_cons_of_ne_nil n.whole_run.1
  exact ⟨c, cs, h, n.whole_run.2 c (by rw [h]; exact List.mem_cons_self)⟩

/-- A number starts with its sign or with a digit. -/
theorem exists_chars_eq_cons (n : NumberText) :
    ∃ c cs, n.chars = c :: cs ∧ (c = '-' ∨ c.isDigit = true) := by
  obtain ⟨c, cs, h, hc⟩ := n.exists_whole_eq_cons
  rw [chars, unsignedChars, h]
  split
  · exact ⟨'-', _, rfl, .inl rfl⟩
  · exact ⟨c, _, rfl, .inr hc⟩

end NumberText

/-- Nothing else starts like a number. -/
theorem ne_of_number_start {c : Char} (hc : c = '-' ∨ c.isDigit = true) (d : Char)
    (hd : ¬ (d = '-' ∨ d.isDigit = true)) : c ≠ d := by
  rintro rfl
  exact hd hc

/-! ### Documents -/

/-- A JSON document, apart from its layout. -/
inductive Document where
  /-- The value `null`. -/
  | null
  /-- A truth value. -/
  | bool (b : Bool)
  /-- A number. -/
  | number (n : NumberText)
  /-- A string. -/
  | string (glyphs : List Glyph)
  /-- A sequence of values. -/
  | array (elements : List Document)
  /-- Members, each with its name. -/
  | object (members : List (List Glyph × Document))

/-- A member of an object: its name and its value. -/
abbrev Member :=
  List Glyph × Document

mutual

/-- The parts of a document between which gaps may stand. -/
def Document.lexemes : Document → List (List Char)
  | .null => [['n', 'u', 'l', 'l']]
  | .bool b => [boolean b]
  | .number n => [n.chars]
  | .string glyphs => [quoted glyphs]
  | .array elements => ['['] :: (elementLexemes elements ++ [[']']])
  | .object members => [openObject] :: (memberLexemes members ++ [[closeObject]])

/-- The elements of an array, with commas between them. -/
def elementLexemes : List Document → List (List Char)
  | [] => []
  | [v] => v.lexemes
  | v :: vs => v.lexemes ++ [','] :: elementLexemes vs

/-- The members of an object, with commas between them. -/
def memberLexemes : List Member → List (List Char)
  | [] => []
  | [(name, v)] => quoted name :: [':'] :: v.lexemes
  | (name, v) :: members => quoted name :: [':'] :: (v.lexemes ++ [','] :: memberLexemes members)

end

theorem elementLexemes_cons_cons (v next : Document) (vs : List Document) :
    elementLexemes (v :: next :: vs) = v.lexemes ++ [','] :: elementLexemes (next :: vs) := by
  rw [elementLexemes]
  nofun

theorem memberLexemes_cons_cons (name : List Glyph) (v : Document) (next : Member)
    (members : List Member) :
    memberLexemes ((name, v) :: next :: members) =
      quoted name :: [':'] :: (v.lexemes ++ [','] :: memberLexemes (next :: members)) := by
  rw [memberLexemes]
  nofun

/-- No document starts with a gap or with the mark that closes an array. -/
theorem Document.exists_lexemes_eq_cons (v : Document) :
    ∃ c word lexemes, v.lexemes = (c :: word) :: lexemes ∧ isGap c = false ∧ c ≠ ']' := by
  cases v with
  | null => exact ⟨_, _, _, rfl, rfl, by decide⟩
  | bool b => cases b <;> exact ⟨_, _, _, rfl, rfl, by decide⟩
  | number n =>
    obtain ⟨c, cs, h, hc⟩ := n.exists_chars_eq_cons
    refine ⟨c, cs, [], by rw [Document.lexemes, h], ?_, ?_⟩
    · rcases hc with rfl | hc
      · rfl
      · by_contra hgap
        simp only [isGap, Bool.not_eq_false, Bool.or_eq_true, decide_eq_true_eq] at hgap
        rcases hgap with ((rfl | rfl) | rfl) | rfl <;> cases hc
    · rintro rfl
      rcases hc with hc | hc <;> cases hc
  | string glyphs => exact ⟨_, _, _, rfl, rfl, by decide⟩
  | array elements => exact ⟨_, _, _, by rw [Document.lexemes], rfl, by decide⟩
  | object members => exact ⟨_, _, _, by rw [Document.lexemes], rfl, by decide⟩

/-! ### Layout -/

/-- The text `input` starts with these lexemes, gaps before each of them, and `rest` follows. -/
def Spans : List (List Char) → (input rest : List Char) → Prop
  | [], input, rest => input = rest
  | lexeme :: lexemes, input, rest =>
    ∃ gap mid, Gaps gap ∧ input = gap ++ (lexeme ++ mid) ∧ Spans lexemes mid rest

/-- The text is written from the document. -/
def Document.Written (v : Document) (text : String) : Prop :=
  ∃ rest, Spans v.lexemes text.toList rest ∧ Gaps rest

section Spans

variable {input rest mid : List Char} {lexemes lexemes' : List (List Char)}

theorem spans_append_iff :
    Spans (lexemes ++ lexemes') input rest ↔
      ∃ mid, Spans lexemes input mid ∧ Spans lexemes' mid rest := by
  induction lexemes generalizing input with
  | nil => simp [Spans]
  | cons lexeme lexemes ih =>
    rw [List.cons_append]
    constructor
    · rintro ⟨gap, next, hgap, rfl, h⟩
      obtain ⟨mid, hfirst, hlast⟩ := ih.mp h
      exact ⟨mid, ⟨gap, next, hgap, rfl, hfirst⟩, hlast⟩
    · rintro ⟨mid, ⟨gap, next, hgap, rfl, hfirst⟩, hlast⟩
      exact ⟨gap, next, hgap, rfl, ih.mpr ⟨mid, hfirst, hlast⟩⟩

theorem spans_cons (lexeme : List Char) (h : Spans lexemes mid rest) :
    Spans (lexeme :: lexemes) (lexeme ++ mid) rest :=
  ⟨[], mid, gaps_nil, rfl, h⟩

/-- Gaps may stand before the first lexeme. -/
theorem Spans.of_skipGaps {lexeme : List Char}
    (h : Spans (lexeme :: lexemes) (skipGaps input) rest) :
    Spans (lexeme :: lexemes) input rest := by
  obtain ⟨gap, mid, hgap, heq, hmid⟩ := h
  refine ⟨input.takeWhile isGap ++ gap, mid, ?_, ?_, hmid⟩
  · intro c hc
    rcases List.mem_append.mp hc with hc | hc
    · exact List.mem_takeWhile_imp hc
    · exact hgap c hc
  · rw [List.append_assoc, ← heq, skipGaps, List.takeWhile_append_dropWhile]

/-- What stands after the gaps in front. -/
theorem Spans.skipGaps_eq {c : Char} {word : List Char}
    (h : Spans ((c :: word) :: lexemes) input rest) (hc : isGap c = false) :
    ∃ mid, skipGaps input = c :: (word ++ mid) ∧ Spans lexemes mid rest := by
  obtain ⟨gap, mid, hgap, rfl, hmid⟩ := h
  exact ⟨mid, skipGaps_append hgap hc _, hmid⟩

end Spans

/-! ### What follows a value -/

/-- A value ends before this text: nothing follows, or a gap, or a comma, or a closing mark. -/
def Ends (rest : List Char) : Prop :=
  ∀ c ∈ rest.head?, isGap c = true ∨ c = ',' ∨ c = ']' ∨ c = closeObject

section Ends

variable {gap rest : List Char}

theorem ends_of_gaps (hgap : Gaps gap) : Ends gap := by
  intro c hc
  exact .inl (hgap c (List.mem_of_mem_head? hc))

theorem ends_append (hgap : Gaps gap) {c : Char} (hc : c = ',' ∨ c = ']' ∨ c = closeObject) :
    Ends (gap ++ c :: rest) := by
  cases gap with
  | nil =>
    rintro d ⟨⟩
    exact .inr hc
  | cons d gap =>
    rintro e ⟨⟩
    exact .inl (hgap _ List.mem_cons_self)

theorem Spans.ends {c : Char} {lexemes : List (List Char)} {input : List Char}
    (h : Spans ([c] :: lexemes) input rest) (hc : c = ',' ∨ c = ']' ∨ c = closeObject) :
    Ends input := by
  obtain ⟨gap, mid, hgap, rfl, -⟩ := h
  exact ends_append hgap hc

end Ends

/-! ### Checking what is written -/

/-- A lexeme starts with something else than a gap. -/
def StartsWord (lexeme : List Char) : Prop :=
  ∃ c word, lexeme = c :: word ∧ isGap c = false

theorem startsWord_of_lexemes_eq {v : Document} {lexeme : List Char} (h : v.lexemes = [lexeme]) :
    StartsWord lexeme := by
  obtain ⟨c, word, lexemes, hcons, hc, -⟩ := v.exists_lexemes_eq_cons
  exact ⟨c, word, (List.cons.inj (h.symm.trans hcons)).1, hc⟩

mutual

theorem startsWord_of_mem_lexemes : ∀ (v : Document), ∀ lexeme ∈ v.lexemes, StartsWord lexeme
  | .null => by
    rw [Document.lexemes, List.forall_mem_singleton]
    exact startsWord_of_lexemes_eq (v := .null) rfl
  | .bool b => by
    rw [Document.lexemes, List.forall_mem_singleton]
    exact startsWord_of_lexemes_eq (v := .bool b) rfl
  | .number n => by
    rw [Document.lexemes, List.forall_mem_singleton]
    exact startsWord_of_lexemes_eq (v := .number n) rfl
  | .string glyphs => by
    rw [Document.lexemes, List.forall_mem_singleton]
    exact startsWord_of_lexemes_eq (v := .string glyphs) rfl
  | .array elements => by
    rw [Document.lexemes, List.forall_mem_cons, List.forall_mem_append, List.forall_mem_singleton]
    exact ⟨⟨'[', [], rfl, rfl⟩, startsWord_of_mem_elementLexemes elements, ⟨']', [], rfl, rfl⟩⟩
  | .object members => by
    rw [Document.lexemes, List.forall_mem_cons, List.forall_mem_append, List.forall_mem_singleton]
    exact ⟨⟨openObject, [], rfl, by decide⟩, startsWord_of_mem_memberLexemes members,
      ⟨closeObject, [], rfl, by decide⟩⟩

theorem startsWord_of_mem_elementLexemes : ∀ (vs : List Document), ∀ lexeme ∈ elementLexemes vs,
    StartsWord lexeme
  | [] => by
    rw [elementLexemes]
    nofun
  | [v] => startsWord_of_mem_lexemes v
  | v :: next :: vs => by
    rw [elementLexemes_cons_cons, List.forall_mem_append, List.forall_mem_cons]
    exact ⟨startsWord_of_mem_lexemes v, ⟨',', [], rfl, rfl⟩,
      startsWord_of_mem_elementLexemes (next :: vs)⟩

theorem startsWord_of_mem_memberLexemes : ∀ (members : List Member),
    ∀ lexeme ∈ memberLexemes members, StartsWord lexeme
  | [] => by
    rw [memberLexemes]
    nofun
  | [(name, v)] => by
    rw [memberLexemes, List.forall_mem_cons, List.forall_mem_cons]
    exact ⟨⟨'"', _, rfl, rfl⟩, ⟨':', [], rfl, rfl⟩, startsWord_of_mem_lexemes v⟩
  | (name, v) :: next :: members => by
    rw [memberLexemes_cons_cons, List.forall_mem_cons, List.forall_mem_cons,
      List.forall_mem_append, List.forall_mem_cons]
    exact ⟨⟨'"', _, rfl, rfl⟩, ⟨':', [], rfl, rfl⟩, startsWord_of_mem_lexemes v,
      ⟨',', [], rfl, rfl⟩, startsWord_of_mem_memberLexemes (next :: members)⟩

end

/-- What follows the lexemes, if the text starts with them. -/
def afterLexemes? : List (List Char) → List Char → Option (List Char)
  | [], input => some input
  | lexeme :: lexemes, input =>
    ((skipGaps input).dropPrefix? lexeme).bind (afterLexemes? lexemes)

theorem spans_iff_afterLexemes {lexemes : List (List Char)} {input rest : List Char}
    (h : ∀ lexeme ∈ lexemes, StartsWord lexeme) :
    Spans lexemes input rest ↔ afterLexemes? lexemes input = some rest := by
  induction lexemes generalizing input with
  | nil => rw [afterLexemes?, Option.some.injEq, Spans]
  | cons lexeme lexemes ih =>
    obtain ⟨hlexeme, hlexemes⟩ := List.forall_mem_cons.mp h
    obtain ⟨c, word, rfl, hc⟩ := hlexeme
    rw [afterLexemes?, Option.bind_eq_some_iff]
    constructor
    · intro hspans
      obtain ⟨mid, hskip, hmid⟩ := hspans.skipGaps_eq hc
      exact ⟨mid, List.dropPrefix?_eq_some_iff.mpr ⟨c :: word, hskip, beq_self_eq_true _⟩,
        (ih hlexemes).mp hmid⟩
    · rintro ⟨mid, hprefix, hmid⟩
      obtain ⟨_, hskip, heq⟩ := List.dropPrefix?_eq_some_iff.mp hprefix
      rw [beq_iff_eq] at heq
      rw [heq] at hskip
      exact Spans.of_skipGaps (hskip ▸ ⟨[], mid, gaps_nil, rfl, (ih hlexemes).mpr hmid⟩)

theorem Document.written_iff {v : Document} {text : String} :
    v.Written text ↔ ∃ rest ∈ afterLexemes? v.lexemes text.toList, Gaps rest := by
  rw [Document.Written]
  simp only [spans_iff_afterLexemes (startsWord_of_mem_lexemes v), Option.mem_def]

instance (gap : List Char) : Decidable (Gaps gap) :=
  decidable_of_iff (gap.all isGap = true) List.all_eq_true

instance (v : Document) (text : String) : Decidable (v.Written text) :=
  decidable_of_iff _ v.written_iff.symm

end Agenda.Json

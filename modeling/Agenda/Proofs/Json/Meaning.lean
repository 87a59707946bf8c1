/-
Agenda/Proofs/Json/Meaning.lean

What a reader makes of a text depends on the document alone that it is written from.

    Understands reader meaning

says that `reader` comes to `meaning v` wherever the document `v` is written, in whatever
layout, and fails where `v` means nothing to it.  Scalars are understood, and so are
arrays if their elements are (`understands_array`).
-/
import Agenda.Proofs.Json.Skipping

namespace Agenda.Json

open Text

variable {α δ : Type} {input rest : List Char} {v : Document}

/-- The reader comes to what each document means, wherever it is written. -/
def Understands (reader : Reader α) (meaning : Document → Option α) : Prop :=
  ∀ (v : Document) ⦃input rest : List Char⦄, Spans v.lexemes input rest → Ends rest →
    Settles (reader input) (meaning v) rest

/-! ### Where a document starts -/

/-- The text starts with the document, without gaps in front, and `rest` follows. -/
inductive Document.Starts : Document → (input rest : List Char) → Prop
  | null (rest : List Char) : Starts .null ('n' :: (['u', 'l', 'l'] ++ rest)) rest
  | isTrue (rest : List Char) : Starts (.bool true) ('t' :: (['r', 'u', 'e'] ++ rest)) rest
  | isFalse (rest : List Char) : Starts (.bool false) ('f' :: (['a', 'l', 's', 'e'] ++ rest)) rest
  | number {rest cs : List Char} {c : Char} (n : NumberText) (hc : c = '-' ∨ c.isDigit = true)
      (h : n.chars ++ rest = c :: cs) : Starts (.number n) (c :: cs) rest
  | string (glyphs : List Glyph) (rest : List Char) :
      Starts (.string glyphs) ('"' :: (glyphs.flatMap Glyph.chars ++ '"' :: rest)) rest
  | array {cs rest : List Char} (elements : List Document)
      (h : Spans (elementLexemes elements ++ [[']']]) cs rest) :
      Starts (.array elements) ('[' :: cs) rest
  | object {cs rest : List Char} (members : List Member)
      (h : Spans (memberLexemes members ++ [[closeObject]]) cs rest) :
      Starts (.object members) (openObject :: cs) rest

theorem Document.starts_of_spans (h : Spans v.lexemes input rest) :
    v.Starts (skipGaps input) rest := by
  cases v with
  | null =>
    obtain ⟨mid, hskip, rfl⟩ := h.skipGaps_eq rfl
    rw [hskip]
    exact .null mid
  | bool b =>
    cases b with
    | true =>
      obtain ⟨mid, hskip, rfl⟩ := h.skipGaps_eq rfl
      rw [hskip]
      exact .isTrue mid
    | false =>
      obtain ⟨mid, hskip, rfl⟩ := h.skipGaps_eq rfl
      rw [hskip]
      exact .isFalse mid
  | number n =>
    obtain ⟨c, word, lexemes, hcons, hgap, -⟩ := (Document.number n).exists_lexemes_eq_cons
    obtain ⟨d, cs, hchars, hd⟩ := n.exists_chars_eq_cons
    obtain ⟨hword, rfl⟩ := List.cons.inj hcons
    rw [hcons] at h
    obtain ⟨mid, hskip, rfl⟩ := h.skipGaps_eq hgap
    obtain ⟨rfl, rfl⟩ := List.cons.inj (hchars.symm.trans hword)
    rw [hskip]
    exact .number n hd (by rw [hchars, List.cons_append])
  | string glyphs =>
    obtain ⟨mid, hskip, rfl⟩ := h.skipGaps_eq rfl
    rw [hskip, List.append_assoc, List.singleton_append]
    exact .string glyphs mid
  | array elements =>
    rw [Document.lexemes] at h
    obtain ⟨mid, hskip, hmid⟩ := h.skipGaps_eq rfl
    rw [hskip]
    exact .array elements hmid
  | object members =>
    rw [Document.lexemes] at h
    obtain ⟨mid, hskip, hmid⟩ := h.skipGaps_eq (by decide)
    rw [hskip]
    exact .object members hmid

theorem Document.Starts.spans (h : v.Starts input rest) : Spans v.lexemes input rest := by
  cases h with
  | null => exact spans_cons _ rfl
  | isTrue => exact spans_cons _ rfl
  | isFalse => exact spans_cons _ rfl
  | number n _ h => exact h ▸ spans_cons n.chars rfl
  | string glyphs => exact quoted_append glyphs rest ▸ spans_cons (quoted glyphs) rfl
  | array elements h =>
    rw [Document.lexemes]
    exact spans_cons ['['] h
  | object members h =>
    rw [Document.lexemes]
    exact spans_cons [openObject] h

/-- Readers of values skip the gaps in front. -/
theorem understands_pastGaps {reader : Reader α} {meaning : Document → Option α}
    (h : ∀ (v : Document) (input rest : List Char), v.Starts input rest → Ends rest →
      Settles (reader input) (meaning v) rest) : Understands (pastGaps reader) meaning := by
  intro v input rest hspans hrest
  have hsettled := (h v _ rest (Document.starts_of_spans hspans) hrest).mapReading (g := afterGaps)
    (f := id) (fun _ => rfl) fun _ => rfl
  rwa [Option.map_id] at hsettled

/-! ### Scalars -/

/-- The text that a document is. -/
def Document.text? : Document → Option String
  | .string glyphs => spelled? glyphs
  | _ => none

theorem understands_text : Understands text Document.text? := by
  apply understands_pastGaps
  intro v input rest hv _
  cases hv with
  | string glyphs =>
    exact (settles_stringBody glyphs rest).mapReading (fun _ => rfl) fun _ => rfl
  | @number _ cs c n hc =>
    generalize hinput : c :: cs = input
    split
    · exact absurd (List.cons.inj hinput).1 (ne_of_number_start hc '"' (by decide))
    · exact settles_error _
  | _ => exact settles_error _

/-- The truth value that a document is. -/
def Document.truth? : Document → Option Bool
  | .bool b => some b
  | _ => none

theorem understands_truth : Understands truth Document.truth? := by
  apply understands_pastGaps
  intro v input rest hv _
  cases hv with
  | isTrue => exact (reads_literal 't' ['r', 'u', 'e'] rest).map fun _ => true
  | isFalse => exact (reads_literal 'f' ['a', 'l', 's', 'e'] rest).map fun _ => false
  | @number _ cs c n hc =>
    rw [List.head?_cons]
    split
    · next heq => exact absurd (Option.some.inj heq) (ne_of_number_start hc 't' (by decide))
    · next heq => exact absurd (Option.some.inj heq) (ne_of_number_start hc 'f' (by decide))
    · exact settles_error _
  | _ => exact settles_error _

/-- The number that a document is, if it is not too large. -/
def Document.numeral? : Document → Option Numeral
  | .number n => if n.numeral.overflowsInSteps then none else some n.numeral
  | _ => none

/-- The integer of 64 bits that a document is. -/
def Document.int64? (v : Document) : Option Int64 :=
  v.numeral?.bind fun n => n.toInt?.bind int64OfInt?

theorem understands_int64 : Understands int64 Document.int64? := by
  apply understands_pastGaps
  intro v input rest hv hrest
  cases hv with
  | @number _ cs c n hc h =>
    have hstarts : startsNumber (c :: cs) = true := by
      simpa [startsNumber] using hc
    have hnumber := settles_number n hrest
    rw [h] at hnumber
    rw [if_pos hstarts]
    refine hnumber.bind fun r hr => ?_
    cases hint : r.value.toInt?.bind int64OfInt? with
    | none => exact settles_error _
    | some i => exact ⟨_, rfl, rfl, hr⟩
  | _ => exact settles_error _

/-- What also accepts `null`. -/
def orNull (meaning : Document → Option α) : Document → Option (Option α)
  | .null => some none
  | v => (meaning v).map some

theorem understands_nullable {reader : Reader α} {meaning : Document → Option α}
    (h : Understands reader meaning) : Understands (nullable reader) (orNull meaning) := by
  apply understands_pastGaps
  intro v input rest hv hrest
  have hreader := (h v hv.spans hrest).map some
  cases hv with
  | null => exact (reads_literal 'n' ['u', 'l', 'l'] rest).map fun _ => none
  | @number _ cs c n hc =>
    rw [List.head?_cons, if_neg]
    · exact hreader
    · exact fun heq => ne_of_number_start hc 'n' (by decide) (Option.some.inj heq)
  | _ => exact hreader

theorem understands_textAs (read? : String → Option α) :
    Understands (textAs read?) fun v => v.text?.bind read? := by
  intro v input rest hv hrest
  refine (understands_text v hv hrest).bind fun r hr => ?_
  cases read? r.value with
  | none => exact settles_error _
  | some a => exact ⟨_, rfl, rfl, hr⟩

/-! ### Arrays -/

section Elements

variable {reader : Reader α} {meaning : Document → Option α} {r : List Char} {value? : Option α}

theorem settles_elementsUpTo_close (hv : Settles (reader input) value? r)
    (hturn : Reads (afterPart ']' r) .close rest) :
    Settles (elementsUpTo reader input) (value?.map fun a => [a]) rest := by
  cases value? with
  | none =>
    obtain ⟨fault, hfault⟩ := hv
    rw [elementsUpTo, hfault]
    exact settles_error fault
  | some a => exact reads_elementsUpTo_close hv hturn

theorem settles_elementsUpTo_more {r' : List Char} {values? : Option (List α)}
    (hv : Settles (reader input) value? r) (hturn : Reads (afterPart ']' r) .more r')
    (hopen : closesAtOnce ']' r' = none) (hmore : Settles (elementsUpTo reader r') values? rest) :
    Settles (elementsUpTo reader input) (value?.bind fun a => values?.map (a :: ·)) rest := by
  cases value? with
  | none =>
    obtain ⟨fault, hfault⟩ := hv
    rw [elementsUpTo, hfault]
    exact settles_error fault
  | some a =>
    cases values? with
    | none =>
      obtain ⟨lt, hv⟩ := Reads.eq_ok hv
      obtain ⟨lt', hturn⟩ := hturn.eq_ok
      obtain ⟨fault, hfault⟩ := hmore
      rw [elementsUpTo, hv]
      simp only [hturn, hopen, hfault]
      exact settles_error fault
    | some values => exact reads_elementsUpTo_more hv hturn hopen hmore

theorem mapM_cons_eq_bind (meaning : Document → Option α) (v : Document) (vs : List Document) :
    (v :: vs).mapM meaning = (meaning v).bind fun a => (vs.mapM meaning).map (a :: ·) := by
  rw [List.mapM_cons]
  cases meaning v with
  | none => rfl
  | some a => cases vs.mapM meaning <;> rfl

theorem settles_elementsUpTo (h : Understands reader meaning) (v : Document) (vs : List Document)
    {input rest : List Char} (hspans : Spans (elementLexemes (v :: vs) ++ [[']']]) input rest) :
    Settles (elementsUpTo reader input) ((v :: vs).mapM meaning) rest := by
  induction vs generalizing v input with
  | nil =>
    obtain ⟨mid, hv, hclose⟩ := spans_append_iff.mp hspans
    rw [mapM_cons_eq_bind, List.mapM_nil]
    have hread := settles_elementsUpTo_close (h v hv (hclose.ends (by decide)))
      (hclose.reads_closing rfl (by decide))
    rwa [Option.map_eq_bind] at hread
  | cons next vs ih =>
    rw [elementLexemes_cons_cons, List.append_assoc] at hspans
    obtain ⟨mid, hv, hcomma⟩ := spans_append_iff.mp hspans
    obtain ⟨mid', hturn, hmore⟩ := hcomma.reads_comma ']'
    rw [mapM_cons_eq_bind]
    exact settles_elementsUpTo_more (h v hv (hcomma.ends (by decide))) hturn
      (closesAtOnce_elementLexemes next vs hmore) (ih next hmore)

end Elements

/-- What the elements of an array mean. -/
def arrayOf (meaning : Document → Option α) : Document → Option (List α)
  | .array elements => elements.mapM meaning
  | _ => none

/-- **An array means what its elements mean.** -/
theorem understands_array {reader : Reader α} {meaning : Document → Option α}
    (h : Understands reader meaning) : Understands (array reader) (arrayOf meaning) := by
  apply understands_pastGaps
  intro v input rest hv _
  cases hv with
  | @array cs _ elements hspans =>
    cases elements with
    | nil =>
      obtain ⟨lt, hclose⟩ := hspans.closesAtOnce_eq rfl
      simp only [hclose]
      exact ⟨_, rfl, rfl, rfl⟩
    | cons v vs =>
      have hopen := closesAtOnce_elementLexemes v vs hspans
      have hread := (settles_elementsUpTo h v vs hspans).cons '['
      simp only [hopen]
      exact hread
  | @number _ cs c n hc =>
    generalize hinput : c :: cs = input
    split
    · exact absurd (List.cons.inj hinput).1 (ne_of_number_start hc '[' (by decide))
    · exact settles_error _
  | _ => exact settles_error _

end Agenda.Json

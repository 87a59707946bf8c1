/-
Agenda/Proofs/Json/Settled.lean

Strings, numbers and whole values, read where they are spelled.

    Settles result value? rest

says that a reading comes to what `value?` says: to that value, leaving `rest`, or
to some fault if there is none.
-/
import Agenda.Proofs.Json.Document

namespace Agenda.Json

open Text

variable {α β : Type} {input rest : List Char}

/-- The reading comes to this value and leaves this rest, or else fails. -/
def Settles (result : Except Fault (Reading α input)) (value? : Option α) (rest : List Char) :
    Prop :=
  match value? with
  | some a => Reads result a rest
  | none => ∃ fault, result = .error fault

/-- A reading that succeeds is its value and its rest. -/
theorem Reads.eq_ok {result : Except Fault (Reading α input)} {a : α} (h : Reads result a rest) :
    ∃ lt, result = .ok ⟨a, rest, lt⟩ := by
  obtain ⟨r, rfl, rfl, rfl⟩ := h
  exact ⟨r.rest_lt, rfl⟩

section Settles

variable {result : Except Fault (Reading α input)} {value? : Option α}

theorem settles_error (fault : Fault) :
    Settles (.error fault : Except Fault (Reading α input)) none rest :=
  ⟨fault, rfl⟩

/-- A reading whose value is changed, and to which more may belong in front. -/
theorem Settles.mapReading {input' : List Char} {g : Reading α input → Reading β input'} {f : α → β}
    (h : Settles result value? rest) (hvalue : ∀ r, (g r).value = f r.value)
    (hrest : ∀ r, (g r).rest = r.rest) : Settles (result.map g) (value?.map f) rest := by
  cases value? with
  | none =>
    obtain ⟨fault, rfl⟩ := h
    exact ⟨fault, rfl⟩
  | some a =>
    obtain ⟨r, rfl, rfl, rfl⟩ := h
    exact ⟨g r, rfl, hvalue r, hrest r⟩

theorem Settles.map (h : Settles result value? rest) (f : α → β) :
    Settles (result.map (·.map f)) (value?.map f) rest :=
  h.mapReading (fun _ => rfl) fun _ => rfl

theorem Settles.cons (h : Settles result value? rest) (c : Char) :
    Settles (result.map (·.cons c)) value? rest := by
  have hcons := h.mapReading (g := (Reading.cons c)) (f := id) (fun _ => rfl) fun _ => rfl
  rwa [Option.map_id] at hcons

/-- A reading after which nothing more is read. -/
theorem Settles.bind_ok {input' : List Char} {g : Reading α input → Reading β input'} {f : α → β}
    (h : Settles result value? rest) (hvalue : ∀ r, (g r).value = f r.value)
    (hrest : ∀ r, (g r).rest = r.rest) :
    Settles (result >>= fun r => .ok (g r)) (value?.map f) rest := by
  have hmap := h.mapReading hvalue hrest
  cases result with
  | error fault => exact hmap
  | ok r => exact hmap

/-- A reading that goes on after another one. -/
theorem Settles.bind {input' mid : List Char}
    {next : Reading α input → Except Fault (Reading β input')} {f : α → Option β}
    (h : Settles result value? mid)
    (hnext : ∀ x : Reading α input, x.rest = mid → Settles (next x) (f x.value) rest) :
    Settles (result >>= next) (value?.bind f) rest := by
  cases value? with
  | none =>
    obtain ⟨fault, rfl⟩ := h
    exact ⟨fault, rfl⟩
  | some a =>
    obtain ⟨x, rfl, rfl, hrest⟩ := h
    exact hnext x hrest

end Settles

/-! ### Strings -/

theorem hex4_eq {a b c d : Char} {n : Nat} (h : hexValue4? a b c d = some n) (rest : List Char) :
    ∃ lt, hex4 (a :: b :: c :: d :: rest) = .ok ⟨n, rest, lt⟩ := by
  rw [hex4, h]
  exact ⟨_, rfl⟩

theorem reads_skipStringBody (glyphs : List Glyph) (rest : List Char) :
    Reads (skipStringBody (glyphs.flatMap Glyph.chars ++ '"' :: rest)) () rest := by
  induction glyphs with
  | nil =>
    rw [List.flatMap_nil, List.nil_append, skipStringBody, if_pos rfl]
    · exact reads_ok _
    · nofun
    · nofun
  | cons glyph glyphs ih =>
    rw [List.flatMap_cons, List.append_assoc]
    cases glyph with
    | plain c h =>
      obtain ⟨hquote, hslash, hcontrol⟩ := h
      rw [Glyph.chars, List.singleton_append, skipStringBody, if_neg hquote, if_neg hslash,
        if_neg (by omega)]
      · exact ih.cons c
      · rintro _ _ _ _ _ ⟨⟩
        exact absurd rfl hslash
      · rintro _ _ ⟨⟩
        exact absurd rfl hslash
    | short c d h =>
      -- a letter that stands for a character is not the one before digits
      have hu : c ≠ 'u' := by
        rintro rfl
        cases h
      have hshort : (shortEscape? c).isSome = true := by rw [h]; rfl
      change Reads (skipStringBody
        ('\\' :: c :: (glyphs.flatMap Glyph.chars ++ '"' :: rest))) () rest
      obtain ⟨r, hr, hvalue, hrest⟩ := ih
      rw [skipStringBody, if_neg hu, if_pos hshort, hr]
      · exact ⟨_, rfl, hvalue, hrest⟩
      · exact fun _ _ _ _ _ hc => absurd hc hu
    | unit a b c d n h =>
      change Reads (skipStringBody
        ('\\' :: 'u' :: a :: b :: c :: d :: (glyphs.flatMap Glyph.chars ++ '"' :: rest))) () rest
      obtain ⟨r, hr, hvalue, hrest⟩ := ih
      rw [skipStringBody, h, hr]
      exact ⟨_, rfl, hvalue, hrest⟩

section StringBody

variable {c d : Char} {cs more : List Char} {spelled : Option (List Char)}

theorem settles_stringBody_plain (h : c ≠ '"' ∧ c ≠ '\\' ∧ 32 ≤ c.toNat)
    (hmore : Settles (stringBody cs) spelled rest) :
    Settles (stringBody (c :: cs)) (spelled.map (c :: ·)) rest := by
  obtain ⟨hquote, hslash, hcontrol⟩ := h
  rw [stringBody, if_neg hquote, if_neg hslash, if_neg (by omega)]
  exact hmore.mapReading (fun _ => rfl) fun _ => rfl

theorem settles_stringBody_escape (hescape : Reads (escape cs) d more)
    (hmore : Settles (stringBody more) spelled rest) :
    Settles (stringBody ('\\' :: cs)) (spelled.map (d :: ·)) rest := by
  obtain ⟨r, hr, rfl, rfl⟩ := hescape
  rw [stringBody, if_neg (by decide), if_pos rfl, hr]
  exact hmore.mapReading (fun _ => rfl) fun _ => rfl

theorem settles_stringBody_fault {fault : Fault} (hescape : escape cs = .error fault) :
    Settles (stringBody ('\\' :: cs)) none rest := by
  rw [stringBody, if_neg (by decide), if_pos rfl, hescape]
  exact settles_error fault

end StringBody

theorem escape_u (cs : List Char) : escape ('u' :: cs) = (unicodeEscape cs).map (·.cons 'u') :=
  rfl

theorem escape_unit_low {a b c d : Char} {n : Nat} (h : hexValue4? a b c d = some n)
    (hlow : isLowSurrogate n = true) (rest : List Char) :
    escape ('u' :: a :: b :: c :: d :: rest) = .error .malformed := by
  obtain ⟨lt, hhex⟩ := hex4_eq h rest
  rw [escape_u, unicodeEscape, hhex]
  change Except.map _ (if isLowSurrogate n = true then _ else _) = _
  rw [if_pos hlow]
  rfl

theorem reads_escape_unit {a b c d : Char} {n : Nat} (h : hexValue4? a b c d = some n)
    (hlow : isLowSurrogate n = false) (hhigh : isHighSurrogate n = false) (rest : List Char) :
    Reads (escape ('u' :: a :: b :: c :: d :: rest)) (Char.ofNat n) rest := by
  obtain ⟨lt, hhex⟩ := hex4_eq h rest
  rw [escape_u, unicodeEscape, hhex]
  change Reads (Except.map _ (if isLowSurrogate n = true then _ else _)) _ _
  rw [hlow, hhigh]
  exact ⟨_, rfl, rfl, rfl⟩

/-- After the first half of a pair the reading depends on what the second half comes to. -/
theorem settles_escape_high {a b c d : Char} {n : Nat} (h : hexValue4? a b c d = some n)
    (hlow : isLowSurrogate n = false) (hhigh : isHighSurrogate n = true) {more rest : List Char}
    {joined : Option Char} (hmore : Settles (lowSurrogate n more) joined rest) :
    Settles (escape ('u' :: a :: b :: c :: d :: more)) joined rest := by
  obtain ⟨lt, hhex⟩ := hex4_eq h more
  rw [escape_u, unicodeEscape, hhex]
  change Settles (Except.map _ (if isLowSurrogate n = true then _ else _)) _ _
  rw [hlow, hhigh]
  change Settles (Except.map _ (lowSurrogate n more >>= _)) _ _
  cases joined with
  | none =>
    obtain ⟨fault, hfault⟩ := hmore
    rw [hfault]
    exact settles_error fault
  | some e =>
    obtain ⟨s, hs, rfl, hrest⟩ := hmore
    rw [hs]
    exact ⟨_, rfl, rfl, hrest⟩

/-- The second half of a pair. -/
theorem settles_lowSurrogate_unit {a b c d : Char} {m : Nat} (h : hexValue4? a b c d = some m)
    (n : Nat) (rest : List Char) :
    Settles (lowSurrogate n ('\\' :: 'u' :: a :: b :: c :: d :: rest))
      (if isLowSurrogate m then some (joinSurrogates n m) else none) rest := by
  obtain ⟨lt, hhex⟩ := hex4_eq h rest
  simp only [lowSurrogate, hhex]
  change Settles (if isLowSurrogate m = true then _ else _) _ _
  generalize joinSurrogates n = join
  split
  · exact ⟨_, rfl, rfl, rfl⟩
  · exact settles_error _

/-- Nothing but another unit can be the second half of a pair. -/
theorem settles_lowSurrogate_other {glyphs : List Glyph}
    (h : ∀ a b c d m hm more, glyphs ≠ .unit a b c d m hm :: more) (n : Nat) (rest : List Char) :
    Settles (lowSurrogate n (glyphs.flatMap Glyph.chars ++ '"' :: rest)) none rest := by
  cases glyphs with
  | nil => exact settles_error _
  | cons glyph glyphs =>
    cases glyph with
    | plain c hc =>
      refine ⟨.malformed, ?_⟩
      change lowSurrogate n (c :: (glyphs.flatMap Glyph.chars ++ '"' :: rest)) = _
      have hslash := hc.2.1
      rw [lowSurrogate]
      · rfl
      · exact fun h _ => hslash h
      · exact fun _ h _ => hslash h
    | short c d hc =>
      refine ⟨.malformed, ?_⟩
      have hu : c ≠ 'u' := by
        rintro rfl
        cases hc
      change lowSurrogate n ('\\' :: c :: (glyphs.flatMap Glyph.chars ++ '"' :: rest)) = _
      rw [lowSurrogate]
      · rfl
      · exact fun _ htail => nomatch htail
      · exact fun _ _ htail => hu (List.cons.inj htail).1
    | unit a b c d m hm => exact absurd rfl (h a b c d m hm glyphs)

/-- **A string comes to the text that it spells.** -/
theorem settles_stringBody (glyphs : List Glyph) (rest : List Char) :
    Settles (stringBody (glyphs.flatMap Glyph.chars ++ '"' :: rest)) (spelledChars? glyphs)
      rest := by
  fun_induction spelledChars? glyphs with
  | case1 =>
    rw [List.flatMap_nil, List.nil_append, stringBody, if_pos rfl]
    exact reads_ok _
  | case2 c h glyphs ih => exact settles_stringBody_plain h ih
  | case3 c d h glyphs ih => exact settles_stringBody_escape (reads_escape_of_short h _) ih
  | case4 a b c d n h glyphs hlow => exact settles_stringBody_fault (escape_unit_low h hlow _)
  | case5 a b c d n h hlow hhigh a' b' c' d' m h' glyphs hlow' ih =>
    -- a pair: the two units are read as one character
    have hpair := settles_lowSurrogate_unit h' n (glyphs.flatMap Glyph.chars ++ '"' :: rest)
    rw [if_pos hlow'] at hpair
    exact settles_stringBody_escape
      (settles_escape_high h (Bool.eq_false_iff.mpr hlow) hhigh hpair) ih
  | case6 a b c d n h hlow hhigh a' b' c' d' m h' glyphs hlow' =>
    have hpair := settles_lowSurrogate_unit h' n (glyphs.flatMap Glyph.chars ++ '"' :: rest)
    rw [if_neg hlow'] at hpair
    obtain ⟨fault, hfault⟩ := settles_escape_high h (Bool.eq_false_iff.mpr hlow) hhigh hpair
    exact settles_stringBody_fault hfault
  | case7 a b c d n h glyphs hlow hhigh hother =>
    obtain ⟨fault, hfault⟩ := settles_escape_high h (Bool.eq_false_iff.mpr hlow) hhigh
      (settles_lowSurrogate_other hother n rest)
    exact settles_stringBody_fault hfault
  | case8 a b c d n h glyphs hlow hhigh ih =>
    exact settles_stringBody_escape
      (reads_escape_unit h (Bool.eq_false_iff.mpr hlow) (Bool.eq_false_iff.mpr hhigh) _) ih

/-! ### Numbers -/

theorem Ends.of_head? {c : Char} (h : Ends rest) (hc : c ∈ rest.head?) :
    c = ' ' ∨ c = '\t' ∨ c = '\n' ∨ c = '\r' ∨ c = ',' ∨ c = ']' ∨ c = closeObject := by
  simpa only [isGap, Bool.or_eq_true, decide_eq_true_eq, or_assoc] using h c hc

theorem Ends.endsDigits (h : Ends rest) : EndsDigits rest := by
  intro c hc
  rcases h.of_head? hc with rfl | rfl | rfl | rfl | rfl | rfl | rfl <;> rfl

theorem fractionPart_of_head? (h : rest.head? ≠ some '.') : fractionPart rest = .ok none := by
  unfold fractionPart
  split
  · exact absurd rfl h
  · rfl

theorem Ends.fractionPart_eq (h : Ends rest) : fractionPart rest = .ok none := by
  refine fractionPart_of_head? fun hc => ?_
  have hpoint := h.of_head? hc
  revert hpoint
  decide

theorem Ends.exponentPart_eq (h : Ends rest) : exponentPart rest = .ok none := by
  unfold exponentPart
  split
  · rw [if_neg]
    rintro (rfl | rfl)
    · exact absurd (h.of_head? rfl) (by decide)
    · exact absurd (h.of_head? rfl) (by decide)
  · rfl

theorem digits1_eq {digits : List Char} (h : DigitRun digits) (hrest : EndsDigits rest) :
    ∃ lt, digits1 (digits ++ rest) = .ok ⟨digits, rest, lt⟩ := by
  have htake := takeWhile_isDigit_append h.2 hrest
  have hreads : Reads (digits1 (digits ++ rest)) digits rest := by
    rw [digits1, dif_pos (by rw [htake]; exact List.length_pos_iff.mpr h.1)]
    exact ⟨_, rfl, htake, by simp only [htake, List.drop_left]⟩
  exact hreads.eq_ok

theorem fractionPart_eq {digits : List Char} (h : DigitRun digits) (hrest : EndsDigits rest) :
    ∃ lt, fractionPart ('.' :: (digits ++ rest)) = .ok (some ⟨digits, rest, lt⟩) := by
  obtain ⟨lt, hdigits⟩ := digits1_eq h hrest
  rw [fractionPart, hdigits]
  exact ⟨_, rfl⟩

theorem exponentPart_eq (e : ExponentText) (hrest : EndsDigits rest) :
    ∃ lt, exponentPart (e.chars ++ rest) =
      .ok (some ⟨(decide (e.sign = some '-'), e.digits), rest, lt⟩) := by
  have hlt : rest.length < (e.chars ++ rest).length := by
    simp only [ExponentText.chars, List.length_append, List.length_cons]
    omega
  refine ⟨hlt, ?_⟩
  obtain ⟨letter, sign, digits, hletter, hsign, hrun⟩ := e
  obtain ⟨lt, hdigits⟩ := digits1_eq hrun hrest
  cases sign with
  | none =>
    obtain ⟨d, ds, rfl⟩ := List.exists_cons_of_ne_nil hrun.1
    -- a digit in front is no sign
    have hd := hrun.2 d List.mem_cons_self
    change exponentPart (letter :: (d :: ds ++ rest)) = _
    rw [exponentPart, if_pos hletter]
    · rw [hdigits]
      rfl
    · intro _ heq
      rw [(List.cons.inj heq).1] at hd
      cases hd
    · intro _ heq
      rw [(List.cons.inj heq).1] at hd
      cases hd
  | some c =>
    rcases hsign c rfl with rfl | rfl
    · change exponentPart (letter :: '-' :: (digits ++ rest)) = _
      rw [exponentPart, if_pos hletter]
      simp only [hdigits]
      rfl
    · change exponentPart (letter :: '+' :: (digits ++ rest)) = _
      rw [exponentPart, if_pos hletter]
      simp only [hdigits]
      rfl

theorem wholeDigits_eq {digits : List Char} (h : DigitRun digits)
    (hzero : ¬ (digits.head? = some '0' ∧ digits.length ≠ 1)) (hrest : EndsDigits rest) :
    ∃ lt, wholeDigits (digits ++ rest) = .ok ⟨digits, rest, lt⟩ := by
  obtain ⟨lt, hdigits⟩ := digits1_eq h hrest
  refine ⟨lt, ?_⟩
  rw [wholeDigits, hdigits]
  change (if digits.head? = some '0' ∧ digits.length ≠ 1 then _ else _) = _
  rw [if_neg hzero]
  rfl

theorem endsDigits_of_exponent (e : ExponentText) (rest : List Char) :
    EndsDigits (e.chars ++ rest) ∧ (e.chars ++ rest).head? ≠ some '.' := by
  have hhead : (e.chars ++ rest).head? = some e.letter := rfl
  rw [EndsDigits, hhead]
  rcases e.letter_eq with h | h
  · rw [h]
    exact ⟨by rintro _ ⟨⟩; rfl, by decide⟩
  · rw [h]
    exact ⟨by rintro _ ⟨⟩; rfl, by decide⟩

/-- A number after its sign is read part by part. -/
theorem reads_unsigned_text (n : NumberText) (hrest : Ends rest) :
    Reads (unsigned n.negative (n.unsignedChars ++ rest)) n.numeral rest := by
  obtain ⟨negative, whole, fraction, exponent, hwhole, hzero, hfraction⟩ := n
  have chars_eq : ∀ {chars : List Char} (more more' : List Char), chars = whole ++ (more ++ more') →
      chars ++ rest = whole ++ (more ++ (more' ++ rest)) := by
    rintro _ more more' rfl
    simp
  -- what each part is followed by does not start with a digit or a point
  cases fraction with
  | none =>
    cases exponent with
    | none =>
      obtain ⟨lt, hdigits⟩ := wholeDigits_eq hwhole hzero hrest.endsDigits
      rw [chars_eq [] [] (by simp [NumberText.unsignedChars]), List.nil_append, List.nil_append,
        unsigned, hdigits]
      change Reads (fractionPart rest >>= _) _ _
      rw [hrest.fractionPart_eq]
      change Reads (exponentPart rest >>= _) _ _
      rw [hrest.exponentPart_eq]
      exact ⟨_, rfl, rfl, rfl⟩
    | some e =>
      obtain ⟨hends, hpoint⟩ := endsDigits_of_exponent e rest
      obtain ⟨lt, hdigits⟩ := wholeDigits_eq hwhole hzero hends
      obtain ⟨lt', hexponent⟩ := exponentPart_eq e hrest.endsDigits
      rw [chars_eq [] e.chars (by simp [NumberText.unsignedChars]), List.nil_append, unsigned,
        hdigits]
      change Reads (fractionPart (e.chars ++ rest) >>= _) _ _
      rw [fractionPart_of_head? hpoint]
      change Reads (exponentPart (e.chars ++ rest) >>= _) _ _
      rw [hexponent]
      exact ⟨_, rfl, rfl, rfl⟩
  | some digits =>
    have hrun := hfraction digits rfl
    have hends : ∀ more, EndsDigits ('.' :: more) := by
      rintro more _ ⟨⟩
      rfl
    cases exponent with
    | none =>
      obtain ⟨lt, hdigits⟩ := wholeDigits_eq hwhole hzero (hends (digits ++ rest))
      obtain ⟨lt', hfraction⟩ := fractionPart_eq hrun hrest.endsDigits
      rw [chars_eq ('.' :: digits) [] (by simp [NumberText.unsignedChars]), List.nil_append,
        List.cons_append, unsigned, hdigits]
      change Reads (fractionPart ('.' :: (digits ++ rest)) >>= _) _ _
      rw [hfraction]
      change Reads (exponentPart rest >>= _) _ _
      rw [hrest.exponentPart_eq]
      exact ⟨_, rfl, rfl, rfl⟩
    | some e =>
      obtain ⟨hends', -⟩ := endsDigits_of_exponent e rest
      obtain ⟨lt, hdigits⟩ := wholeDigits_eq hwhole hzero (hends (digits ++ (e.chars ++ rest)))
      obtain ⟨lt', hfraction⟩ := fractionPart_eq hrun hends'
      obtain ⟨lt'', hexponent⟩ := exponentPart_eq e hrest.endsDigits
      rw [chars_eq ('.' :: digits) e.chars (by simp [NumberText.unsignedChars]),
        List.cons_append, unsigned, hdigits]
      change Reads (fractionPart ('.' :: (digits ++ (e.chars ++ rest))) >>= _) _ _
      rw [hfraction]
      change Reads (exponentPart (e.chars ++ rest) >>= _) _ _
      rw [hexponent]
      exact ⟨_, rfl, rfl, rfl⟩

/-- **A number is read as it is spelled.** -/
theorem reads_numeral (n : NumberText) (hrest : Ends rest) :
    Reads (numeral (n.chars ++ rest)) n.numeral rest := by
  have hunsigned := reads_unsigned_text n hrest
  rw [NumberText.chars]
  cases hnegative : n.negative with
  | true =>
    rw [hnegative] at hunsigned
    exact hunsigned.cons '-'
  | false =>
    rw [hnegative] at hunsigned
    rw [if_neg (by decide), numeral_of_head?]
    · exact hunsigned
    · obtain ⟨c, cs, hcons, hc⟩ := n.exists_whole_eq_cons
      rw [NumberText.unsignedChars, hcons]
      rintro ⟨⟩
      cases hc

/-- A wanted number stays in the range of doubles. -/
theorem settles_number (n : NumberText) (hrest : Ends rest) :
    Settles (number (n.chars ++ rest))
      (if n.numeral.overflowsInSteps then none else some n.numeral) rest := by
  obtain ⟨lt, hnumeral⟩ := (reads_numeral n hrest).eq_ok
  rw [number, hnumeral]
  change Settles (if n.numeral.overflowsInSteps = true then _ else _) _ _
  split
  · exact settles_error _
  · exact ⟨_, rfl, rfl, rfl⟩

theorem reads_skipNumber (n : NumberText) (hrest : Ends rest) :
    Reads (skipNumber (n.chars ++ rest)) () rest := by
  obtain ⟨lt, hnumeral⟩ := (reads_numeral n hrest).eq_ok
  rw [skipNumber, hnumeral]
  exact ⟨_, rfl, rfl, rfl⟩

end Agenda.Json

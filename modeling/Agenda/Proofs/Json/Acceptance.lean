/-
Agenda/Proofs/Json/Acceptance.lean

Whatever is accepted is JSON.  A reader that succeeds, whether it asks for the value or
skips it, has read the text of a document (`Accepts`), and so a text that is accepted as
a whole is written from one (`written_of_readWhole`).
-/
import Agenda.Proofs.Json.Lexeme
import Agenda.Proofs.Json.Record

namespace Agenda.Json

open Text

variable {α δ : Type} {input rest : List Char}

/-! ### Skipped values -/

theorem spans_elementLexemes_cons {v : Document} {vs : List Document} {mid mid' : List Char}
    (hv : Spans v.lexemes input mid) (hcomma : Spans [[',']] mid mid')
    (hvs : Spans (elementLexemes vs ++ [[']']]) mid' rest) (hne : vs ≠ []) :
    Spans (elementLexemes (v :: vs) ++ [[']']]) input rest := by
  obtain ⟨next, vs, rfl⟩ := List.exists_cons_of_ne_nil hne
  rw [elementLexemes_cons_cons, List.append_assoc]
  exact hv.append (hcomma.append hvs)

theorem spans_memberLexemes_cons {name : List Glyph} {v : Document}
    {members : List Member} {mid mid' mid'' : List Char}
    (hname : Spans [quoted name] input mid) (hv : Spans ([':'] :: v.lexemes) mid mid')
    (hcomma : Spans [[',']] mid' mid'')
    (hmembers : Spans (memberLexemes members ++ [[closeObject]]) mid'' rest) (hne : members ≠ []) :
    Spans (memberLexemes ((name, v) :: members) ++ [[closeObject]]) input rest := by
  obtain ⟨next, members, rfl⟩ := List.exists_cons_of_ne_nil hne
  rw [memberLexemes_cons_cons, List.cons_append, List.cons_append, List.append_assoc]
  exact hname.append (hv.append (hcomma.append hmembers))

theorem spans_of_literal {c : Char} {cs word : List Char} {r : Reading Unit (c :: cs)}
    (h : literal word (c :: cs) = .ok r) : Spans [c :: word] (c :: cs) r.rest :=
  ⟨[], r.rest, gaps_nil, congrArg (c :: ·) (eq_append_of_literal h), rfl⟩

/-- Gaps may stand before a document. -/
theorem spans_lexemes_of_skipGaps {v : Document} {cs : List Char} (hskip : skipGaps input = cs)
    (h : Spans v.lexemes cs rest) : Spans v.lexemes input rest := by
  obtain ⟨c, word, lexemes, hcons, -⟩ := v.exists_lexemes_eq_cons
  subst hskip
  rw [hcons] at h ⊢
  exact h.of_skipGaps

theorem spans_of_skippedScalar {c : Char} {cs : List Char} {r : Reading Unit (c :: cs)}
    (h : (if c = 'n' then literal ['u', 'l', 'l'] (c :: cs)
      else if c = 't' then literal ['r', 'u', 'e'] (c :: cs)
      else if c = 'f' then literal ['a', 'l', 's', 'e'] (c :: cs)
      else if c = '-' ∨ c.isDigit then skipNumber (c :: cs)
      else .error .malformed) = .ok r) : ∃ v : Document, Spans v.lexemes (c :: cs) r.rest := by
  split at h
  · next hc =>
    subst hc
    exact ⟨.null, spans_of_literal h⟩
  · split at h
    · next hc =>
      subst hc
      exact ⟨.bool true, spans_of_literal h⟩
    · split at h
      · next hc =>
        subst hc
        exact ⟨.bool false, spans_of_literal h⟩
      · split at h
        · unfold skipNumber at h
          split at h
          · next n hn =>
            cases h
            obtain ⟨n, heq⟩ := eq_of_numeral hn
            exact ⟨.number n, [], _, gaps_nil, heq, rfl⟩
          · cases h
        · cases h

-- These theorems recur as the readers do: what is left to read gets shorter.
mutual

/-- **What is skipped is a document.** -/
theorem spans_of_skipValue (input : List Char) (r : Reading Unit input)
    (h : skipValue input = .ok r) : ∃ v : Document, Spans v.lexemes input r.rest := by
  rw [skipValue] at h
  split at h
  · cases h
  · next c cs hskip =>
    have hlt := length_lt_of_skipGaps hskip
    split at h
    · next hc =>
      subst hc
      obtain ⟨s, hs, rfl⟩ := exists_of_map_eq_ok h
      obtain ⟨glyphs, heq⟩ := eq_of_skipStringBody hs
      exact ⟨.string glyphs, spans_quoted (spans_of_skipGaps ['"'] hskip) heq⟩
    · split at h
      · next hc =>
        subst hc
        split at h
        · next s hclose =>
          cases h
          exact ⟨.array [], (spans_of_skipGaps ['['] hskip).append (spans_of_closesAtOnce hclose)⟩
        · obtain ⟨s, hs, rfl⟩ := exists_of_map_eq_ok h
          obtain ⟨vs, -, hvs⟩ := spans_of_skipElements cs s hs
          exact ⟨.array vs, (spans_of_skipGaps ['['] hskip).append hvs⟩
      · split at h
        · next hc =>
          subst hc
          split at h
          · next s hclose =>
            cases h
            exact ⟨.object [],
              (spans_of_skipGaps [openObject] hskip).append (spans_of_closesAtOnce hclose)⟩
          · obtain ⟨s, hs, rfl⟩ := exists_of_map_eq_ok h
            obtain ⟨members, -, hmembers⟩ := spans_of_skipMembers cs s hs
            exact ⟨.object members, (spans_of_skipGaps [openObject] hskip).append hmembers⟩
        · obtain ⟨s, hs, rfl⟩ := exists_of_map_eq_ok h
          obtain ⟨v, hv⟩ := spans_of_skippedScalar hs
          exact ⟨v, spans_lexemes_of_skipGaps hskip hv⟩
termination_by (input.length, 0)

theorem spans_of_skipElements (input : List Char) (r : Reading Unit input)
    (h : skipElements input = .ok r) :
    ∃ vs, vs ≠ [] ∧ Spans (elementLexemes vs ++ [[']']]) input r.rest := by
  rw [skipElements] at h
  split at h
  · cases h
  · next x hx =>
    obtain ⟨v, hv⟩ := spans_of_skipValue input x hx
    split at h
    · cases h
    · next turn hturn =>
      have hturn := spans_of_afterPart hturn
      split at h
      · next hclose =>
        cases h
        rw [hclose] at hturn
        exact ⟨[v], by simp, hv.append hturn⟩
      · next hmore =>
        rw [hmore] at hturn
        have hlt := x.rest_lt
        have hlt' := turn.rest_lt
        obtain ⟨s, hs, rfl⟩ := exists_of_map_eq_ok h
        obtain ⟨vs, hne, hvs⟩ := spans_of_skipElements turn.rest s hs
        exact ⟨v :: vs, by simp, spans_elementLexemes_cons hv hturn hvs hne⟩
termination_by (input.length, 1)

theorem spans_of_skipMembers (input : List Char) (r : Reading Unit input)
    (h : skipMembers input = .ok r) :
    ∃ members, members ≠ [] ∧ Spans (memberLexemes members ++ [[closeObject]]) input r.rest := by
  rw [skipMembers] at h
  split at h
  · cases h
  · next name hname =>
    have hlt := name.rest_lt
    obtain ⟨glyphs, mid, hname, hcolon⟩ := spans_of_skipName hname
    split at h
    · cases h
    · next x hx =>
      obtain ⟨v, hv⟩ := spans_of_skipValue name.rest x hx
      have hv := hcolon.append hv
      split at h
      · cases h
      · next turn hturn =>
        have hturn := spans_of_afterPart hturn
        split at h
        · next hclose =>
          cases h
          rw [hclose] at hturn
          exact ⟨[(glyphs, v)], by simp, hname.append (hv.append hturn)⟩
        · next hmore =>
          rw [hmore] at hturn
          have hlt' := x.rest_lt
          have hlt'' := turn.rest_lt
          obtain ⟨s, hs, rfl⟩ := exists_of_map_eq_ok h
          obtain ⟨members, hne, hmembers⟩ := spans_of_skipMembers turn.rest s hs
          exact ⟨(glyphs, v) :: members, by simp,
            spans_memberLexemes_cons hname hv hturn hmembers hne⟩
termination_by (input.length, 1)

end

/-! ### Scalars -/

/-- The reader reads nothing but documents. -/
def Accepts (reader : Reader α) : Prop :=
  ∀ ⦃input : List Char⦄ ⦃r : Reading α input⦄, reader input = .ok r →
    ∃ v : Document, Spans v.lexemes input r.rest

theorem accepts_pastGaps {reader : Reader α} (h : Accepts reader) : Accepts (pastGaps reader) := by
  intro input r hr
  obtain ⟨s, hs, rfl⟩ := exists_of_map_eq_ok hr
  obtain ⟨v, hv⟩ := h hs
  exact ⟨v, spans_lexemes_of_skipGaps rfl hv⟩

theorem accepts_text : Accepts text := by
  apply accepts_pastGaps
  intro input r h
  beta_reduce at h
  split at h
  · obtain ⟨s, hs, rfl⟩ := exists_of_map_eq_ok h
    obtain ⟨glyphs, heq⟩ := eq_of_stringBody hs
    exact ⟨.string glyphs, spans_quoted (spans_singleton ['"'] _) heq⟩
  · cases h

theorem accepts_truth : Accepts truth := by
  apply accepts_pastGaps
  intro input r h
  beta_reduce at h
  cases input with
  | nil => cases h
  | cons c cs =>
    rw [List.head?_cons] at h
    split at h
    · next hc =>
      cases hc
      obtain ⟨s, hs, rfl⟩ := exists_of_map_eq_ok h
      exact ⟨.bool true, spans_of_literal hs⟩
    · next hc =>
      cases hc
      obtain ⟨s, hs, rfl⟩ := exists_of_map_eq_ok h
      exact ⟨.bool false, spans_of_literal hs⟩
    · cases h

theorem accepts_int64 : Accepts int64 := by
  apply accepts_pastGaps
  intro input r h
  beta_reduce at h
  split at h
  · obtain ⟨n, hn, h⟩ := exists_of_bind_eq_ok h
    obtain ⟨n', hn', h'⟩ := exists_of_bind_eq_ok hn
    split at h'
    · cases h'
    · cases h'
      obtain ⟨written, heq⟩ := eq_of_numeral hn'
      split at h
      · cases h
        exact ⟨.number written, [], n.rest, gaps_nil, heq, rfl⟩
      · cases h
  · cases h

theorem accepts_nullable {reader : Reader α} (h : Accepts reader) : Accepts (nullable reader) := by
  apply accepts_pastGaps
  intro input r hr
  beta_reduce at hr
  split at hr
  · next hhead =>
    obtain ⟨s, hs, rfl⟩ := exists_of_map_eq_ok hr
    obtain ⟨cs, rfl⟩ := List.head?_eq_some_iff.mp hhead
    exact ⟨.null, spans_of_literal hs⟩
  · obtain ⟨s, hs, rfl⟩ := exists_of_map_eq_ok hr
    exact h hs

theorem accepts_textAs (read? : String → Option α) : Accepts (textAs read?) := by
  intro input r h
  obtain ⟨s, hs, h⟩ := exists_of_bind_eq_ok h
  split at h
  · cases h
    exact accepts_text hs
  · cases h

/-! ### Arrays -/

theorem spans_of_elementsUpTo {reader : Reader α} (h : Accepts reader) (input : List Char)
    (r : Reading (List α) input) (hr : elementsUpTo reader input = .ok r) :
    ∃ vs, vs ≠ [] ∧ Spans (elementLexemes vs ++ [[']']]) input r.rest := by
  rw [elementsUpTo] at hr
  split at hr
  · cases hr
  · next x hx =>
    obtain ⟨v, hv⟩ := h hx
    split at hr
    · cases hr
    · next turn hturn =>
      have hturn := spans_of_afterPart hturn
      split at hr
      · next hclose =>
        cases hr
        rw [hclose] at hturn
        exact ⟨[v], by simp, hv.append hturn⟩
      · next hmore =>
        rw [hmore] at hturn
        have hlt := x.rest_lt
        have hlt' := turn.rest_lt
        split at hr
        · cases hr
        · obtain ⟨s, hs, rfl⟩ := exists_of_map_eq_ok hr
          obtain ⟨vs, hne, hvs⟩ := spans_of_elementsUpTo h turn.rest s hs
          exact ⟨v :: vs, by simp, spans_elementLexemes_cons hv hturn hvs hne⟩
termination_by input.length

theorem accepts_array {reader : Reader α} (h : Accepts reader) : Accepts (array reader) := by
  apply accepts_pastGaps
  intro input r hr
  beta_reduce at hr
  split at hr
  · next cs =>
    split at hr
    · next s hclose =>
      cases hr
      exact ⟨.array [], (spans_singleton ['['] cs).append (spans_of_closesAtOnce hclose)⟩
    · obtain ⟨s, hs, rfl⟩ := exists_of_map_eq_ok hr
      obtain ⟨vs, -, hvs⟩ := spans_of_elementsUpTo h cs s hs
      exact ⟨.array vs, (spans_singleton ['['] cs).append hvs⟩
  · cases hr

/-! ### Records -/

section Record

variable {fields : Fields δ α} {draft : δ}

/-- The fields of a record are read from documents. -/
def Fields.Accepted (fields : Fields δ α) : Prop :=
  ∀ name ∈ fields.names, ∀ draft, Accepts (fields.read name draft)

theorem spans_of_member (h : fields.Accepted) {name : String} {r : Reading δ input}
    (hr : fields.member name draft input = .ok r) :
    ∃ v : Document, Spans ([':'] :: v.lexemes) input r.rest := by
  unfold Fields.member at hr
  split at hr
  · next hname =>
    split at hr
    · cases hr
    · obtain ⟨colon, hcolon, hr⟩ := exists_of_bind_eq_ok hr
      obtain ⟨x, hx, hr⟩ := exists_of_bind_eq_ok hr
      cases hr
      obtain ⟨v, hv⟩ := h name hname draft hx
      exact ⟨v, (spans_of_separator hcolon).append hv⟩
  · obtain ⟨colon, hcolon, hr⟩ := exists_of_bind_eq_ok hr
    obtain ⟨x, hx, hr⟩ := exists_of_bind_eq_ok hr
    cases hr
    obtain ⟨v, hv⟩ := spans_of_skipValue _ x hx
    exact ⟨v, (spans_of_separator hcolon).append hv⟩

theorem spans_of_membersUpTo (h : fields.Accepted) (draft : δ) (input : List Char)
    (r : Reading δ input) (hr : fields.membersUpTo draft input = .ok r) :
    ∃ members, members ≠ [] ∧ Spans (memberLexemes members ++ [[closeObject]]) input r.rest := by
  rw [Fields.membersUpTo] at hr
  split at hr
  · cases hr
  · next name hname =>
    have hlt := name.rest_lt
    obtain ⟨glyphs, hname⟩ := spans_of_memberName hname
    split at hr
    · cases hr
    · next x hx =>
      obtain ⟨v, hv⟩ := spans_of_member h hx
      split at hr
      · cases hr
      · next turn hturn =>
        have hturn := spans_of_afterPart hturn
        split at hr
        · next hclose =>
          cases hr
          rw [hclose] at hturn
          exact ⟨[(glyphs, v)], by simp, hname.append (hv.append hturn)⟩
        · next hmore =>
          rw [hmore] at hturn
          have hlt' := x.rest_lt
          have hlt'' := turn.rest_lt
          obtain ⟨s, hs, rfl⟩ := exists_of_map_eq_ok hr
          obtain ⟨members, hne, hmembers⟩ := spans_of_membersUpTo h x.value turn.rest s hs
          exact ⟨(glyphs, v) :: members, by simp,
            spans_memberLexemes_cons hname hv hturn hmembers hne⟩
termination_by input.length

/-- The elements of an array, the first one behind a comma unless it is the first of all. -/
theorem spans_of_rowUpTo (h : fields.Accepted) {names : List String}
    (hnames : ∀ name ∈ names, name ∈ fields.names) {first : Bool} {r : Reading δ input}
    (hr : fields.rowUpTo draft first names input = .ok r) :
    ∃ vs, Spans ((if first then elementLexemes vs else vs.flatMap fun v => [','] :: v.lexemes) ++
      [[']']]) input r.rest := by
  induction names generalizing draft first input with
  | nil =>
    rw [Fields.rowUpTo] at hr
    split at hr
    · next s hclose =>
      cases hr
      exact ⟨[], by simpa [elementLexemes, Reading.map] using spans_of_closesAtOnce hclose⟩
    · cases hr
  | cons name names ih =>
    rw [Fields.rowUpTo] at hr
    split at hr
    · next s hclose =>
      cases hr
      exact ⟨[], by simpa [elementLexemes, Reading.map] using spans_of_closesAtOnce hclose⟩
    · split at hr
      · next hfirst =>
        subst hfirst
        split at hr
        · cases hr
        · obtain ⟨x, hx, hr⟩ := exists_of_bind_eq_ok hr
          obtain ⟨s, hs, hr⟩ := exists_of_bind_eq_ok hr
          cases hr
          obtain ⟨v, hv⟩ := h name (hnames name List.mem_cons_self) draft hx
          obtain ⟨vs, hvs⟩ := ih (fun name hname => hnames name (List.mem_cons_of_mem _ hname)) hs
          refine ⟨v :: vs, ?_⟩
          rw [if_pos rfl, elementLexemes_cons, List.append_assoc]
          exact hv.append hvs
      · next hfirst =>
        obtain ⟨comma, hcomma, hr⟩ := exists_of_bind_eq_ok hr
        split at hr
        · cases hr
        · obtain ⟨x, hx, hr⟩ := exists_of_bind_eq_ok hr
          obtain ⟨s, hs, hr⟩ := exists_of_bind_eq_ok hr
          cases hr
          obtain ⟨v, hv⟩ := h name (hnames name List.mem_cons_self) draft hx
          obtain ⟨vs, hvs⟩ := ih (fun name hname => hnames name (List.mem_cons_of_mem _ hname)) hs
          refine ⟨v :: vs, ?_⟩
          rw [if_neg hfirst, List.flatMap_cons, List.append_assoc]
          exact ((spans_of_separator hcomma).append hv).append hvs

/-- **A record is read from a document**, an object or an array. -/
theorem accepts_record (h : fields.Accepted) : Accepts (record fields) := by
  apply accepts_pastGaps
  intro input r hr
  beta_reduce at hr
  split at hr
  · next cs =>
    obtain ⟨s, hs, hr⟩ := exists_of_bind_eq_ok hr
    obtain ⟨a, -, hr⟩ := exists_of_bind_eq_ok hr
    cases hr
    obtain ⟨vs, hvs⟩ := spans_of_rowUpTo h (fun _ => id) hs
    exact ⟨.array vs, (spans_singleton ['['] cs).append hvs⟩
  · next c cs _ =>
    split at hr
    · next hc =>
      subst hc
      split at hr
      · next s hclose =>
        obtain ⟨x, hx, hr⟩ := exists_of_bind_eq_ok hr
        cases hx
        obtain ⟨a, -, hr⟩ := exists_of_bind_eq_ok hr
        cases hr
        exact ⟨.object [], (spans_singleton [openObject] cs).append (spans_of_closesAtOnce hclose)⟩
      · obtain ⟨s, hs, hr⟩ := exists_of_bind_eq_ok hr
        obtain ⟨a, -, hr⟩ := exists_of_bind_eq_ok hr
        cases hr
        obtain ⟨members, -, hmembers⟩ := spans_of_membersUpTo h fields.blank cs s hs
        exact ⟨.object members, (spans_singleton [openObject] cs).append hmembers⟩
    · cases hr
  · cases hr

end Record

/-! ### Whole texts -/

/-- **A text that is accepted is written from a document.** -/
theorem written_of_readWhole {reader : Reader α} (h : Accepts reader) {text : String} {a : α}
    (hread : readWhole reader text = .ok a) : ∃ v : Document, v.Written text := by
  obtain ⟨r, hr, hend⟩ := exists_of_bind_eq_ok hread
  split at hend
  · next hempty =>
    obtain ⟨v, hv⟩ := h hr
    exact ⟨v, r.rest, hv, List.dropWhile_eq_nil_iff.mp (List.isEmpty_iff.mp hempty)⟩
  · cases hend

/-- **What is accepted as a whole**: the texts of the documents that mean something. -/
theorem readWhole_eq_ok_iff_exists {reader : Reader α} {meaning : Document → Option α}
    (haccepts : Accepts reader) (h : Understands reader meaning) {text : String} {a : α} :
    readWhole reader text = .ok a ↔ ∃ v : Document, v.Written text ∧ meaning v = some a := by
  constructor
  · intro hread
    obtain ⟨v, hv⟩ := written_of_readWhole haccepts hread
    exact ⟨v, hv, (readWhole_eq_ok_iff h hv).mp hread⟩
  · rintro ⟨v, hv, hmeaning⟩
    exact (readWhole_eq_ok_iff h hv).mpr hmeaning

end Agenda.Json

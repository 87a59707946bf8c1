/-
Agenda/Proofs/Json/Record.lean

Records mean what their fields make of a draft.  `slot name v` says what the value `v`
of the field `name` does to a draft, if it is accepted.

An object fills a draft member by member (`Fields.fill`): a field must not be there
yet, and a member that is no field is left out, whatever its value.  An array fills it
in the order of the fields (`Fields.row`).
-/
import Agenda.Proofs.Json.Meaning

namespace Agenda.Json

open Text

/-- What the value of a field does to a draft, if the field accepts it. -/
abbrev Slots (δ : Type) :=
  String → Document → Option (δ → δ)

variable {α δ : Type} {input rest : List Char} {v : Document} {fields : Fields δ α}
  {slot : Slots δ} {draft : δ}

/-! ### What records mean -/

/-- The fields of a record are read as `slot` says. -/
def Fields.Understood (fields : Fields δ α) (slot : Slots δ) : Prop :=
  ∀ name ∈ fields.names, ∀ draft,
    Understands (fields.read name draft) fun v => (slot name v).map (· draft)

/-- What a member does to a draft. -/
def Fields.place (fields : Fields δ α) (slot : Slots δ) (name : String) (v : Document) (draft : δ) :
    Option δ :=
  if name ∈ fields.names then
    if fields.isSet name draft then none else (slot name v).map (· draft)
  else some draft

/-- What the members of an object do to a draft, one after the other. -/
def Fields.fill (fields : Fields δ α) (slot : Slots δ) : List Member → δ → Option δ
  | [], draft => some draft
  | (name, v) :: members, draft =>
    (spelled? name).bind fun name =>
      (fields.place slot name v draft).bind (fill fields slot members)

/-- What the elements of an array do to a draft, as the values of these fields. -/
def Fields.row (slot : Slots δ) : List String → List Document → δ → Option δ
  | _, [], draft => some draft
  | [], _ :: _, _ => none
  | name :: names, v :: vs, draft => ((slot name v).map (· draft)).bind (row slot names vs)

/-- The record that a document is. -/
def Fields.meaning (fields : Fields δ α) (slot : Slots δ) : Document → Option α
  | .object members => (fields.fill slot members fields.blank).bind fields.finish
  | .array elements => (Fields.row slot fields.names elements fields.blank).bind fields.finish
  | _ => none

/-! ### Objects -/

theorem settles_memberName {name : List Glyph} {lexemes : List (List Char)}
    (h : Spans (quoted name :: lexemes) input rest) :
    ∃ mid, Settles (memberName input) (spelled? name) mid ∧ Spans lexemes mid rest := by
  obtain ⟨gap, mid, hgap, rfl, hmid⟩ := h
  refine ⟨mid, ?_, hmid⟩
  have hquote : Reads (openName (gap ++ (quoted name ++ mid))) ()
      (name.flatMap Glyph.chars ++ '"' :: mid) := by
    rw [quoted_append]
    exact reads_separator hgap rfl _
  obtain ⟨lt, hquote⟩ := hquote.eq_ok
  rw [memberName, hquote]
  exact (settles_stringBody name mid).bind_ok (fun _ => rfl) fun _ => rfl

/-- A member does to the draft what its value does, behind its colon. -/
theorem settles_member (h : fields.Understood slot) (name : String) (v : Document)
    (hspans : Spans ([':'] :: v.lexemes) input rest) (hrest : Ends rest) :
    Settles (fields.member name draft input) (fields.place slot name v draft) rest := by
  obtain ⟨mid, hcolon, hv⟩ := hspans.reads_separator rfl
  obtain ⟨lt, hcolon⟩ := hcolon.eq_ok
  rw [Fields.member, Fields.place]
  split
  · next hname =>
    split
    · exact settles_error _
    · have hread := (h name hname draft v hv hrest).bind_ok (g := Reading.andThen ⟨(), mid, lt⟩)
        (f := id) (fun _ => rfl) fun _ => rfl
      rw [Option.map_id] at hread
      rw [hcolon]
      exact hread
  · rw [hcolon]
    exact (reads_skipValue v hv hrest).bind fun x _ hr => ⟨_, rfl, rfl, hr⟩

section Members

variable {name? : Option String} {next? : String → Option δ} {r r' : List Char}

theorem settles_membersUpTo_close (hname : Settles (memberName input) name? r)
    (hv : ∀ name, Settles (fields.member name draft r) (next? name) r')
    (hturn : Reads (afterPart closeObject r') .close rest) :
    Settles (fields.membersUpTo draft input) (name?.bind next?) rest := by
  cases name? with
  | none =>
    obtain ⟨fault, hfault⟩ := hname
    rw [Fields.membersUpTo, hfault]
    exact settles_error fault
  | some name =>
    have hv := hv name
    rw [Option.bind_some]
    cases hnext : next? name with
    | none =>
      obtain ⟨lt, hname⟩ := Reads.eq_ok hname
      rw [hnext] at hv
      obtain ⟨fault, hfault⟩ := hv
      rw [Fields.membersUpTo, hname]
      simp only [hfault]
      exact settles_error fault
    | some next =>
      rw [hnext] at hv
      exact reads_membersUpTo_close hname hv hturn

theorem settles_membersUpTo_more {r'' : List Char} {last? : δ → Option δ}
    (hname : Settles (memberName input) name? r)
    (hv : ∀ name, Settles (fields.member name draft r) (next? name) r')
    (hturn : Reads (afterPart closeObject r') .more r'')
    (hmore : ∀ next, Settles (fields.membersUpTo next r'') (last? next) rest) :
    Settles (fields.membersUpTo draft input) (name?.bind fun name => (next? name).bind last?)
      rest := by
  cases name? with
  | none =>
    obtain ⟨fault, hfault⟩ := hname
    rw [Fields.membersUpTo, hfault]
    exact settles_error fault
  | some name =>
    have hv := hv name
    rw [Option.bind_some]
    cases hnext : next? name with
    | none =>
      obtain ⟨lt, hname⟩ := Reads.eq_ok hname
      rw [hnext] at hv
      obtain ⟨fault, hfault⟩ := hv
      rw [Fields.membersUpTo, hname]
      simp only [hfault]
      exact settles_error fault
    | some next =>
      have hmore := hmore next
      rw [hnext] at hv
      rw [Option.bind_some]
      cases hlast : last? next with
      | none =>
        obtain ⟨lt, hname⟩ := Reads.eq_ok hname
        obtain ⟨lt', hv⟩ := Reads.eq_ok hv
        obtain ⟨lt'', hturn⟩ := hturn.eq_ok
        rw [hlast] at hmore
        obtain ⟨fault, hfault⟩ := hmore
        rw [Fields.membersUpTo, hname]
        simp only [hv, hturn, hfault]
        exact settles_error fault
      | some last =>
        rw [hlast] at hmore
        exact reads_membersUpTo_more hname hv hturn hmore

end Members

theorem settles_membersUpTo (h : fields.Understood slot) (member : Member) (members : List Member)
    (hspans : Spans (memberLexemes (member :: members) ++ [[closeObject]]) input rest) :
    Settles (fields.membersUpTo draft input) (fields.fill slot (member :: members) draft) rest := by
  -- a comma stands behind each member, and the closing mark behind the last one
  induction members generalizing member draft input with
  | nil =>
    obtain ⟨name, v⟩ := member
    obtain ⟨mid, hname, hmember⟩ := settles_memberName hspans
    have hmember : Spans (([':'] :: v.lexemes) ++ _) mid rest := hmember
    obtain ⟨mid', hmember, hclose⟩ := spans_append_iff.mp hmember
    have hfill : fields.fill slot [(name, v)] draft =
        (spelled? name).bind fun name => fields.place slot name v draft := by
      simp [Fields.fill]
    rw [hfill]
    exact settles_membersUpTo_close hname
      (fun name => settles_member h name v hmember (hclose.ends (by decide)))
      (hclose.reads_closing (by decide) (by decide))
  | cons next members ih =>
    obtain ⟨name, v⟩ := member
    rw [memberLexemes_cons_cons, List.cons_append, List.cons_append, List.append_assoc] at hspans
    obtain ⟨mid, hname, hmember⟩ := settles_memberName hspans
    have hmember : Spans (([':'] :: v.lexemes) ++ _) mid rest := hmember
    obtain ⟨mid', hmember, hcomma⟩ := spans_append_iff.mp hmember
    obtain ⟨mid'', hturn, hmore⟩ := hcomma.reads_comma closeObject
    exact settles_membersUpTo_more hname
      (fun name => settles_member h name v hmember (hcomma.ends (by decide))) hturn
      fun _ => ih next hmore

/-! ### Arrays -/

theorem elementLexemes_cons (v : Document) (vs : List Document) :
    elementLexemes (v :: vs) = v.lexemes ++ vs.flatMap fun v => [','] :: v.lexemes := by
  induction vs generalizing v with
  | nil => simp [elementLexemes]
  | cons next vs ih => rw [elementLexemes_cons_cons, ih, List.flatMap_cons, List.cons_append]

/-- No array ends where a document stands. -/
theorem closesAtOnce_lexemes {lexemes : List (List Char)}
    (h : Spans (v.lexemes ++ lexemes) input rest) : closesAtOnce ']' input = none := by
  obtain ⟨c, word, more, hcons, hc, hne⟩ := v.exists_lexemes_eq_cons
  rw [hcons] at h
  exact h.closesAtOnce_eq_none hc hne

/-- Where an array ends, what was read so far is the draft. -/
theorem reads_rowUpTo_close (hclose : Spans [[']']] input rest) (draft : δ) (first : Bool)
    (names : List String) : Reads (fields.rowUpTo draft first names input) draft rest := by
  obtain ⟨lt, hclose⟩ := hclose.closesAtOnce_eq rfl
  cases names with
  | nil =>
    rw [Fields.rowUpTo, hclose]
    exact ⟨_, rfl, rfl, rfl⟩
  | cons name names =>
    rw [Fields.rowUpTo, hclose]
    exact ⟨_, rfl, rfl, rfl⟩

/-- When every field is there, nothing but the end may follow. -/
theorem settles_rowUpTo_nil (hopen : closesAtOnce ']' input = none) (draft : δ) (first : Bool) :
    Settles (fields.rowUpTo draft first [] input) none rest := by
  rw [Fields.rowUpTo, hopen]
  exact settles_error _

theorem ends_of_later {vs : List Document}
    (h : Spans ((vs.flatMap fun v => [','] :: v.lexemes) ++ [[']']]) input rest) : Ends input := by
  cases vs with
  | nil => exact h.ends (by decide)
  | cons v vs => exact Spans.ends (c := ',') h (by decide)

/-- The elements after the first one stand behind commas. -/
theorem settles_rowUpTo_later (h : fields.Understood slot) {names : List String}
    (hnames : ∀ name ∈ names, name ∈ fields.names) (vs : List Document)
    (hspans : Spans ((vs.flatMap fun v => [','] :: v.lexemes) ++ [[']']]) input rest) :
    Settles (fields.rowUpTo draft false names input) (Fields.row slot names vs draft) rest := by
  -- each element takes one field off the row, and the row may end before the fields do
  induction vs generalizing names draft input with
  | nil =>
    rw [Fields.row]
    exact reads_rowUpTo_close hspans draft false names
  | cons v vs ih =>
    rw [List.flatMap_cons, List.cons_append, List.cons_append, List.append_assoc] at hspans
    have hopen : closesAtOnce ']' input = none := hspans.closesAtOnce_eq_none rfl (by decide)
    cases names with
    | nil => exact settles_rowUpTo_nil hopen draft false
    | cons name names =>
      obtain ⟨mid, hcomma, hv⟩ := hspans.reads_separator rfl
      obtain ⟨lt, hcomma⟩ := hcomma.eq_ok
      have hopen' := closesAtOnce_lexemes hv
      rw [Fields.rowUpTo, hopen]
      change Settles (separator ',' input >>= _) _ _
      rw [hcomma]
      change Settles (if (closesAtOnce ']' mid).isSome = true then _ else _) _ _
      rw [hopen', if_neg (by simp)]
      obtain ⟨mid', hv, hmore⟩ := spans_append_iff.mp hv
      refine (h name (hnames name List.mem_cons_self) draft v hv (ends_of_later hmore)).bind
        fun x hx => ?_
      rw [← hx] at hmore
      have hlater : Settles (fields.rowUpTo x.value false names x.rest)
          (Fields.row slot names vs x.value) rest :=
        ih (fun name hname => hnames name (List.mem_cons_of_mem _ hname)) hmore
      have hread := hlater.bind_ok (g := fun r => Reading.andThen ⟨(), mid, lt⟩ (x.andThen r))
        (f := id) (fun _ => rfl) fun _ => rfl
      rwa [Option.map_id] at hread

/-- The first element stands without a comma in front. -/
theorem settles_rowUpTo (h : fields.Understood slot) {names : List String}
    (hnames : ∀ name ∈ names, name ∈ fields.names) (elements : List Document)
    (hspans : Spans (elementLexemes elements ++ [[']']]) input rest) :
    Settles (fields.rowUpTo draft true names input) (Fields.row slot names elements draft)
      rest := by
  cases elements with
  | nil =>
    rw [Fields.row]
    exact reads_rowUpTo_close hspans draft true names
  | cons v vs =>
    have hopen := closesAtOnce_elementLexemes v vs hspans
    cases names with
    | nil => exact settles_rowUpTo_nil hopen draft true
    | cons name names =>
      rw [elementLexemes_cons, List.append_assoc] at hspans
      obtain ⟨mid, hv, hlater⟩ := spans_append_iff.mp hspans
      have hstarts : (skipGaps input).isEmpty = false := by
        obtain ⟨c, word, more, hcons, hc, -⟩ := v.exists_lexemes_eq_cons
        rw [hcons] at hv
        obtain ⟨_, hskip, -⟩ := hv.skipGaps_eq hc
        rw [hskip]
        rfl
      rw [Fields.rowUpTo, hopen]
      change Settles (if (skipGaps input).isEmpty = true then _ else _) _ _
      rw [hstarts]
      refine (h name (hnames name List.mem_cons_self) draft v hv (ends_of_later hlater)).bind
        fun x hx => ?_
      rw [← hx] at hlater
      have hread : Settles (fields.rowUpTo x.value false names x.rest)
          (Fields.row slot names vs x.value) rest :=
        settles_rowUpTo_later h (fun name hname => hnames name (List.mem_cons_of_mem _ hname)) vs
          hlater
      have hwhole := hread.bind_ok (g := x.andThen) (f := id) (fun _ => rfl) fun _ => rfl
      rwa [Option.map_id] at hwhole

/-! ### Records -/

/-- A draft that was filled is a record, unless a field is missing. -/
theorem settles_finished {cs : List Char} {result : Except Fault (Reading δ cs)}
    {draft? : Option δ} (h : Settles result draft? rest) (c : Char) :
    Settles (result >>= fun r => fields.finished r.value >>= fun a =>
      .ok ((r.map fun _ => a).cons c)) (draft?.bind fields.finish) rest := by
  refine h.bind fun r hr => ?_
  rw [Fields.finished]
  cases fields.finish r.value with
  | none => exact settles_error _
  | some a => exact ⟨_, rfl, rfl, hr⟩

/-- **A record means what its fields make of the blank draft.** -/
theorem understands_record (h : fields.Understood slot) :
    Understands (record fields) (fields.meaning slot) := by
  apply understands_pastGaps
  intro v input rest hv _
  cases hv with
  | @array cs _ elements hspans =>
    exact settles_finished (settles_rowUpTo h (fun _ => id) elements hspans) '['
  | @object cs _ members hspans =>
    change Settles (if openObject = openObject then _ else _) _ _
    rw [if_pos rfl]
    cases members with
    | nil =>
      obtain ⟨lt, hclose⟩ := hspans.closesAtOnce_eq (by decide)
      rw [hclose]
      have hblank : Settles (.ok ⟨fields.blank, rest, lt⟩ : Except Fault (Reading δ cs))
          (some fields.blank) rest := ⟨_, rfl, rfl, rfl⟩
      exact settles_finished hblank openObject
    | cons member members =>
      rw [closesAtOnce_memberLexemes member members hspans]
      exact settles_finished (settles_membersUpTo h member members hspans) openObject
  | @number _ cs c n hc =>
    generalize hinput : c :: cs = input
    split
    · exact absurd (List.cons.inj hinput).1 (ne_of_number_start hc '[' (by decide))
    · next hc' =>
      cases hinput
      rw [if_neg (ne_of_number_start hc _ (by decide))]
      exact settles_error _
    · exact settles_error _
  | _ => exact settles_error _

/-! ### Whole texts -/

/-- **A whole text is accepted exactly if the document it is written from means something.** -/
theorem readWhole_eq_ok_iff {reader : Reader α} {meaning : Document → Option α}
    (h : Understands reader meaning) {text : String} (hv : v.Written text) {a : α} :
    readWhole reader text = .ok a ↔ meaning v = some a := by
  obtain ⟨rest, hspans, hgaps⟩ := hv
  have hread := h v hspans (ends_of_gaps hgaps)
  have hrest : skipGaps rest = [] := List.dropWhile_eq_nil_iff.mpr hgaps
  rw [readWhole]
  cases hmeaning : meaning v with
  | none =>
    rw [hmeaning] at hread
    obtain ⟨fault, hfault⟩ := hread
    rw [hfault]
    constructor
    · intro hok
      cases hok
    · intro hsome
      cases hsome
  | some b =>
    rw [hmeaning] at hread
    obtain ⟨lt, hread⟩ := Reads.eq_ok hread
    rw [hread]
    change (if (skipGaps rest).isEmpty = true then _ else _) = _ ↔ _
    rw [hrest]
    change Except.ok b = .ok a ↔ some b = some a
    rw [Except.ok.injEq, Option.some.injEq]

end Agenda.Json

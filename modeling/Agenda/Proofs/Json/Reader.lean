/-
Agenda/Proofs/Json/Reader.lean

Readers and what they find in the pretty form of a value.

    Recovers reader v a

says that `reader` finds `a` where `v` is written: at any depth, behind any
gaps, whatever follows the value.  Scalars are recovered because strings and
integers are read again; arrays and records are, if their parts are.

A record is read member by member into a draft.  `Fields.Fills` says that the
members of an object fill a draft one after the other, each of them a field
that was not set before.
-/
import Agenda.Json.Reader
import Agenda.Proofs.Json.Scanner

namespace Agenda.Json

open Text

variable {α β δ : Type} {gap input rest : List Char} {a : α} {v : Value}

/-! ### Gaps -/

/-- Nothing but gaps. -/
def Gaps (gap : List Char) : Prop :=
  ∀ c ∈ gap, isGap c = true

theorem gaps_nil : Gaps [] := nofun

theorem gaps_blank : Gaps [' '] := by
  simp [Gaps, isGap]

theorem gaps_newLine (depth : Nat) : Gaps (newLine depth) := by
  intro c hc
  rcases List.mem_cons.mp hc with rfl | hc
  · rfl
  · rw [(List.mem_replicate.mp hc).2]
    rfl

theorem skipGaps_append (hgap : Gaps gap) {c : Char} (hc : isGap c = false) (cs : List Char) :
    skipGaps (gap ++ c :: cs) = c :: cs := by
  rw [skipGaps, List.dropWhile_append_of_pos hgap, List.dropWhile_cons_of_neg (by simp [hc])]

theorem reads_pastGaps {reader : Reader α} (h : Reads (reader (skipGaps input)) a rest) :
    Reads (pastGaps reader input) a rest := by
  obtain ⟨r, hr, hvalue, hrest⟩ := h
  rw [pastGaps, hr]
  exact ⟨afterGaps r, rfl, hvalue, hrest⟩

/-! ### Marks between values -/

section Marks

variable {mark : Char}

theorem reads_separator (hgap : Gaps gap) (hmark : isGap mark = false) (rest : List Char) :
    Reads (separator mark (gap ++ mark :: rest)) () rest := by
  have hskip := skipGaps_append hgap hmark rest
  unfold separator
  split
  · next h => cases hskip.symm.trans h
  · next h =>
    cases hskip.symm.trans h
    rw [if_pos rfl]
    exact reads_ok _

theorem reads_afterPart_comma (hgap : Gaps gap) (closing : Char) (rest : List Char) :
    Reads (afterPart closing (gap ++ ',' :: rest)) .more rest := by
  have hskip := skipGaps_append hgap (c := ',') rfl rest
  unfold afterPart
  split
  · next h => cases hskip.symm.trans h
  · next h =>
    cases hskip.symm.trans h
    rw [if_pos rfl]
    exact reads_ok _

theorem reads_afterPart_closing (hgap : Gaps gap) (hmark : isGap mark = false) (hne : mark ≠ ',')
    (rest : List Char) : Reads (afterPart mark (gap ++ mark :: rest)) .close rest := by
  have hskip := skipGaps_append hgap hmark rest
  unfold afterPart
  split
  · next h => cases hskip.symm.trans h
  · next h =>
    cases hskip.symm.trans h
    rw [if_neg hne, if_pos rfl]
    exact reads_ok _

theorem closesAtOnce_of_ne (hgap : Gaps gap) {c : Char} (hc : isGap c = false) (hne : c ≠ mark)
    (cs : List Char) : closesAtOnce mark (gap ++ c :: cs) = none := by
  have hskip := skipGaps_append hgap hc cs
  unfold closesAtOnce
  split
  · next h =>
    cases hskip.symm.trans h
    rw [if_neg hne]
  · rfl

end Marks

/-! ### Values -/

/-- The reader finds `a` where `v` is written. -/
def Recovers (reader : Reader α) (v : Value) (a : α) : Prop :=
  ∀ (depth : Nat) ⦃gap rest : List Char⦄, Gaps gap → EndsValue rest →
    Reads (reader (gap ++ (v.prettyList depth ++ rest))) a rest

/-- No value starts with a gap or with the mark that closes an array. -/
theorem exists_prettyList_eq_cons (v : Value) (depth : Nat) :
    ∃ c cs, v.prettyList depth = c :: cs ∧ isGap c = false ∧ c ≠ ']' := by
  match v with
  | .null => exact ⟨_, _, rfl, rfl, by decide⟩
  | .bool true => exact ⟨_, _, rfl, rfl, by decide⟩
  | .bool false => exact ⟨_, _, rfl, rfl, by decide⟩
  | .int n =>
    obtain ⟨c, cs, h, hc⟩ := exists_integer_eq_cons n
    refine ⟨c, cs, h, ?_, ?_⟩
    · rcases hc with rfl | hc
      · rfl
      · by_contra hgap
        simp only [isGap, Bool.not_eq_false, Bool.or_eq_true, decide_eq_true_eq] at hgap
        rcases hgap with ((rfl | rfl) | rfl) | rfl <;> cases hc
    · rintro rfl
      rcases hc with hc | hc <;> cases hc
  | .str s => exact ⟨_, _, rfl, rfl, by decide⟩
  | .arr [] => exact ⟨_, _, rfl, rfl, by decide⟩
  | .arr (_ :: _) => exact ⟨_, _, rfl, rfl, by decide⟩
  | .obj [] => exact ⟨_, _, rfl, rfl, by decide⟩
  | .obj (_ :: _) => exact ⟨_, _, rfl, rfl, by decide⟩

/-- Readers of values skip the gaps in front. -/
theorem recovers_pastGaps {reader : Reader α}
    (h : ∀ (depth : Nat) (rest : List Char), EndsValue rest →
      Reads (reader (v.prettyList depth ++ rest)) a rest) : Recovers (pastGaps reader) v a := by
  intro depth gap rest hgap hrest
  obtain ⟨c, cs, hcons, hc, -⟩ := exists_prettyList_eq_cons v depth
  have hread := h depth rest hrest
  apply reads_pastGaps
  rw [hcons, List.cons_append] at hread ⊢
  rwa [skipGaps_append hgap hc]

/-! ### Scalars -/

theorem recovers_text (s : String) : Recovers text (.str s) s := by
  apply recovers_pastGaps
  intro depth rest _
  have hwritten : (Value.str s).prettyList depth ++ rest =
      '"' :: (s.toList.flatMap escapeChar ++ '"' :: rest) := by
    simp [Value.prettyList, string]
  obtain ⟨r, hr, hvalue, hrest⟩ := reads_stringBody s.toList rest
  rw [hwritten]
  change Reads (Except.map _ (stringBody _)) s rest
  rw [hr]
  exact ⟨_, rfl, (congrArg String.ofList hvalue).trans String.ofList_toList, hrest⟩

theorem recovers_truth (b : Bool) : Recovers truth (.bool b) b := by
  apply recovers_pastGaps
  intro depth rest _
  cases b with
  | true => exact ⟨_, rfl, rfl, rfl⟩
  | false => exact ⟨_, rfl, rfl, rfl⟩

theorem recovers_int64 (n : Int64) : Recovers int64 (.int n.toInt) n := by
  apply recovers_pastGaps
  intro depth rest hrest
  have hmin := n.minValue_le_toInt
  have hmax := n.toInt_le
  have hfits : n.toInt.natAbs < UInt64.size := by
    have h₁ : Int64.minValue.toInt = -9223372036854775808 := by decide
    have h₂ : Int64.maxValue.toInt = 9223372036854775807 := by decide
    have h₃ : UInt64.size = 18446744073709551616 := rfl
    omega
  have hstarts : startsNumber (integer n.toInt ++ rest) = true := by
    obtain ⟨c, cs, h, hc⟩ := exists_integer_eq_cons n.toInt
    rw [h]
    rcases hc with rfl | hc
    · rfl
    · simp [startsNumber, hc]
  have hrange : int64OfInt? n.toInt = some n := by
    rw [int64OfInt?, if_pos ⟨hmin, hmax⟩, Int64.ofInt_toInt]
  show Reads (if startsNumber (integer n.toInt ++ rest) then _ else _) n rest
  rw [if_pos hstarts]
  refine (reads_number_integer hfits hrest).bind fun r hr hr' => ?_
  rw [hr, toInt?_integer, Option.bind_some, hrange]
  exact ⟨_, rfl, rfl, hr'⟩

/-- A text that stands for something else. -/
theorem recovers_textAs {read? : String → Option α} {s : String} (h : read? s = some a) :
    Recovers (textAs read?) (.str s) a := by
  intro depth gap rest hgap hrest
  refine (recovers_text s depth hgap hrest).bind fun r hr hr' => ?_
  rw [hr, h]
  exact ⟨_, rfl, rfl, hr'⟩

/-- What may also be `null` is recovered if it does not look like it. -/
theorem recovers_nullable {reader : Reader α} (h : Recovers reader v a)
    (hnull : ∀ depth rest, (v.prettyList depth ++ rest).head? ≠ some 'n') :
    Recovers (nullable reader) v (some a) := by
  apply recovers_pastGaps
  intro depth rest hrest
  rw [if_neg (hnull depth rest)]
  exact (h depth gaps_nil hrest).map some

/-! ### Arrays -/

section Elements

variable {reader : Reader α} {r : List Char}

/-- The last element is followed by the mark that closes the array. -/
theorem reads_elementsUpTo_close (hv : Reads (reader input) a r)
    (hturn : Reads (afterPart ']' r) .close rest) : Reads (elementsUpTo reader input) [a] rest := by
  obtain ⟨v, hv, rfl, hr⟩ := hv
  rw [← hr] at hturn
  obtain ⟨turn, hturn, hclose, hrest⟩ := hturn
  rw [elementsUpTo, hv]
  simp only [hturn, hclose]
  exact ⟨_, rfl, rfl, hrest⟩

/-- After a comma another element follows. -/
theorem reads_elementsUpTo_more {r' : List Char} {values : List α} (hv : Reads (reader input) a r)
    (hturn : Reads (afterPart ']' r) .more r') (hopen : closesAtOnce ']' r' = none)
    (hmore : Reads (elementsUpTo reader r') values rest) :
    Reads (elementsUpTo reader input) (a :: values) rest := by
  obtain ⟨v, hv, rfl, hr⟩ := hv
  rw [← hr] at hturn
  obtain ⟨turn, hturn, hcomma, hr'⟩ := hturn
  rw [← hr'] at hopen hmore
  obtain ⟨more, hmore, rfl, hrest⟩ := hmore
  rw [elementsUpTo, hv]
  simp only [hturn, hcomma, hopen, hmore, Option.isSome_none]
  exact ⟨_, rfl, rfl, hrest⟩

end Elements

theorem prettyElements_cons_cons (depth : Nat) (v next : Value) (vs : List Value) :
    prettyElements depth (v :: next :: vs) =
      newLine depth ++ (v.prettyList depth ++ ',' :: prettyElements depth (next :: vs)) := by
  rw [prettyElements, List.append_assoc]
  nofun

/-- An array does not end where its first element is written. -/
theorem closesAtOnce_prettyElements (depth : Nat) (v : Value) (vs : List Value)
    (rest : List Char) : closesAtOnce ']' (prettyElements depth (v :: vs) ++ rest) = none := by
  obtain ⟨c, cs, hcons, hc, hne⟩ := exists_prettyList_eq_cons v depth
  cases vs with
  | nil =>
    rw [prettyElements, List.append_assoc, hcons]
    exact closesAtOnce_of_ne (gaps_newLine depth) hc hne _
  | cons next vs =>
    rw [prettyElements_cons_cons, List.append_assoc, hcons]
    exact closesAtOnce_of_ne (gaps_newLine depth) hc hne _

theorem reads_elementsUpTo {reader : Reader α} {write : α → Value} {values : List α}
    (hne : values ≠ []) (h : ∀ a ∈ values, Recovers reader (write a) a) (depth : Nat)
    (hgap : Gaps gap) (hend : EndsValue (gap ++ ']' :: rest)) :
    Reads (elementsUpTo reader (prettyElements depth (values.map write) ++ (gap ++ ']' :: rest)))
      values rest := by
  induction values with
  | nil => exact absurd rfl hne
  | cons a values ih =>
    have hfirst := h a List.mem_cons_self
    cases values with
    | nil =>
      have hv := hfirst depth (gaps_newLine depth) hend
      rw [← List.append_assoc] at hv
      exact reads_elementsUpTo_close hv (reads_afterPart_closing hgap rfl (by decide) rest)
    | cons next values =>
      have hmore := ih (by simp) fun b hb => h b (List.mem_cons_of_mem a hb)
      have hv := hfirst depth (gaps_newLine depth)
        (endsValue_comma
          (prettyElements depth ((next :: values).map write) ++ (gap ++ ']' :: rest)))
      have hwritten : prettyElements depth ((a :: next :: values).map write) ++
          (gap ++ ']' :: rest) = newLine depth ++ ((write a).prettyList depth ++
            ',' :: (prettyElements depth ((next :: values).map write) ++
              (gap ++ ']' :: rest))) := by
        simp [prettyElements_cons_cons]
      rw [← hwritten] at hv
      exact reads_elementsUpTo_more hv (reads_afterPart_comma gaps_nil ']' _)
        (closesAtOnce_prettyElements depth _ _ _) hmore

/-- **An array is recovered**, element by element. -/
theorem recovers_array {reader : Reader α} {write : α → Value} {values : List α}
    (h : ∀ a ∈ values, Recovers reader (write a) a) :
    Recovers (array reader) (.arr (values.map write)) values := by
  apply recovers_pastGaps
  intro depth rest _
  cases values with
  | nil => exact ⟨_, rfl, rfl, rfl⟩
  | cons a values =>
    have hread := reads_elementsUpTo (by simp) h (depth + 1) (gaps_newLine depth)
      (endsValue_newLine depth (']' :: rest))
    have hopen := closesAtOnce_prettyElements (depth + 1) (write a) (values.map write)
      (newLine depth ++ ']' :: rest)
    have hwritten : (Value.arr ((a :: values).map write)).prettyList depth ++ rest =
        '[' :: (prettyElements (depth + 1) ((a :: values).map write) ++
          (newLine depth ++ ']' :: rest)) := by
      simp [Value.prettyList]
    rw [List.map_cons] at hread
    rw [hwritten, List.map_cons]
    simp only [hopen]
    exact hread.cons '['

/-! ### Records -/

section Members

variable {fields : Fields δ α} {draft next last : δ} {name : String} {r : List Char}

/-- The members of an object fill the draft, each one a field that was not set before. -/
inductive Fields.Fills (fields : Fields δ α) : δ → List (String × Value) → δ → Prop
  | nil (draft : δ) : fields.Fills draft [] draft
  | cons {draft next last : δ} {name : String} {v : Value} {members : List (String × Value)} :
      name ∈ fields.names → fields.isSet name draft = false →
      Recovers (fields.read name draft) v next → fields.Fills next members last →
      fields.Fills draft ((name, v) :: members) last

theorem reads_memberName (hgap : Gaps gap) (name : String) (rest : List Char) :
    Reads (memberName (gap ++ (string name ++ rest))) name rest := by
  have hwritten : gap ++ (string name ++ rest) =
      gap ++ '"' :: (name.toList.flatMap escapeChar ++ '"' :: rest) := by
    simp [string]
  have hquote : Reads (openName (gap ++ (string name ++ rest))) ()
      (name.toList.flatMap escapeChar ++ '"' :: rest) := by
    rw [hwritten]
    exact reads_separator hgap rfl _
  refine hquote.bind fun quote _ hr => ?_
  have hbody := reads_stringBody name.toList rest
  rw [← hr] at hbody
  refine hbody.bind fun body hvalue hrest => ?_
  exact ⟨_, rfl, (congrArg String.ofList hvalue).trans String.ofList_toList, hrest⟩

/-- A member is read into the draft, behind its colon. -/
theorem reads_member (hname : name ∈ fields.names) (hset : fields.isSet name draft = false)
    (hread : Recovers (fields.read name draft) v next) (depth : Nat) (hrest : EndsValue rest) :
    Reads (fields.member name draft (':' :: ' ' :: (v.prettyList depth ++ rest))) next rest := by
  rw [Fields.member, if_pos hname, hset]
  have hcolon : Reads (separator ':' (':' :: ' ' :: (v.prettyList depth ++ rest))) () _ :=
    reads_separator gaps_nil rfl _
  refine hcolon.bind fun colon _ hr => ?_
  have hvalue := hread depth gaps_blank hrest
  rw [List.singleton_append, ← hr] at hvalue
  exact hvalue.bind fun x hx hx' => ⟨_, rfl, hx, hx'⟩

/-- The last member is followed by the mark that closes the object. -/
theorem reads_membersUpTo_close {r' : List Char} (hname : Reads (memberName input) name r)
    (hv : Reads (fields.member name draft r) last r')
    (hturn : Reads (afterPart closeObject r') .close rest) :
    Reads (fields.membersUpTo draft input) last rest := by
  obtain ⟨x, hx, rfl, hr⟩ := hname
  rw [← hr] at hv
  obtain ⟨v, hv, rfl, hr'⟩ := hv
  rw [← hr'] at hturn
  obtain ⟨turn, hturn, hclose, hrest⟩ := hturn
  rw [Fields.membersUpTo, hx]
  simp only [hv, hturn, hclose]
  exact ⟨_, rfl, rfl, hrest⟩

/-- After a comma another member follows. -/
theorem reads_membersUpTo_more {r' r'' : List Char} (hname : Reads (memberName input) name r)
    (hv : Reads (fields.member name draft r) next r')
    (hturn : Reads (afterPart closeObject r') .more r'')
    (hmore : Reads (fields.membersUpTo next r'') last rest) :
    Reads (fields.membersUpTo draft input) last rest := by
  obtain ⟨x, hx, rfl, hr⟩ := hname
  rw [← hr] at hv
  obtain ⟨v, hv, rfl, hr'⟩ := hv
  rw [← hr'] at hturn
  obtain ⟨turn, hturn, hcomma, hr''⟩ := hturn
  rw [← hr''] at hmore
  obtain ⟨more, hmore, rfl, hrest⟩ := hmore
  rw [Fields.membersUpTo, hx]
  simp only [hv, hturn, hcomma, hmore]
  exact ⟨_, rfl, rfl, hrest⟩

end Members

theorem prettyMembers_cons_cons (depth : Nat) (name : String) (v : Value)
    (next : String × Value) (members : List (String × Value)) :
    prettyMembers depth ((name, v) :: next :: members) =
      newLine depth ++ (string name ++ ':' :: ' ' :: (v.prettyList depth ++
        ',' :: prettyMembers depth (next :: members))) := by
  rw [prettyMembers]
  · simp
  · nofun

/-- An object does not end where its first member is written. -/
theorem closesAtOnce_prettyMembers (depth : Nat) (member : String × Value)
    (members : List (String × Value)) (rest : List Char) :
    closesAtOnce closeObject (prettyMembers depth (member :: members) ++ rest) = none := by
  obtain ⟨name, v⟩ := member
  cases members with
  | nil =>
    rw [prettyMembers, List.append_assoc, List.append_assoc]
    exact closesAtOnce_of_ne (gaps_newLine depth) rfl (by decide) _
  | cons next members =>
    rw [prettyMembers_cons_cons, List.append_assoc]
    exact closesAtOnce_of_ne (gaps_newLine depth) rfl (by decide) _

theorem reads_membersUpTo {fields : Fields δ α} {draft last : δ} {members : List (String × Value)}
    (hne : members ≠ []) (h : fields.Fills draft members last) (depth : Nat) (hgap : Gaps gap)
    (hend : EndsValue (gap ++ closeObject :: rest)) :
    Reads (fields.membersUpTo draft (prettyMembers depth members ++ (gap ++ closeObject :: rest)))
      last rest := by
  induction h with
  | nil => exact absurd rfl hne
  | @cons draft next last name v members hname hset hread hmembers ih =>
    cases members with
    | nil =>
      cases hmembers
      have hwritten : prettyMembers depth [(name, v)] ++ (gap ++ closeObject :: rest) =
          newLine depth ++ (string name ++
            (':' :: ' ' :: (v.prettyList depth ++ (gap ++ closeObject :: rest)))) := by
        simp [prettyMembers]
      rw [hwritten]
      exact reads_membersUpTo_close (reads_memberName (gaps_newLine depth) name _)
        (reads_member hname hset hread depth hend)
        (reads_afterPart_closing hgap (by decide) (by decide) rest)
    | cons member members =>
      have hwritten : prettyMembers depth ((name, v) :: member :: members) ++
          (gap ++ closeObject :: rest) =
          newLine depth ++ (string name ++ (':' :: ' ' :: (v.prettyList depth ++
            ',' :: (prettyMembers depth (member :: members) ++
              (gap ++ closeObject :: rest))))) := by
        simp [prettyMembers_cons_cons]
      rw [hwritten]
      exact reads_membersUpTo_more (reads_memberName (gaps_newLine depth) name _)
        (reads_member hname hset hread depth (endsValue_comma _))
        (reads_afterPart_comma gaps_nil closeObject _) (ih (by simp))

/-- **A record is recovered from an object** whose members fill its draft. -/
theorem recovers_record {fields : Fields δ α} {last : δ} {members : List (String × Value)}
    (hne : members ≠ []) (h : fields.Fills fields.blank members last)
    (hfinish : fields.finish last = some a) : Recovers (record fields) (.obj members) a := by
  apply recovers_pastGaps
  intro depth rest _
  obtain ⟨member, members, rfl⟩ := List.exists_cons_of_ne_nil hne
  have hread := reads_membersUpTo hne h (depth + 1) (gaps_newLine depth)
    (endsValue_newLine depth (closeObject :: rest))
  have hopen := closesAtOnce_prettyMembers (depth + 1) member members
    (newLine depth ++ closeObject :: rest)
  have hwritten : (Value.obj (member :: members)).prettyList depth ++ rest =
      openObject :: (prettyMembers (depth + 1) (member :: members) ++
        (newLine depth ++ closeObject :: rest)) := by
    simp [Value.prettyList, openObject, closeObject]
  rw [hwritten]
  change Reads (if openObject = openObject then _ else _) a rest
  rw [if_pos rfl, hopen]
  refine hread.bind fun r hr hr' => ?_
  have hfinished : fields.finished r.value = .ok a := by
    rw [hr, Fields.finished, hfinish]
  simp only [hfinished]
  exact ⟨_, rfl, rfl, hr'⟩

/-! ### Whole texts -/

/-- **The pretty form of a value is accepted.** -/
theorem readWhole_pretty {reader : Reader α} (h : Recovers reader v a) :
    readWhole reader v.pretty = .ok a := by
  have hread := h 0 gaps_nil endsValue_nil
  rw [List.nil_append, List.append_nil] at hread
  obtain ⟨r, hr, rfl, hrest⟩ := hread
  rw [readWhole, Value.pretty, String.toList_ofList, hr]
  change (if (skipGaps r.rest).isEmpty = true then _ else _) = _
  rw [hrest]
  rfl

end Agenda.Json

/-
Agenda/Proofs/Json/Revision.lean

What other versions of a program do to an object, and what that does to the record it
means: nothing, if the fields of the record are independent and a field that was left
out is as good as its default (`Fields.Independent.meaning_of_revised`).

Members may be put into another order, members with unknown names may be added, whatever
their values, a member may be left out or put in that carries the default of its field,
and the value of a field may itself be revised (`Revised`).
-/
import Agenda.Proofs.Json.Record

namespace Agenda.Json

open Text

variable {α δ : Type} {fields : Fields δ α} {slot : Slots δ}
  {draft : δ} {members members' : List Member}

/-! ### Independent fields -/

/-- Each field has a place of its own in the draft. -/
structure Fields.Independent (fields : Fields δ α) (slot : Slots δ) : Prop where
  /-- The blank draft has no field. -/
  isSet_blank : ∀ name ∈ fields.names, fields.isSet name fields.blank = false
  /-- A field that was set is there. -/
  isSet_self : ∀ name ∈ fields.names, ∀ {v set}, slot name v = some set →
    ∀ draft, fields.isSet name (set draft) = true
  /-- Setting a field leaves the others as they are. -/
  isSet_other : ∀ name ∈ fields.names, ∀ other ∈ fields.names, name ≠ other →
    ∀ {v set}, slot name v = some set →
      ∀ draft, fields.isSet other (set draft) = fields.isSet other draft
  /-- Two fields are set in either order. -/
  set_comm : ∀ name ∈ fields.names, ∀ other ∈ fields.names, name ≠ other →
    ∀ {v set v' set'}, slot name v = some set → slot other v' = some set' →
      ∀ draft, set' (set draft) = set (set' draft)

/-- Leaving out the field is as good as giving it this value. -/
def Fields.DefaultsTo (fields : Fields δ α) (slot : Slots δ) (name : String) (v : Document) :
    Prop :=
  name ∈ fields.names ∧ ∃ set, slot name v = some set ∧
    ∀ draft, fields.isSet name draft = false → fields.finish (set draft) = fields.finish draft

/-! ### One member -/

section Place

variable {name other : String} {v v' : Document} {next : δ}

theorem Fields.place_of_not_mem (h : name ∉ fields.names) (slot : Slots δ) (v : Document)
    (draft : δ) : fields.place slot name v draft = some draft :=
  if_neg h

/-- A field is placed if it is not there yet and its value is accepted. -/
theorem Fields.place_eq_some_iff (h : name ∈ fields.names) :
    fields.place slot name v draft = some next ↔
      fields.isSet name draft = false ∧ ∃ set, slot name v = some set ∧ set draft = next := by
  rw [Fields.place, if_pos h]
  cases fields.isSet name draft with
  | true => simp
  | false => simp

/-- Placing a member leaves alone what other members set. -/
theorem Fields.Independent.isSet_place (h : fields.Independent slot) (hother : other ∈ fields.names)
    (hne : name ≠ other) (hplace : fields.place slot name v draft = some next) :
    fields.isSet other next = fields.isSet other draft := by
  by_cases hname : name ∈ fields.names
  · obtain ⟨-, set, hset, rfl⟩ := (Fields.place_eq_some_iff hname).mp hplace
    exact h.isSet_other name hname other hother hne hset draft
  · rw [Fields.place_of_not_mem hname] at hplace
    cases hplace
    rfl

/-- Where two members are placed one after the other, they are in the other order, too. -/
theorem Fields.Independent.place_swap (h : fields.Independent slot)
    (hplace : (fields.place slot name v draft).bind (fields.place slot other v') = some next) :
    (fields.place slot other v' draft).bind (fields.place slot name v) = some next := by
  obtain ⟨mid, hfirst, hsecond⟩ := Option.bind_eq_some_iff.mp hplace
  by_cases hname : name ∈ fields.names
  · by_cases hother : other ∈ fields.names
    · obtain ⟨hfree, set, hset, rfl⟩ := (Fields.place_eq_some_iff hname).mp hfirst
      obtain ⟨hfree', set', hset', rfl⟩ := (Fields.place_eq_some_iff hother).mp hsecond
      -- a field that was just set is not free
      have hne : name ≠ other := by
        rintro rfl
        rw [h.isSet_self name hname hset] at hfree'
        cases hfree'
      rw [h.isSet_other name hname other hother hne hset] at hfree'
      refine Option.bind_eq_some_iff.mpr ⟨set' draft,
        (Fields.place_eq_some_iff hother).mpr ⟨hfree', set', hset', rfl⟩,
        (Fields.place_eq_some_iff hname).mpr ⟨?_, set, hset, ?_⟩⟩
      · rw [h.isSet_other other hother name hname hne.symm hset', hfree]
      · exact (h.set_comm name hname other hother hne hset hset' draft).symm
    · rw [Fields.place_of_not_mem hother] at hsecond ⊢
      cases hsecond
      exact hfirst
  · rw [Fields.place_of_not_mem hname] at hfirst
    cases hfirst
    exact Option.bind_eq_some_iff.mpr ⟨next, hsecond, Fields.place_of_not_mem hname slot v next⟩

end Place

/-! ### Many members -/

/-- What one member does to a draft. -/
def Fields.placeMember (fields : Fields δ α) (slot : Slots δ) (member : Member) (draft : δ) :
    Option δ :=
  (spelled? member.1).bind fun name => fields.place slot name member.2 draft

theorem Fields.fill_cons (fields : Fields δ α) (slot : Slots δ) (member : Member)
    (members : List Member) (draft : δ) :
    fields.fill slot (member :: members) draft =
      (fields.placeMember slot member draft).bind (fields.fill slot members) := by
  rw [Fields.fill, Fields.placeMember, Option.bind_assoc]

theorem Fields.placeMember_of_spelled {member : Member} {name : String}
    (h : spelled? member.1 = some name) (fields : Fields δ α)
    (slot : Slots δ) (draft : δ) :
    fields.placeMember slot member draft = fields.place slot name member.2 draft := by
  rw [Fields.placeMember, h, Option.bind_some]

theorem Fields.fill_cons_cons (fields : Fields δ α) (slot : Slots δ) (first second : Member)
    (members : List Member) (draft : δ) :
    fields.fill slot (first :: second :: members) draft =
      ((fields.placeMember slot first draft).bind (fields.placeMember slot second)).bind
        (fields.fill slot members) := by
  rw [Fields.fill_cons, Option.bind_assoc]
  exact Option.bind_congr fun next _ => Fields.fill_cons fields slot second members next

theorem Fields.fill_append (fields : Fields δ α) (slot : Slots δ) (members members' : List Member)
    (draft : δ) :
    fields.fill slot (members ++ members') draft =
      (fields.fill slot members draft).bind (fields.fill slot members') := by
  induction members generalizing draft with
  | nil => rfl
  | cons member members ih =>
    rw [List.cons_append, Fields.fill_cons, Fields.fill_cons, Option.bind_assoc]
    exact Option.bind_congr fun next _ => ih next

theorem Fields.Independent.placeMember_swap (h : fields.Independent slot)
    {first second : Member} {next : δ}
    (hplace : (fields.placeMember slot first draft).bind (fields.placeMember slot second) =
      some next) :
    (fields.placeMember slot second draft).bind (fields.placeMember slot first) = some next := by
  obtain ⟨mid, hfirst, hsecond⟩ := Option.bind_eq_some_iff.mp hplace
  obtain ⟨name, hname, hfirst⟩ := Option.bind_eq_some_iff.mp hfirst
  obtain ⟨other, hother, hsecond⟩ := Option.bind_eq_some_iff.mp hsecond
  obtain ⟨mid', hsecond, hfirst⟩ := Option.bind_eq_some_iff.mp
    (h.place_swap (Option.bind_eq_some_iff.mpr ⟨mid, hfirst, hsecond⟩))
  exact Option.bind_eq_some_iff.mpr ⟨mid', by rwa [Fields.placeMember_of_spelled hother],
    by rwa [Fields.placeMember_of_spelled hname]⟩

/-- **The order of the members does not matter.** -/
theorem Fields.Independent.fill_perm (h : fields.Independent slot)
    (hperm : members.Perm members') (draft : δ) :
    fields.fill slot members draft = fields.fill slot members' draft := by
  -- only the swap says something about the fields
  induction hperm generalizing draft with
  | nil => rfl
  | cons member _ ih =>
    rw [Fields.fill_cons, Fields.fill_cons]
    exact Option.bind_congr fun next _ => ih next
  | swap first second members =>
    have hswap : (fields.placeMember slot second draft).bind (fields.placeMember slot first) =
        (fields.placeMember slot first draft).bind (fields.placeMember slot second) :=
      Option.ext fun next => ⟨h.placeMember_swap, h.placeMember_swap⟩
    rw [Fields.fill_cons_cons, Fields.fill_cons_cons, hswap]
  | trans _ _ ih ih' => rw [ih, ih']

/-- A member that is no field may be left out. -/
theorem Fields.fill_cons_of_not_mem {name : String} {glyphs : List Glyph}
    (hname : spelled? glyphs = some name) (hunknown : name ∉ fields.names)
    (slot : Slots δ) (v : Document) (members : List Member) (draft : δ) :
    fields.fill slot ((glyphs, v) :: members) draft = fields.fill slot members draft := by
  rw [Fields.fill_cons, Fields.placeMember_of_spelled hname, Fields.place_of_not_mem hunknown,
    Option.bind_some]

/-- A field that no member has is not set. -/
theorem Fields.Independent.isSet_fill (h : fields.Independent slot) {name : String} {last : δ}
    (hname : name ∈ fields.names) (habsent : ∀ member ∈ members, spelled? member.1 ≠ some name)
    (hfill : fields.fill slot members draft = some last) :
    fields.isSet name last = fields.isSet name draft := by
  induction members generalizing draft with
  | nil =>
    cases hfill
    rfl
  | cons member members ih =>
    rw [Fields.fill_cons] at hfill
    obtain ⟨next, hplace, hfill⟩ := Option.bind_eq_some_iff.mp hfill
    obtain ⟨other, hother, hplace⟩ := Option.bind_eq_some_iff.mp hplace
    have hne : other ≠ name := by
      rintro rfl
      exact habsent member List.mem_cons_self hother
    rw [ih (fun member hmember => habsent member (List.mem_cons_of_mem _ hmember)) hfill,
      h.isSet_place hname hne hplace]

/-- A field that is there already cannot be given once more. -/
theorem Fields.Independent.spelled_ne_of_fill (h : fields.Independent slot) {name : String}
    {last : δ} (hname : name ∈ fields.names) (hset : fields.isSet name draft = true)
    (hfill : fields.fill slot members draft = some last) :
    ∀ member ∈ members, spelled? member.1 ≠ some name := by
  induction members generalizing draft with
  | nil => nofun
  | cons member members ih =>
    rw [Fields.fill_cons] at hfill
    obtain ⟨next, hplace, hfill⟩ := Option.bind_eq_some_iff.mp hfill
    obtain ⟨other, hother, hplace⟩ := Option.bind_eq_some_iff.mp hplace
    have hne : other ≠ name := by
      rintro rfl
      have hfree := ((Fields.place_eq_some_iff hname).mp hplace).1
      rw [hset] at hfree
      cases hfree
    rw [← h.isSet_place hname hne hplace] at hset
    refine List.forall_mem_cons.mpr ⟨?_, ih hset hfill⟩
    rw [hother]
    exact fun heq => hne (Option.some.inj heq)

/-- **A member that carries the default of its field may be left out.** -/
theorem Fields.Independent.finish_fill_cons_default (h : fields.Independent slot) {name : String}
    {glyphs : List Glyph} {v : Document} (hspelled : spelled? glyphs = some name)
    (hdefault : fields.DefaultsTo slot name v)
    (habsent : ∀ member ∈ members, spelled? member.1 ≠ some name) :
    (fields.fill slot ((glyphs, v) :: members) fields.blank).bind fields.finish =
      (fields.fill slot members fields.blank).bind fields.finish := by
  obtain ⟨hname, set, hset, hfinish⟩ := hdefault
  rw [h.fill_perm (List.perm_append_singleton (glyphs, v) members).symm, Fields.fill_append,
    Option.bind_assoc]
  refine Option.bind_congr fun last hlast => ?_
  have hfree : fields.isSet name last = false := by
    rw [h.isSet_fill hname habsent hlast, h.isSet_blank name hname]
  have hplace : fields.place slot name v last = some (set last) :=
    (Fields.place_eq_some_iff hname).mpr ⟨hfree, set, hset, rfl⟩
  rw [Fields.fill_cons, Fields.placeMember_of_spelled hspelled, hplace]
  exact hfinish last hfree

/-! ### Revised objects -/

/-- An object as another version may write it, if the record has fields with these names and these
defaults, and `inner name` says how the value of the field `name` is revised. -/
inductive Revised (names : List String) (defaults : List (String × Document))
    (inner : String → Document → Document → Prop) : Document → Document → Prop
  /-- The members stand in another order. -/
  | reorder {members members' : List Member} (h : members.Perm members') :
      Revised names defaults inner (.object members) (.object members')
  /-- A member with an unknown name is added, whatever its value. -/
  | extend (before after : List Member) {glyphs : List Glyph} {name : String} (v : Document)
      (hname : spelled? glyphs = some name) (hunknown : name ∉ names) :
      Revised names defaults inner (.object (before ++ after))
        (.object (before ++ (glyphs, v) :: after))
  /-- A member that carries its default is left out. -/
  | leaveOut (before after : List Member) {glyphs : List Glyph} {name : String} {v : Document}
      (hname : spelled? glyphs = some name) (hdefault : (name, v) ∈ defaults) :
      Revised names defaults inner (.object (before ++ (glyphs, v) :: after))
        (.object (before ++ after))
  /-- A member that carries its default is put in where no member has its name. -/
  | putIn (before after : List Member) {glyphs : List Glyph} {name : String} {v : Document}
      (hname : spelled? glyphs = some name) (hdefault : (name, v) ∈ defaults)
      (habsent : ∀ member ∈ before ++ after, spelled? member.1 ≠ some name) :
      Revised names defaults inner (.object (before ++ after))
        (.object (before ++ (glyphs, v) :: after))
  /-- The value of a member is revised. -/
  | within (before after : List Member) {glyphs : List Glyph} {name : String}
      {v v' : Document} (hname : spelled? glyphs = some name) (h : inner name v v') :
      Revised names defaults inner (.object (before ++ (glyphs, v) :: after))
        (.object (before ++ (glyphs, v') :: after))

/-- A value that does the same to every draft may stand in place of another. -/
theorem Fields.place_of_slot {name : String} {v v' : Document} {next : δ}
    (h : ∀ set, slot name v = some set → slot name v' = some set)
    (hplace : fields.place slot name v draft = some next) :
    fields.place slot name v' draft = some next := by
  by_cases hname : name ∈ fields.names
  · obtain ⟨hfree, set, hset, hnext⟩ := (Fields.place_eq_some_iff hname).mp hplace
    exact (Fields.place_eq_some_iff hname).mpr ⟨hfree, set, h set hset, hnext⟩
  · rwa [Fields.place_of_not_mem hname] at hplace ⊢

/-- **A revised object means the same record.** -/
theorem Fields.Independent.meaning_of_revised (h : fields.Independent slot)
    {defaults : List (String × Document)} {inner : String → Document → Document → Prop}
    (hdefaults : ∀ name v, (name, v) ∈ defaults → fields.DefaultsTo slot name v)
    (hinner : ∀ name v v', inner name v v' → ∀ set, slot name v = some set →
      slot name v' = some set)
    {v v' : Document} (hrevised : Revised fields.names defaults inner v v') {a : α}
    (hmeaning : fields.meaning slot v = some a) : fields.meaning slot v' = some a := by
  -- a member in the middle may as well stand in front
  have hfront : ∀ (before after : List Member) (member : Member),
      fields.meaning slot (.object (before ++ member :: after)) =
        fields.meaning slot (.object (member :: (before ++ after))) := by
    intro before after member
    rw [Fields.meaning, Fields.meaning, h.fill_perm List.perm_middle]
  cases hrevised with
  | reorder hperm => rwa [Fields.meaning, ← h.fill_perm hperm]
  | extend before after v hname hunknown =>
    rw [hfront]
    rwa [Fields.meaning, Fields.fill_cons_of_not_mem hname hunknown]
  | @leaveOut before after glyphs name v hname hdefault =>
    rw [hfront] at hmeaning
    have hfield := hdefaults name v hdefault
    -- the field is given once, so the other members do not give it
    have habsent : ∀ member ∈ before ++ after, spelled? member.1 ≠ some name := by
      obtain ⟨last, hfill, -⟩ := Option.bind_eq_some_iff.mp hmeaning
      rw [Fields.fill_cons, Fields.placeMember_of_spelled hname] at hfill
      obtain ⟨next, hplace, hfill⟩ := Option.bind_eq_some_iff.mp hfill
      obtain ⟨-, set, hset, rfl⟩ := (Fields.place_eq_some_iff hfield.1).mp hplace
      exact h.spelled_ne_of_fill hfield.1 (h.isSet_self name hfield.1 hset _) hfill
    rwa [Fields.meaning, h.finish_fill_cons_default hname hfield habsent] at hmeaning
  | @putIn before after glyphs name v hname hdefault habsent =>
    rw [hfront]
    rwa [Fields.meaning, h.finish_fill_cons_default hname (hdefaults name v hdefault) habsent]
  | @within before after glyphs name v v' hname hvalue =>
    rw [hfront] at hmeaning ⊢
    obtain ⟨last, hfill, hfinish⟩ := Option.bind_eq_some_iff.mp hmeaning
    rw [Fields.fill_cons, Fields.placeMember_of_spelled hname] at hfill
    obtain ⟨next, hplace, hfill⟩ := Option.bind_eq_some_iff.mp hfill
    have hplace' := Fields.place_of_slot (hinner name v v' hvalue) hplace
    refine Option.bind_eq_some_iff.mpr ⟨last, ?_, hfinish⟩
    rw [Fields.fill_cons, Fields.placeMember_of_spelled hname]
    exact Option.bind_eq_some_iff.mpr ⟨next, hplace', hfill⟩

/-- An array stays the same if a revision of one element does. -/
theorem mapM_of_revised {meaning : Document → Option α} {v v' : Document}
    (h : ∀ a, meaning v = some a → meaning v' = some a) (before after : List Document)
    {values : List α} (hvalues : (before ++ v :: after).mapM meaning = some values) :
    (before ++ v' :: after).mapM meaning = some values := by
  induction before generalizing values with
  | nil =>
    rw [List.nil_append, mapM_cons_eq_bind] at hvalues ⊢
    obtain ⟨a, hv, hafter⟩ := Option.bind_eq_some_iff.mp hvalues
    exact Option.bind_eq_some_iff.mpr ⟨a, h a hv, hafter⟩
  | cons first before ih =>
    rw [List.cons_append, mapM_cons_eq_bind] at hvalues ⊢
    obtain ⟨a, hfirst, hothers⟩ := Option.bind_eq_some_iff.mp hvalues
    obtain ⟨others, hothers, hcons⟩ := Option.map_eq_some_iff.mp hothers
    exact Option.bind_eq_some_iff.mpr
      ⟨a, hfirst, Option.map_eq_some_iff.mpr ⟨others, ih hothers, hcons⟩⟩

end Agenda.Json

/-
Agenda/Proofs/Toml/Value.lean

The statements of a document with sections add up to what they say.  Such a
document has entries at its top and then, one after another, headers with the
entries of their sections:

    top,  [name₁] entries₁,  [name₂] entries₂,  …

If no key occurs twice where it stands, each statement adds one entry at the end
of a table (`modify_of_new`, `modify_last`), and the entries of the document are
those at its top and one table for each section (`entriesOf_sections`).
-/
import Agenda.Toml.Value
import Mathlib.Data.List.Basic
import Mathlib.Tactic.Common

namespace Agenda.Toml

variable {key name : String} {v : Value} {entries front more found : Entries}
  {f : Option Value → Option Value}

/-- The keys of some entries. -/
def keysOf (entries : Entries) : List String :=
  entries.map Prod.fst

/-! ### Entries at the end -/

/-- A new key is added at the end. -/
theorem modify_of_new (h : key ∉ keysOf entries) (f : Option Value → Option Value) :
    modify key f entries = (f none).map fun v => entries ++ [(key, v)] := by
  induction entries with
  | nil => rfl
  | cons entry entries ih =>
    rw [keysOf, List.map_cons, List.mem_cons, not_or] at h
    obtain ⟨hne, hnew⟩ := h
    rw [modify, if_neg (Ne.symm hne), ih hnew, Option.map_map]
    rfl

/-- The last entry is changed. -/
theorem modify_last (h : key ∉ keysOf front) (f : Option Value → Option Value) (v : Value) :
    modify key f (front ++ [(key, v)]) = (f (some v)).map fun v => front ++ [(key, v)] := by
  induction front with
  | nil => exact if_pos rfl
  | cons entry front ih =>
    rw [keysOf, List.map_cons, List.mem_cons, not_or] at h
    obtain ⟨hne, hnew⟩ := h
    rw [List.cons_append, modify, if_neg (Ne.symm hne), ih hnew, Option.map_map]
    rfl

theorem add_of_new (h : key ∉ keysOf entries) (v : Value) :
    add key v entries = some (entries ++ [(key, v)]) := by
  rw [add, modify_of_new h]
  rfl

/-! ### Statements -/

/-- The statements for some entries. -/
def assignments (entries : Entries) : List Statement :=
  entries.map fun (key, v) => .assign [] key v

/-- The statements of sections, each with its name. -/
def sectionStatements (sections : List (String × Entries)) : List Statement :=
  sections.flatMap fun (name, entries) => .header [] name :: assignments entries

/-- The tables of sections. -/
def sectionTables (sections : List (String × Entries)) : Entries :=
  sections.map fun (name, entries) => (name, .table .header entries)

/-- A place in a document at which entries are added. -/
def GrowsAt (place : Entries → Progress) : Prop :=
  ∀ entries key v, key ∉ keysOf entries →
    (place entries).step (.assign [] key v) = some (place (entries ++ [(key, v)]))

/-- Before all headers entries are added to the document. -/
theorem growsAt_top : GrowsAt fun entries => { entries } := by
  intro entries key v h
  show (add key v entries).map (fun entries : Entries => ({ entries } : Progress)) = _
  rw [add_of_new h]
  rfl

/-- After a header entries are added to its table. -/
theorem growsAt_section (hname : name ∉ keysOf front) :
    GrowsAt fun found =>
      { entries := front ++ [(name, .table .header found)], here := [name] } := by
  intro found key v h
  have hadd : addDotted [] key v found = some (found ++ [(key, v)]) := add_of_new h v
  rw [Progress.step, within, modify_last hname]
  dsimp only
  rw [if_neg (by simp), within, hadd]
  rfl

/-- **Entries with distinct keys add up**, one after another. -/
theorem GrowsAt.foldlM {place : Entries → Progress} (hplace : GrowsAt place)
    (entries more : Entries) (h : (keysOf (entries ++ more)).Nodup) :
    (assignments more).foldlM Progress.step (place entries) = some (place (entries ++ more)) := by
  induction more generalizing entries with
  | nil =>
    rw [List.append_nil]
    rfl
  | cons entry more ih =>
    obtain ⟨key, v⟩ := entry
    -- a key that was there already would be refused
    have hnew : key ∉ keysOf entries := by
      rw [keysOf, List.map_append, List.map_cons] at h
      exact fun hkey => (List.nodup_append.mp h).2.2 key hkey key List.mem_cons_self rfl
    have hrest := ih (entries ++ [(key, v)]) (by simpa using h)
    rw [List.append_assoc] at hrest
    show ((place entries).step (.assign [] key v) >>= _) = _
    rw [hplace entries key v hnew]
    exact hrest

/-! ### Documents -/

/-- A header begins a new table. -/
theorem step_header (h : name ∉ keysOf entries) (here : List String) :
    Progress.step { entries, here } (.header [] name) =
      some { entries := entries ++ [(name, .table .header [])], here := [name] } := by
  rw [Progress.step, within, modify_of_new h]
  rfl

/-- **Sections add up**, one after another. -/
theorem foldlM_sectionStatements {sections : List (String × Entries)}
    (hnames : (keysOf (entries ++ sectionTables sections)).Nodup)
    (hkeys : ∀ part ∈ sections, (keysOf part.2).Nodup) (here : List String) :
    ∃ here', (sectionStatements sections).foldlM Progress.step { entries, here } =
      some { entries := entries ++ sectionTables sections, here := here' } := by
  induction sections generalizing entries here with
  | nil => exact ⟨here, by rw [sectionTables, List.map_nil, List.append_nil]; rfl⟩
  | cons part sections ih =>
    obtain ⟨name, found⟩ := part
    obtain ⟨hfound, hkeys⟩ := List.forall_mem_cons.mp hkeys
    have hnew : name ∉ keysOf entries := by
      rw [keysOf, List.map_append] at hnames
      exact fun hname => (List.nodup_append.mp hnames).2.2 name hname name List.mem_cons_self rfl
    have hsection := (growsAt_section hnew).foldlM [] found hfound
    have hlater : (keysOf (entries ++ [(name, .table .header found)] ++
        sectionTables sections)).Nodup := by
      simpa [sectionTables, keysOf] using hnames
    obtain ⟨here', hrest⟩ := ih hlater hkeys [name]
    refine ⟨here', ?_⟩
    have hstatements : sectionStatements ((name, found) :: sections) =
        .header [] name :: (assignments found ++ sectionStatements sections) := rfl
    rw [hstatements, List.foldlM_cons, step_header hnew]
    show (assignments found ++ sectionStatements sections).foldlM Progress.step _ = _
    rw [List.foldlM_append, hsection]
    rw [List.append_assoc] at hrest
    exact hrest

/-- **A document with sections stands for the entries at its top and the tables of its
sections.** -/
theorem entriesOf_sections {sections : List (String × Entries)}
    (hnames : (keysOf (entries ++ sectionTables sections)).Nodup)
    (hkeys : ∀ part ∈ sections, (keysOf part.2).Nodup) :
    entriesOf (assignments entries ++ sectionStatements sections) =
      some (entries ++ sectionTables sections) := by
  have htop : (keysOf entries).Nodup := by
    rw [keysOf, List.map_append] at hnames
    exact (List.nodup_append.mp hnames).1
  have hentries := growsAt_top.foldlM [] entries htop
  obtain ⟨here, hsections⟩ := foldlM_sectionStatements hnames hkeys []
  rw [entriesOf, List.foldlM_append]
  show (((assignments entries).foldlM Progress.step ({} : Progress) >>= _).map _) = _
  rw [hentries]
  show ((sectionStatements sections).foldlM Progress.step { entries }).map _ = _
  rw [hsections]
  rfl

end Agenda.Toml

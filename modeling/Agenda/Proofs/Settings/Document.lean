/-
Agenda/Proofs/Settings/Document.lean

Settings that are written are read again, whatever texts and numbers they hold:

    ofDocument? settings.document = some settings

(`ofDocument?_document`).  A setting that is missing has no line, and its key is
missing among the entries that are read.
-/
import Agenda.Settings.Document
import Agenda.Proofs.Toml.Reader
import Agenda.Proofs.Toml.Value

namespace Agenda.Settings

open Toml

variable {α : Type} {key : String}

/-! ### The entries of settings -/

/-- The entry of a value, if there is one. -/
def entryOf (key : String) (valueOf : α → Toml.Value) (entry : Option α) : Entries :=
  (entry.map fun a => (key, valueOf a)).toList

/-- The entries before all headers. -/
def topEntries (settings : Settings) : Entries :=
  entryOf "version" Toml.Value.integer (some (.ofNat settings.version.toNat)) ++
    entryOf "default_list" .text settings.defaultList

/-- The sections. -/
def sections (settings : Settings) : List (String × Entries) :=
  [("output", entryOf "color" .truth settings.color),
    ("store", entryOf "path" .text settings.storePath),
    ("ordering", entryOf "step" .integer settings.step ++
      entryOf "min_gap" .integer settings.minGap)]

theorem assignments_entryOf (key : String) (valueOf : α → Toml.Value) (entry : Option α) :
    assignments (entryOf key valueOf entry) =
      (entry.map fun a => Statement.assign [] key (valueOf a)).toList := by
  cases entry <;> rfl

theorem assignments_append (entries more : Entries) :
    assignments (entries ++ more) = assignments entries ++ assignments more :=
  List.map_append

/-! ### Reading -/

/-- A version fits 64 bits. -/
theorem toInt_version (version : UInt32) :
    (Int64.ofNat version.toNat).toInt = version.toNat := by
  have hlt : version.toNat < 2 ^ 32 := version.toNat_lt
  rw [Int64.toInt_ofNat_of_lt (by omega)]

theorem bare_of_all (h : key ≠ "") (hall : key.toList.all isBare = true) : Bare key :=
  ⟨h, List.all_eq_true.mp hall⟩

theorem written_version (version : UInt32) :
    Written (.integer (.ofNat version.toNat)) (Json.integer version.toNat) := by
  rw [← toInt_version]
  exact .integer _

theorem statements?_document (settings : Settings) :
    statements? settings.document.toList =
      some (assignments settings.topEntries ++ sectionStatements settings.sections) := by
  have hbare : ∀ key ∈ ["version", "default_list", "output", "color", "store", "path", "ordering",
      "step", "min_gap"], Bare key := by
    intro key hkey
    refine bare_of_all ?_ ?_
    · rintro rfl
      revert hkey
      decide
    · revert key
      decide +kernel
  -- line by line, in the order in which they are written
  rw [document, String.toList_ofList]
  simp only [List.append_assoc]
  rw [← List.append_nil (entryLine "min_gap" _),
    statements?_entryLine (hbare _ (by simp)) (written_version settings.version),
    statements?_entryLine_map (hbare _ (by simp)) Written.text,
    statements?_headerLine (hbare _ (by simp)),
    statements?_entryLine_map (hbare _ (by simp)) Written.truth,
    statements?_headerLine (hbare _ (by simp)),
    statements?_entryLine_map (hbare _ (by simp)) Written.text,
    statements?_headerLine (hbare _ (by simp)),
    statements?_entryLine_map (hbare _ (by simp)) Written.integer,
    statements?_entryLine_map (hbare _ (by simp)) Written.integer, statements?_nil]
  simp [topEntries, sections, sectionStatements, assignments_append, assignments_entryOf]

/-- What is read are the entries of the settings. -/
theorem read?_document (settings : Settings) :
    Toml.read? settings.document =
      some (settings.topEntries ++ sectionTables settings.sections) := by
  have hnames : (keysOf (settings.topEntries ++ sectionTables settings.sections)).Nodup := by
    simp only [topEntries, sections, sectionTables, entryOf, keysOf]
    cases settings.defaultList <;> simp
  have hkeys : ∀ part ∈ settings.sections, (keysOf part.2).Nodup := by
    have hone : ∀ {α : Type} (key : String) (valueOf : α → Toml.Value) (entry : Option α),
        (keysOf (entryOf key valueOf entry)).Nodup := by
      intro α key valueOf entry
      cases entry <;> simp [keysOf, entryOf]
    simp only [sections, List.forall_mem_cons, List.not_mem_nil]
    refine ⟨hone _ _ _, hone _ _ _, ?_, fun _ hnone => hnone.elim⟩
    cases settings.step <;> cases settings.minGap <;> simp [keysOf, entryOf]
  have hstatements := statements?_document settings
  -- the document starts with a key, and not with a mark of the byte order
  obtain ⟨cs, hstart⟩ : ∃ cs, settings.document.toList = 'v' :: cs := ⟨_, String.toList_ofList⟩
  rw [hstart] at hstatements
  rw [Toml.read?, hstart]
  show (statements? ('v' :: cs)).bind entriesOf = _
  rw [hstatements, Option.bind_some, entriesOf_sections hnames hkeys]

/-! ### The settings among the entries -/

theorem field_entryOf {as : Toml.Value → Option α} {valueOf : α → Toml.Value}
    (h : ∀ a, as (valueOf a) = some a) (key : String) (entry : Option α) :
    field as key (entryOf key valueOf entry) = some entry := by
  cases entry with
  | none => rfl
  | some a => simp [field, entryOf, h]

theorem asVersion_integer (version : UInt32) :
    asVersion (.integer (.ofNat version.toNat)) = some version := by
  have hlt : version.toNat < UInt32.size := version.toNat_lt
  rw [asVersion, asInteger, Option.bind_some, toInt_version, if_pos (by omega), Int.toNat_natCast,
    UInt32.ofNat_toNat]

/-- **The settings are found among their entries.** -/
theorem ofEntries_entries (settings : Settings) :
    ofEntries (settings.topEntries ++ sectionTables settings.sections) = some settings := by
  have hversion : field asVersion "version"
      (settings.topEntries ++ sectionTables settings.sections) = some (some settings.version) := by
    simp [field, topEntries, entryOf, asVersion_integer]
  have hdefault : field asText "default_list"
      (settings.topEntries ++ sectionTables settings.sections) = some settings.defaultList := by
    cases h : settings.defaultList <;>
      simp [field, topEntries, entryOf, sections, sectionTables, h, asText, List.lookup_cons]
  have hsection : ∀ keys name entries, (name, entries) ∈ settings.sections → section? keys name
      (settings.topEntries ++ sectionTables settings.sections) = some entries := by
    intro keys name entries hpart
    simp only [sections, List.mem_cons, List.not_mem_nil, or_false, Prod.mk.injEq] at hpart
    rcases hpart with ⟨rfl, rfl⟩ | ⟨rfl, rfl⟩ | ⟨rfl, rfl⟩ <;>
      cases h : settings.defaultList <;>
        simp [section?, topEntries, entryOf, sections, sectionTables, h, List.lookup_cons]
  have htruth : ∀ b, asTruth (.truth b) = some b := fun _ => rfl
  have htext : ∀ s, asText (.text s) = some s := fun _ => rfl
  have hcolor := field_entryOf htruth "color" settings.color
  have hpath := field_entryOf htext "path" settings.storePath
  have hstep : field asInteger "step" (entryOf "step" .integer settings.step ++
      entryOf "min_gap" .integer settings.minGap) = some settings.step := by
    cases settings.step <;> cases settings.minGap <;>
      simp [field, entryOf, asInteger, List.lookup_cons]
  have hgap : field asInteger "min_gap" (entryOf "step" .integer settings.step ++
      entryOf "min_gap" .integer settings.minGap) = some settings.minGap := by
    cases settings.step <;> cases settings.minGap <;>
      simp [field, entryOf, asInteger, List.lookup_cons]
  have houtput := hsection ["color"] _ _ List.mem_cons_self
  have hstore := hsection ["path"] _ _ (List.mem_cons_of_mem _ List.mem_cons_self)
  have hordering := hsection ["step", "min_gap"] _ _
    (List.mem_cons_of_mem _ (List.mem_cons_of_mem _ List.mem_cons_self))
  rw [ofEntries, hversion, houtput, hstore, hordering, hdefault]
  simp only [Option.bind_eq_bind, Option.bind_some, hcolor, hpath, hstep, hgap, Option.getD_some,
    Option.pure_def]

/-- **Settings that are written are read again.** -/
theorem ofDocument?_document (settings : Settings) :
    ofDocument? settings.document = some settings := by
  rw [ofDocument?, read?_document, Option.bind_some, ofEntries_entries]

end Agenda.Settings

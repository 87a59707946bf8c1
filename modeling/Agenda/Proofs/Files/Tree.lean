/-
Agenda/Proofs/Files/Tree.lean

What is written can be read.  Writing a file, and moving it to another path,
leaves all directories where they are, so a path that led to a place before
leads to it afterwards (`locate_of_keeps`), and a text that was written to one
path and moved to another is read there (`readText_of_rename`), whatever both
paths look like.
-/
import Agenda.Files.Tree

namespace Agenda.Tree

variable {tree tree' : Tree} {location : Location}

/-! ### Directories that stay -/

/-- What is a directory stays one, and the current directory stays the same. -/
structure Keeps (tree tree' : Tree) : Prop where
  /-- The current directory is the same. -/
  here_eq : tree'.here = tree.here
  /-- Directories are still there. -/
  directory : ∀ location, tree.get? location = some .directory →
    tree'.get? location = some .directory

theorem Keeps.trans {tree'' : Tree} (h : Keeps tree tree') (h' : Keeps tree' tree'') :
    Keeps tree tree'' :=
  ⟨h'.here_eq.trans h.here_eq, fun location hd => h'.directory location (h.directory location hd)⟩

theorem hasDirectory_iff :
    tree.hasDirectory location = true ↔ tree.get? location = some .directory := by
  rw [hasDirectory]
  split
  · next h => rw [h]; exact iff_of_true rfl rfl
  · next h => exact iff_of_false Bool.false_ne_true h

theorem ne_root (h : tree.get? location ≠ some .directory) : location ≠ [] := by
  rintro rfl
  exact h tree.get?_root

theorem keeps_put (h : tree.get? location ≠ some .directory) (entry : Entry) :
    Keeps tree (tree.put location entry) := by
  refine ⟨rfl, fun other hother => ?_⟩
  have hne : other ≠ location := by
    rintro rfl
    exact h hother
  rw [get?_put_of_ne tree entry hne, hother]

theorem keeps_erase (h : tree.get? location ≠ some .directory) :
    Keeps tree (tree.erase location) := by
  refine ⟨rfl, fun other hother => ?_⟩
  have hne : other ≠ location := by
    rintro rfl
    exact h hother
  rw [get?_erase_of_ne tree hne, hother]

theorem descend_of_keeps (h : Keeps tree tree') {next : Location} {part : String}
    (hnext : tree.descend location part = .ok next) : tree'.descend location part = .ok next := by
  rw [descend] at hnext ⊢
  split at hnext
  · next hdot => rwa [if_pos hdot]
  split at hnext
  · next hdot hdots => rwa [if_neg hdot, if_pos hdots]
  split at hnext
  · cases hnext
  · next hdot hdots hlong =>
    rw [if_neg hdot, if_neg hdots, if_neg hlong]
    split at hnext
    · cases hnext
    · cases hnext
    · next hdir =>
      rw [h.directory _ hdir]
      exact hnext

theorem foldlM_descend_of_keeps (h : Keeps tree tree') {parts : List String} {last : Location}
    (hlast : parts.foldlM tree.descend location = .ok last) :
    parts.foldlM tree'.descend location = .ok last := by
  induction parts generalizing location with
  | nil => exact hlast
  | cons part parts ih =>
    rw [List.foldlM_cons] at hlast ⊢
    cases hnext : tree.descend location part with
    | error fault => rw [hnext] at hlast; cases hlast
    | ok next =>
      rw [hnext] at hlast
      rw [descend_of_keeps h hnext]
      exact ih hlast

/-- A path without parts leads to where it starts; otherwise all parts but the last one lead to a
directory, and the last one to the target. -/
theorem locate_eq_ok_iff {path : Path} {target : Target} :
    tree.locate path = .ok target ↔
      textFault? path = none ∧
        (path.parts.filter (· != "") = [] ∧ target = .directory (tree.startOf path) ∨
          ∃ before last dir, path.parts.filter (· != "") = before ++ [last] ∧
            before.foldlM tree.descend (tree.startOf path) = .ok dir ∧
            targetAt dir last (path.parts.getLast? == some "") = .ok target) := by
  rw [locate]
  cases textFault? path with
  | some fault => simp
  | none =>
    dsimp only
    rcases List.eq_nil_or_concat (path.parts.filter (· != "")) with hparts | ⟨before, last, hparts⟩
    · rw [hparts]
      constructor
      · exact fun h => ⟨rfl, .inl ⟨rfl, (Except.ok.inj h).symm⟩⟩
      · rintro ⟨-, ⟨-, rfl⟩ | ⟨before, last, dir, hsame, -⟩⟩
        · rfl
        · exact absurd hsame.symm
            (List.append_ne_nil_of_right_ne_nil before (List.cons_ne_nil last []))
    · rw [hparts, List.concat_eq_append, List.getLast?_concat, List.dropLast_concat]
      constructor
      · intro h
        cases hdir : before.foldlM tree.descend (tree.startOf path) with
        | error fault => rw [hdir] at h; cases h
        | ok dir => rw [hdir] at h; exact ⟨rfl, .inr ⟨before, last, dir, rfl, hdir, h⟩⟩
      · rintro ⟨-, ⟨hnil, -⟩ | ⟨before', last', dir, hsame, hdir, h⟩⟩
        · exact absurd hnil (List.append_ne_nil_of_right_ne_nil before (List.cons_ne_nil last []))
        · obtain ⟨rfl, hlast⟩ := List.append_inj' hsame rfl
          obtain rfl := (List.cons.inj hlast).1
          rw [hdir]
          exact h

theorem startOf_of_keeps (h : Keeps tree tree') (path : Path) :
    tree'.startOf path = tree.startOf path := by
  rw [startOf, startOf, h.here_eq]

/-- **A path still leads to the same place.** -/
theorem locate_of_keeps (h : Keeps tree tree') {path : Path} {target : Target}
    (htarget : tree.locate path = .ok target) : tree'.locate path = .ok target := by
  rw [locate_eq_ok_iff] at htarget ⊢
  rw [startOf_of_keeps h]
  refine htarget.imp_right (Or.imp_right ?_)
  rintro ⟨before, last, dir, hparts, hdir, hlast⟩
  exact ⟨before, last, dir, hparts, foldlM_descend_of_keeps h hdir, hlast⟩

/-! ### Calls that succeed -/

/-- The bytes of a text are read as that text. -/
theorem fromUTF8?_toUTF8 (text : String) : String.fromUTF8? text.toUTF8 = some text := by
  rw [String.fromUTF8?, String.toUTF8_eq_toByteArray, dif_pos text.isValidUTF8]
  rfl

theorem readText_of_locate {path : Path} {text : String}
    (hpath : tree.locate path = .ok (.entry location false))
    (hfile : tree.get? location = some (.file text.toUTF8)) : tree.readText path = .ok text := by
  simp only [readText, hpath, hfile]
  rw [if_neg Bool.false_ne_true, fromUTF8?_toUTF8]

/-- Where a text can be read, there is something. -/
theorem isThere_of_readText {path : Path} {text : String} (h : tree.readText path = .ok text) :
    tree.isThere path = true := by
  rw [readText] at h
  rw [isThere]
  split at h
  · cases h
  · cases h
  · next location asDirectory hpath =>
    split at h
    · cases h
    · cases h
    · next content hfile =>
      split at h
      · cases h
      · next hplain => simpa using hplain

theorem writeText_cases {path : Path} {text : String} (h : tree.writeText path text = .ok tree') :
    ∃ location, tree.locate path = .ok (.entry location false) ∧
      tree.get? location ≠ some .directory ∧ tree' = tree.put location (.file text.toUTF8) := by
  rw [writeText] at h
  split at h
  · cases h
  · cases h
  · next location asDirectory hpath =>
    split at h
    · cases h
    · next hfile =>
      rw [Bool.or_eq_true, not_or, hasDirectory_iff, Bool.not_eq_true] at hfile
      obtain ⟨rfl, hfile⟩ := hfile
      exact ⟨location, hpath, hfile, (Except.ok.inj h).symm⟩

/-- **A text that was written is read at the same path.** -/
theorem readText_of_writeText {path : Path} {text : String}
    (h : tree.writeText path text = .ok tree') : tree'.readText path = .ok text := by
  obtain ⟨location, hpath, hfile, rfl⟩ := writeText_cases h
  exact readText_of_locate (locate_of_keeps (keeps_put hfile _) hpath)
    (get?_put_self _ _ (ne_root hfile))

theorem rename_cases {source target : Path} (h : tree.rename source target = .ok tree') :
    ∃ old new content, tree.locate source = .ok (.entry old false) ∧
      tree.locate target = .ok (.entry new false) ∧
      tree.get? old = some (.file content) ∧ tree.get? new ≠ some .directory ∧
      tree' = (tree.erase old).put new (.file content) := by
  rw [rename] at h
  split at h
  · cases h
  · cases h
  · next old oldAsDirectory new newAsDirectory hold hnew =>
    split at h
    · cases h
    · cases h
    · next content hfile =>
      split at h
      · cases h
      · next hplain =>
        split at h
        · cases h
        · next hdir =>
          rw [Bool.or_eq_true, not_or, Bool.not_eq_true, Bool.not_eq_true] at hplain
          obtain ⟨rfl, rfl⟩ := hplain
          rw [hasDirectory_iff] at hdir
          exact ⟨old, new, content, hold, hnew, hfile, hdir, (Except.ok.inj h).symm⟩
  · cases h

theorem keeps_rename {source target : Path} (h : tree.rename source target = .ok tree') :
    Keeps tree tree' := by
  obtain ⟨old, new, content, -, -, hcontent, hdir, rfl⟩ := rename_cases h
  have hmoved : tree.get? old ≠ some .directory := by
    rw [hcontent]
    nofun
  have hfree : (tree.erase old).get? new ≠ some .directory := by
    by_cases hsame : new = old
    · rw [hsame, get?_erase_self _ (ne_root hmoved)]
      nofun
    · rwa [get?_erase_of_ne _ hsame]
  exact (keeps_erase hmoved).trans (keeps_put hfree (.file content))

/-- **A text that was written and moved is read where it was moved to.** -/
theorem readText_of_rename {source target : Path} {text : String} {tree'' : Tree}
    (hwrite : tree.writeText source text = .ok tree')
    (hrename : tree'.rename source target = .ok tree'') : tree''.readText target = .ok text := by
  have hkeeps := keeps_rename hrename
  obtain ⟨written, hsource, hfile, rfl⟩ := writeText_cases hwrite
  obtain ⟨old, new, content, hold, hnew, hcontent, hdir, rfl⟩ := rename_cases hrename
  -- the source still leads to the file that was written
  rw [locate_of_keeps (keeps_put hfile _) hsource] at hold
  obtain rfl : written = old := by
    injection hold with hold
    injection hold
  rw [get?_put_self tree _ (ne_root hfile)] at hcontent
  obtain rfl : text.toUTF8 = content := by
    injection hcontent with hcontent
    injection hcontent
  exact readText_of_locate (locate_of_keeps hkeeps hnew)
    (get?_put_self _ _ (ne_root hdir))

end Agenda.Tree

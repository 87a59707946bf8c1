/-
Agenda/Proofs/Files/Frame.lean

What a path leads to, and what the calls on a tree leave alone.

    tree.at? path    the file or directory that the path leads to, if there is one

Writing changes what is at the place of its path and nothing else (`AgreeBut`).
Creating directories changes no file (`SameFiles`).  Moving a file changes two:
the one that is moved goes, and the other has its content (`rename_effect`).
After all of these calls a path still leads where it led, so that the path
leads to the same file or directory if nothing was done to its place
(`at?_of_keeps`).
-/
import Agenda.Proofs.Files.Place

namespace Agenda.Tree

variable {tree tree' tree'' : Tree} {location other : Location} {path : Path}

/-! ### What a path leads to -/

/-- The file or directory that a path leads to, if there is one.  A path that asks for a directory
leads to no file. -/
def at? (tree : Tree) (path : Path) : Option Entry :=
  match tree.locate path with
  | .error _ => none
  | .ok target =>
    if target.isDirectory && !tree.hasDirectory target.location then none
    else tree.get? target.location

theorem at?_of_locate {target : Target} (h : tree.locate path = .ok target) :
    tree.at? path =
      if target.isDirectory && !tree.hasDirectory target.location then none
      else tree.get? target.location := by
  rw [at?, h]

theorem at?_of_fault {fault : FileFault} (h : tree.locate path = .error fault) :
    tree.at? path = none := by
  rw [at?, h]

theorem at?_eq_some_iff {entry : Entry} :
    tree.at? path = some entry ↔
      ∃ target, tree.locate path = .ok target ∧ tree.get? target.location = some entry ∧
        (target.isDirectory = true → entry = .directory) := by
  constructor
  · intro h
    cases hpath : tree.locate path with
    | error fault => rw [at?_of_fault hpath] at h; cases h
    | ok target =>
      rw [at?_of_locate hpath] at h
      split at h
      · cases h
      · next hfound =>
        refine ⟨target, rfl, h, fun hasked => ?_⟩
        rw [hasked, Bool.true_and, Bool.not_eq_true', Bool.not_eq_false, hasDirectory_iff, h]
          at hfound
        exact Option.some.inj hfound
  · rintro ⟨target, hpath, hentry, hasked⟩
    rw [at?_of_locate hpath, if_neg, hentry]
    rw [Bool.and_eq_true, not_and]
    intro h
    obtain rfl := hasked h
    rw [hasDirectory_iff.mpr hentry]
    exact Bool.false_ne_true

/-- A path that still leads where it led, to a place where nothing has changed, leads to the same
file or directory. -/
theorem at?_of_keeps (h : Keeps tree tree') {target : Target}
    (hpath : tree.locate path = .ok target)
    (hplace : tree'.get? (tree.place path) = tree.get? (tree.place path)) :
    tree'.at? path = tree.at? path := by
  rw [← place_of_locate hpath] at hplace
  rw [at?_of_locate hpath, at?_of_locate (locate_of_keeps h hpath), hasDirectory, hasDirectory,
    hplace]

/-- What is read at a path is the file that it leads to. -/
theorem readText_eq_ok_iff {text : String} :
    tree.readText path = .ok text ↔
      ∃ content, tree.at? path = some (.file content) ∧
        String.fromUTF8? content = some text := by
  constructor
  · intro h
    rw [readText] at h
    split at h
    · cases h
    · cases h
    next location asDirectory hpath =>
    split at h
    · cases h
    · cases h
    next content hfile =>
    split at h
    · cases h
    next hplain =>
    split at h
    · next found htext =>
      obtain rfl := Except.ok.inj h
      exact ⟨content, at?_eq_some_iff.mpr ⟨_, hpath, hfile, fun hasked => absurd hasked hplain⟩,
        htext⟩
    · cases h
  · rintro ⟨content, hfound, htext⟩
    obtain ⟨target, hpath, hfile, hasked⟩ := at?_eq_some_iff.mp hfound
    cases target with
    | directory location => cases hasked rfl
    | entry location asDirectory =>
      cases asDirectory with
      | true => cases hasked rfl
      | false =>
        dsimp only [Target.location] at hfile
        simp only [readText, hpath, hfile]
        rw [if_neg Bool.false_ne_true, htext]

/-! ### Files -/

/-- The content of the file at a location, if there is one. -/
def file? (tree : Tree) (location : Location) : Option ByteArray :=
  match tree.get? location with
  | some (.file content) => some content
  | some .directory | none => none

theorem file?_eq_of_get?_eq (h : tree'.get? other = tree.get? other) :
    tree'.file? other = tree.file? other := by
  rw [file?, file?, h]

theorem file?_of_get? {content : ByteArray} (h : tree.get? location = some (.file content)) :
    tree.file? location = some content := by
  rw [file?, h]

/-- From one tree to another directories have stayed, and no file has changed, come or gone. -/
structure SameFiles (tree tree' : Tree) : Prop where
  /-- Directories have stayed. -/
  keeps : Keeps tree tree'
  /-- Files are the same. -/
  file?_eq : ∀ location, tree'.file? location = tree.file? location

theorem SameFiles.refl (tree : Tree) : SameFiles tree tree :=
  ⟨⟨rfl, fun _ h => h⟩, fun _ => rfl⟩

theorem SameFiles.trans (h : SameFiles tree tree') (h' : SameFiles tree' tree'') :
    SameFiles tree tree'' :=
  ⟨h.keeps.trans h'.keeps, fun location =>
    (h'.file?_eq location).trans (h.file?_eq location)⟩

/-- A directory that was missing takes the place of no file. -/
theorem sameFiles_put_directory (h : tree.get? location = none) :
    SameFiles tree (tree.put location .directory) := by
  have hfree : tree.get? location ≠ some .directory := by
    rw [h]
    nofun
  refine ⟨keeps_put hfree _, fun other => ?_⟩
  by_cases hsame : other = location
  · rw [hsame, file?, file?, h, get?_put_self tree _ (ne_root hfree)]
  · exact file?_eq_of_get?_eq (get?_put_of_ne tree _ hsame)

theorem sameFiles_createBelow (start : Location) (parts : List String) (tree : Tree) :
    SameFiles tree (tree.createBelow start parts).2 := by
  induction parts generalizing start tree with
  | nil => exact .refl tree
  | cons part parts ih =>
    rw [createBelow]
    split
    · exact ih start tree
    split
    · exact ih start.dropLast tree
    split
    · exact .refl tree
    dsimp only
    split
    · next hnone => exact (sameFiles_put_directory hnone).trans (ih _ _)
    · exact ih _ tree
    · exact .refl tree

/-- **Creating directories changes no file.** -/
theorem sameFiles_createDirectories (tree : Tree) (path : Path) :
    SameFiles tree (tree.createDirectories path).2 := by
  rw [createDirectories]
  split
  · exact .refl tree
  split
  · exact .refl tree
  · exact sameFiles_createBelow _ _ tree

/-! ### Changes at one location -/

/-- From one tree to another directories have stayed, and nothing has changed but what is at the
location. -/
structure AgreeBut (location : Location) (tree tree' : Tree) : Prop where
  /-- Directories have stayed. -/
  keeps : Keeps tree tree'
  /-- At all other locations is what was there. -/
  get?_eq : ∀ other, other ≠ location → tree'.get? other = tree.get? other

theorem AgreeBut.refl (location : Location) (tree : Tree) : AgreeBut location tree tree :=
  ⟨⟨rfl, fun _ h => h⟩, fun _ _ => rfl⟩

theorem agreeBut_put (h : tree.get? location ≠ some .directory) (entry : Entry) :
    AgreeBut location tree (tree.put location entry) :=
  ⟨keeps_put h entry, fun _ hne => get?_put_of_ne tree entry hne⟩

theorem agreeBut_erase (h : tree.get? location ≠ some .directory) :
    AgreeBut location tree (tree.erase location) :=
  ⟨keeps_erase h, fun _ hne => get?_erase_of_ne tree hne⟩

/-- **Writing changes what is at the place of its path.** -/
theorem agreeBut_writeText {text : String} (h : tree.writeText path text = .ok tree') :
    AgreeBut (tree.place path) tree tree' ∧
      tree'.get? (tree.place path) = some (.file text.toUTF8) := by
  obtain ⟨written, hpath, hfree, rfl⟩ := writeText_cases h
  obtain rfl : written = tree.place path := place_of_locate hpath
  exact ⟨agreeBut_put hfree _, get?_put_self tree _ (ne_root hfree)⟩

/-- **Moving a file** takes it away from the place of the first path, and the second path leads to
its content; nothing else changes. -/
theorem rename_effect {source target : Path} (hne : tree.place source ≠ tree.place target)
    (h : tree.rename source target = .ok tree') :
    tree'.get? (tree.place source) = none ∧ tree'.at? target = tree.get? (tree.place source) ∧
      ∀ other, other ≠ tree.place source → other ≠ tree.place target →
        tree'.get? other = tree.get? other := by
  have hkeeps := keeps_rename h
  obtain ⟨old, new, content, hold, hnew, hfile, hfree, rfl⟩ := rename_cases h
  obtain rfl : old = tree.place source := place_of_locate hold
  obtain rfl : new = tree.place target := place_of_locate hnew
  have hsource : tree.place source ≠ [] := ne_root (by rw [hfile]; nofun)
  refine ⟨?_, ?_, fun other hother hother' => ?_⟩
  · rw [get?_put_of_ne _ _ hne, get?_erase_self tree hsource]
  · rw [at?_of_locate (locate_of_keeps hkeeps hnew), hfile]
    exact get?_put_self _ _ (ne_root hfree)
  · rw [get?_put_of_ne _ _ hother', get?_erase_of_ne tree hother]

end Agenda.Tree

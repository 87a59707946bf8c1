/-
Agenda/Proofs/Store/Saving.lean

Saving a store is all or nothing.  On a system whose calls may fail, whichever
of them do and whatever they leave behind, either the document of the store is
at its path and nothing is left of the temporary file (`Saved`), or what was
there before is untouched (`Untouched`); in both cases no other file is changed.

Four calls are made, and three of them cannot harm the store:

    creating directories     changes no file
    asking for the time      changes nothing
    writing                  changes the temporary file, which is another one
    moving                   succeeds or changes nothing

The temporary file is another one because its extension, `json.tmp`, has a dot
in it: no name is left as it is when its last extension is replaced by that one
(`sibling_temporary`).

The directories that were created stay, however, when a later call fails.  A
path that goes up from a directory that was missing led nowhere, and leads to
its place from then on: what was at that place is untouched, but the path finds
it (`failed_save_finds`).
-/
import Agenda.Proofs.Host.Unsteady
import Agenda.Proofs.Store.File

namespace Agenda.StoreFile

open Machine

variable {path : Path} {name text : String} {before made written after : Tree}

/-! ### What saving comes to -/

/-- The text has taken the place of the store at the path. -/
structure Saved (path : Path) (text : String) (before after : Tree) : Prop where
  /-- The path leads to a file with the text. -/
  content : after.at? path = some (.file text.toUTF8)
  /-- There is nothing at the place of the temporary file. -/
  gone : after.get? (before.place (temporary path)) = none
  /-- All other files are the same. -/
  others : ∀ location, location ≠ before.place path → location ≠ before.place (temporary path) →
    after.file? location = before.file? location
  /-- The temporary file could be named. -/
  named : ¬ path.IsBare

/-- The store at the path is what it was. -/
structure Untouched (path : Path) (before after : Tree) : Prop where
  /-- All files but the temporary one are the same. -/
  others : ∀ location, location ≠ before.place (temporary path) →
    after.file? location = before.file? location
  /-- If the path led anywhere, to a file or to where none was, that is the same. -/
  same : ∀ target, before.locate path = .ok target → after.at? path = before.at? path
  /-- If the path never goes up, what it leads to is the same, and so is that it leads nowhere. -/
  plain : before.Grounded → ".." ∉ path.parts → after.at? path = before.at? path
  /-- If the path leads to a file, that was at its place before. -/
  found : ∀ content, after.at? path = some (.file content) →
    before.file? (before.place path) = some content

/-- Of what was saved the text is read. -/
theorem Saved.readText_eq (h : Saved path text before after) : after.readText path = .ok text :=
  Tree.readText_eq_ok_iff.mpr ⟨_, h.content, Tree.fromUTF8?_toUTF8 text⟩

/-- Where nothing was touched, the text is read that was read before. -/
theorem Untouched.readText_iff (h : Untouched path before after) {target : Target}
    (hpath : before.locate path = .ok target) :
    after.readText path = .ok text ↔ before.readText path = .ok text := by
  rw [Tree.readText_eq_ok_iff, Tree.readText_eq_ok_iff, h.same target hpath]

/-- The temporary file is a sibling of the store. -/
theorem sibling_temporary (hname : path.fileName? = some name) :
    path.Sibling (temporary path) :=
  Path.sibling_withExtension (by decide) ⟨'j', by decide, by decide⟩ hname

/-- The store is untouched if directories on its way were made and the temporary file was
changed. -/
theorem Untouched.of_agreeBut (hsibling : path.Sibling (temporary path))
    (hmade : Tree.WayMade path before made)
    (hagree : Tree.AgreeBut (before.place (temporary path)) made after) :
    Untouched path before after := by
  have hkeeps := hmade.sameFiles.keeps.trans hagree.keeps
  have hplace : after.get? (before.place path) = made.get? (before.place path) :=
    hagree.get?_eq _ (hsibling.place_ne before).symm
  have hothers : ∀ location, location ≠ before.place (temporary path) →
      after.file? location = before.file? location := fun location hne =>
    (Tree.file?_eq_of_get?_eq (hagree.get?_eq location hne)).trans
      (hmade.sameFiles.file?_eq location)
  have hsame : ∀ target, before.locate path = .ok target → after.at? path = before.at? path :=
    fun target hpath =>
      Tree.at?_of_keeps hkeeps hpath (hplace.trans (hmade.get?_place (.inl ⟨target, hpath⟩)))
  refine ⟨hothers, hsame, fun hgrounded hdots => ?_, fun content hcontent => ?_⟩
  · cases hpath : before.locate path with
    | ok target => exact hsame target hpath
    | error fault =>
      -- a path that never goes up and leads nowhere is not found afterwards either
      rw [Tree.at?_of_fault hpath]
      cases hentry : after.at? path with
      | none => rfl
      | some entry =>
        obtain ⟨found, hfound, hthere, -⟩ := Tree.at?_eq_some_iff.mp hentry
        rw [Tree.place_of_locate hfound, Tree.place_of_keeps hkeeps, hplace,
          hmade.get?_place (.inr hdots), ← Tree.place_of_keeps hkeeps] at hthere
        obtain ⟨target, htarget⟩ :=
          Tree.locate_of_grounded hgrounded hkeeps.here_eq hdots hentry hthere
        rw [hpath] at htarget
        cases htarget
  · obtain ⟨target, hpath, hfile, -⟩ := Tree.at?_eq_some_iff.mp hcontent
    rw [Tree.place_of_locate hpath, Tree.place_of_keeps hkeeps] at hfile
    rw [← hothers _ (hsibling.place_ne before).symm, Tree.file?_of_get? hfile]

/-- The text is saved if directories on the way of the store were made before it was written to the
temporary file and moved. -/
theorem Saved.of_rename (hsibling : path.Sibling (temporary path))
    (hmade : Tree.WayMade path before made)
    (hwrite : made.writeText (temporary path) text = .ok written)
    (hrename : written.rename (temporary path) path = .ok after) :
    Saved path text before after := by
  have hplace : ∀ path, made.place path = before.place path :=
    Tree.place_of_keeps hmade.sameFiles.keeps
  obtain ⟨hagree, hcontent⟩ := Tree.agreeBut_writeText hwrite
  have hplace' : ∀ path, written.place path = before.place path := fun path =>
    (Tree.place_of_keeps hagree.keeps path).trans (hplace path)
  obtain ⟨hgone, hmoved, hothers⟩ := Tree.rename_effect (hsibling.place_ne written) hrename
  rw [hplace] at hagree hcontent
  rw [hplace'] at hgone hmoved
  refine ⟨hmoved.trans hcontent, hgone, fun location hpath htemporary => ?_, fun hbare => ?_⟩
  · have hrenamed := hothers location (by rwa [hplace']) (by rwa [hplace'])
    exact (Tree.file?_eq_of_get?_eq (hrenamed.trans (hagree.get?_eq location htemporary))).trans
      (hmade.sameFiles.file?_eq location)
  · obtain ⟨location, hentry, -⟩ := Tree.writeText_cases hwrite
    exact Tree.locate_ne_entry_of_dots (hsibling.dots hbare) false hentry

/-- What saving a store comes to, for the result, the caller's store and the system: it is saved
with the time of the clock, or what was there is untouched; then the caller's store bears the time
unless there was no directory to save it in. -/
inductive Outcome (path : Path) (store : Store) (machine : Machine) :
    Except StoreFileError Unit → Store → Machine → Prop
  | saved {machine' : Machine} :
      Saved path (store.stamped machine.clock).document machine.tree machine'.tree →
      Outcome path store machine (.ok ()) (store.stamped machine.clock) machine'
  | unwritten (file : Path) (fault : FileFault) {machine' : Machine} :
      Untouched path machine.tree machine'.tree →
      Outcome path store machine (.error (.write file fault)) (store.stamped machine.clock) machine'
  | unprepared (dir : Path) (fault : FileFault) {machine' : Machine} :
      Untouched path machine.tree machine'.tree →
      Outcome path store machine (.error (.createDirectory dir fault)) store machine'

/-! ### The calls -/

/-- Making the directory of a store makes some of the way to it. -/
inductive Makes (path : Path) (machine : Machine) : Except StoreFileError Unit → Machine → Prop
  | made {tree : Tree} : Tree.WayMade path machine.tree tree →
      Makes path machine (.ok ()) { machine with tree }
  | failed (dir : Path) (fault : FileFault) {tree : Tree} : Tree.WayMade path machine.tree tree →
      Makes path machine (.error (.createDirectory dir fault)) { machine with tree }

theorem makes_makeDirectory (hname : path.fileName? = some name) (system : Unsteady) :
    ∃ result system',
      (makeDirectory (m := StateM Unsteady) path).run system = (result, system') ∧
        Makes path system.machine result system'.machine := by
  rw [makeDirectory]
  split
  · next dir hdir =>
    have hparent : path.parent? = some dir := (Option.filter_eq_some_iff.mp hdir).1
    obtain ⟨result, made, hcall, hcreates⟩ := Unsteady.run_createDirectories dir system
    generalize hmachine : made.machine = machine at hcreates
    obtain ⟨n⟩ := hcreates
    have hway := Tree.wayMade_createDirectories hname hparent n system.machine.tree
    cases result with
    | ok _ => exact ⟨_, made, run_attempt_of_ok hcall _, hmachine ▸ .made hway⟩
    | error fault =>
      exact ⟨_, made, run_attempt_of_error hcall _, hmachine ▸ .failed dir fault hway⟩
  · exact ⟨_, system, rfl, .made (.refl path system.machine.tree)⟩

/-- Writing and moving, once directories on the way of the store were made. -/
theorem run_replace_unsteady (hsibling : path.Sibling (temporary path)) (store : Store)
    {system : Unsteady} (hmade : Tree.WayMade path before system.machine.tree) :
    ∃ result system',
      (replace (m := StateM Unsteady) path store).run system = (result, system') ∧
        (result = .ok () ∧ Saved path store.document before system'.machine.tree ∨
          (∃ file fault, result = .error (.write file fault)) ∧
            Untouched path before system'.machine.tree) := by
  have hplace := Tree.place_of_keeps hmade.sameFiles.keeps (temporary path)
  obtain ⟨result, written, hcall, hwrites⟩ :=
    Unsteady.run_writeText (temporary path) store.document system
  generalize hmachine : written.machine = machine at hwrites
  rw [replace]
  cases hwrites with
  | failed fault hagree =>
    rw [hplace] at hagree
    refine ⟨_, written, run_bind_of_error (run_attempt_of_error hcall _) _, .inr ⟨⟨_, _, rfl⟩, ?_⟩⟩
    rw [hmachine]
    exact .of_agreeBut hsibling hmade hagree
  | @written tree hwrite =>
    rw [run_bind_of_ok (run_attempt_of_ok hcall _)]
    obtain ⟨result, moved, hcall, hmoves⟩ := Unsteady.run_rename (temporary path) path written
    generalize hmachine' : moved.machine = machine' at hmoves
    cases hmoves with
    | failed fault =>
      refine ⟨_, moved, run_bind_of_error (run_attempt_of_error hcall _) _, .inr ⟨⟨_, _, rfl⟩, ?_⟩⟩
      rw [hmachine', hmachine]
      exact .of_agreeBut hsibling hmade (hplace ▸ (Tree.agreeBut_writeText hwrite).1)
    | moved hrename =>
      rw [hmachine] at hrename
      rw [run_bind_of_ok (run_attempt_of_ok hcall _)]
      refine ⟨_, _, rfl, .inl ⟨rfl, ?_⟩⟩
      -- the note in the log does not touch the files
      show Saved path _ before moved.machine.tree
      rw [hmachine']
      exact .of_rename hsibling hmade hwrite hrename

/-- **Saving is all or nothing.**  The temporary file is a sibling of the store.  Whichever calls
fail and whatever they leave behind, saving either succeeds, and the document of the store, with the
time of the clock, has taken the place of what was there before, or it returns an error, and what
was there before is untouched.  No other file is changed. -/
theorem save_all_or_nothing (hname : path.fileName? = some name) (store : Store)
    (system : Unsteady) :
    path.Sibling (temporary path) ∧
      ∃ result held system',
        (saveHeld path store : StateM Unsteady _) system = ((result, held), system') ∧
        (save (m := StateM Unsteady) path store).run system =
          (result.map fun _ => held, system') ∧
        Outcome path store system.machine result held system'.machine := by
  have hsibling := sibling_temporary hname
  refine ⟨hsibling, ?_⟩
  obtain ⟨result, made, hmake, hmakes⟩ := makes_makeDirectory hname system
  generalize hmachine : made.machine = machine at hmakes
  cases hmakes with
  | failed dir fault hway =>
    have hheld := saveHeld_of_error hmake store
    refine ⟨_, _, made, hheld, run_save_of_held hheld, .unprepared dir fault ?_⟩
    rw [hmachine]
    exact .of_agreeBut hsibling hway (.refl _ _)
  | @made tree hway =>
    have hnow : (Host.now : StateM Unsteady _) made = (system.machine.clock, made) := by
      show (made.machine.clock, made) = _
      rw [hmachine]
    have htree : made.machine.tree = tree := by rw [hmachine]
    obtain ⟨result, saved, hreplace, houtcome⟩ :=
      run_replace_unsteady hsibling (store.stamped system.machine.clock) (htree ▸ hway)
    have hheld := saveHeld_of_ok hmake hnow hreplace
    refine ⟨result, _, saved, hheld, run_save_of_held hheld, ?_⟩
    obtain ⟨rfl, hsaved⟩ | ⟨⟨file, fault, rfl⟩, huntouched⟩ := houtcome
    · exact .saved hsaved
    · exact .unwritten file fault huntouched

/-- A store whose name ends like that of a temporary file, and a disk that is full once the first
character of the document is written. -/
theorem save_all_or_nothing_full_disk :
    let path := Path.ofString "notes/.todos.json.tmp"
    let store := Store.initial
    let tree : Tree := {
      entries := [(["notes"], .directory),
        (["notes", ".todos.json.tmp"], .file store.document.toUTF8)] }
    let machine : Machine := { tree, clock := Timestamp.epoch, ids := fun _ => "" }
    let steady : Unsteady := { machine, trouble? := fun _ => none }
    let full : Unsteady := {
      machine
      trouble? := fun calls => if calls = 1 then
        some { fault := .other "No space left on device (os error 28)", made := 0,
               residue := fun _ => some "[".toUTF8 } else none }
    path.fileName? = some ".todos.json.tmp" ∧
      (∃ system', (save (m := StateM Unsteady) path store).run steady =
          (.ok (store.stamped Timestamp.epoch), system') ∧
        Saved path (store.stamped Timestamp.epoch).document tree system'.machine.tree) ∧
      ∃ e system', (save (m := StateM Unsteady) path store).run full = (.error e, system') ∧
        Untouched path tree system'.machine.tree := by
  intro path store tree machine steady full
  have hname : path.fileName? = some ".todos.json.tmp" := by decide +kernel
  have hsteady : ((save (m := StateM Unsteady) path store).run steady).1.isOk = true := by
    decide +kernel
  have hfull : ((save (m := StateM Unsteady) path store).run full).1.isOk = false := by
    decide +kernel
  obtain ⟨-, result, held, system', -, hrun, houtcome⟩ := save_all_or_nothing hname store steady
  obtain ⟨-, result', held', system'', -, hrun', houtcome'⟩ := save_all_or_nothing hname store full
  rw [hrun] at hsteady
  rw [hrun'] at hfull
  refine ⟨hname, ?_, ?_⟩
  · cases houtcome with
    | saved h => exact ⟨system', hrun, h⟩
    | unwritten file fault h => cases hsteady
    | unprepared dir fault h => cases hsteady
  · cases houtcome' with
    | saved h => cases hfull
    | unwritten file fault h => exact ⟨_, system'', hrun', h⟩
    | unprepared dir fault h => exact ⟨_, system'', hrun', h⟩

/-- There is no directory `a`, so that `a/../store.json` leads nowhere, and a directory is where the
temporary file should be.  Saving creates `a` and fails, and then the path leads to `store.json`.
Of `a/..json` the temporary file would be `a/..`, which is not in the same directory. -/
theorem failed_save_finds :
    let path := Path.ofString "a/../store.json"
    let bare := Path.ofString "a/..json"
    let tree : Tree := {
      entries := [(["store.json"], .file "old".toUTF8), (["store.json.tmp"], .directory)] }
    let machine : Machine := { tree, clock := Timestamp.epoch, ids := fun _ => "" }
    let steady : Unsteady := { machine, trouble? := fun _ => none }
    path.fileName? = some "store.json" ∧ bare.fileName? = some "..json" ∧
      (∃ e system', (save (m := StateM Unsteady) path Store.initial).run steady =
          (.error e, system') ∧
        tree.at? path = none ∧ system'.machine.tree.at? path = some (.file "old".toUTF8)) ∧
      (tree.place (temporary bare)).dropLast ≠ (tree.place bare).dropLast := by
  intro path bare tree machine steady
  have hpath : path = { isAbsolute := false, parts := ["a", "..", "store.json"] } := by
    decide +kernel
  have hfailed : ((save (m := StateM Unsteady) path Store.initial).run steady).1.isOk = false := by
    decide +kernel
  have hfound : ((save (m := StateM Unsteady) path Store.initial).run
      steady).2.machine.tree.at? path = some (.file "old".toUTF8) := by
    rw [hpath]
    rfl
  have hnowhere : tree.at? path = none := by
    rw [hpath]
    rfl
  refine ⟨by decide +kernel, by decide +kernel, ?_, by decide +kernel⟩
  cases hrun : (save (m := StateM Unsteady) path Store.initial).run steady with
  | mk result system' =>
    rw [hrun] at hfailed hfound
    cases result with
    | ok store => cases hfailed
    | error e => exact ⟨e, system', rfl, hnowhere, hfound⟩

end Agenda.StoreFile

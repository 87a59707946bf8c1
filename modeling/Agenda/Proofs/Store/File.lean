/-
Agenda/Proofs/Store/File.lean

The file of a store, on a system in memory.  Which store is found at a path
depends on the files alone (`run_loadOrInitial`).  Saving a store either fails
at a call that writes, or the store is found at the path afterwards, with the
time of the clock (`run_save`, `found_of_document`).
-/
import Agenda.Proofs.Files.Tree
import Agenda.Proofs.Host.Memory
import Agenda.Proofs.Store.Document

namespace Agenda

/-- A call that writes has failed. -/
def StoreFileError.isWriting : StoreFileError → Bool
  | .write .. | .createDirectory .. => true
  | .noDataDirectory | .read .. | .remove .. | .document _ => false

namespace StoreFile

open Machine

/-! ### Loading -/

/-- The store that is found at a path in a tree of files. -/
def found (tree : Tree) (path : Path) : Except StoreFileError Store :=
  ((loadOrInitial (m := StateM Machine) path).run (holding tree)).1

theorem reads_parse (path : Path) (text : String) :
    Reads (parse (m := StateM Machine) path text).run := by
  rw [parse]
  refine ((reads_pure _).run_attempt _).run_bind fun store => ?_
  dsimp only
  split
  · exact (reads_log _).run_lift.run_bind fun _ => reads_run_pure _
  · exact reads_run_pure _

theorem reads_loadOrInitial (path : Path) :
    Reads (loadOrInitial (m := StateM Machine) path).run := by
  have hload : Reads (load (m := StateM Machine) path).run :=
    ((reads_readText path).run_attempt _).run_bind (reads_parse path)
  refine hload.bind fun result => ?_
  split
  · exact (reads_log _).bind fun _ => reads_pure _
  · exact reads_pure _

theorem run_loadOrInitial (path : Path) (machine : Machine) :
    ∃ log, (loadOrInitial (m := StateM Machine) path).run machine =
      (found machine.tree path, { machine with log }) :=
  (reads_loadOrInitial path).eq_holding machine

/-- The store that a text stands for. -/
def ofText (text : String) : Except StoreFileError Store :=
  ((Store.ofDocument text).mapError .document).map Store.withInbox

theorem run_parse (path : Path) (text : String) (machine : Machine) :
    ∃ log, (parse (m := StateM Machine) path text).run machine =
      (ofText text, { machine with log }) := by
  cases hdocument : Store.ofDocument text with
  | error fault =>
    refine ⟨machine.log, ?_⟩
    rw [ofText, parse, hdocument]
    rfl
  | ok store =>
    rw [ofText, hdocument, parse_of_ofDocument path hdocument]
    split
    · exact ⟨machine.log, rfl⟩
    · exact ⟨machine.log ++ [.restoredInbox path], rfl⟩

/-- What is found where a text can be read. -/
theorem found_of_readText {tree : Tree} {path : Path} {text : String}
    (hread : tree.readText path = .ok text) : found tree path = ofText text := by
  have htext : (Files.readText path : StateM Machine _) (holding tree) =
      (.ok text, holding tree) := by
    show (tree.readText path, _) = _
    rw [hread]
  obtain ⟨log, hparse⟩ := run_parse path text (holding tree)
  have hload : (load (m := StateM Machine) path).run (holding tree) =
      (ofText text, { holding tree with log }) := by
    rw [load, run_bind_of_ok (run_attempt_of_ok htext _), hparse]
  rw [found, loadOrInitial, ExceptT.run_mk, bind_apply hload]
  cases hresult : ofText text with
  | ok store => rfl
  | error e =>
    -- a text that was read does not fail to be read
    obtain ⟨fault, rfl⟩ : ∃ fault, e = .document fault := by
      cases hdocument : Store.ofDocument text with
      | ok store => rw [ofText, hdocument] at hresult; cases hresult
      | error fault =>
        rw [ofText, hdocument] at hresult
        exact ⟨fault, (Except.error.inj hresult).symm⟩
    rfl

/-- What is found where nothing can be read. -/
theorem found_of_fault {tree : Tree} {path : Path} {fault : FileFault}
    (hread : tree.readText path = .error fault) :
    found tree path =
      if fault = .notFound then .ok Store.initial else .error (.read path fault) := by
  have htext : (Files.readText path : StateM Machine _) (holding tree) =
      (.error fault, holding tree) := by
    show (tree.readText path, _) = _
    rw [hread]
  have hload : (load (m := StateM Machine) path).run (holding tree) =
      (.error (.read path fault), holding tree) := by
    rw [load, run_bind_of_error (run_attempt_of_error htext _)]
  rw [found, loadOrInitial, ExceptT.run_mk, bind_apply hload]
  cases fault <;> rfl

theorem hasList_withInbox (store : Store) : store.withInbox.hasList inboxId = true := by
  rw [Store.withInbox]
  split
  · next h => exact h
  · rfl

/-- Every store that is found has an inbox. -/
theorem hasList_of_found {tree : Tree} {path : Path} {store : Store}
    (h : found tree path = .ok store) : store.hasList inboxId = true := by
  cases hread : tree.readText path with
  | ok text =>
    rw [found_of_readText hread, ofText] at h
    cases hdocument : Store.ofDocument text with
    | ok stored =>
      rw [hdocument] at h
      rw [← Except.ok.inj h]
      exact hasList_withInbox stored
    | error fault => rw [hdocument] at h; cases h
  | error fault =>
    rw [found_of_fault hread] at h
    split at h
    · obtain rfl := Except.ok.inj h
      rfl
    · cases h

/-- The document of a store with an inbox is found as the store. -/
theorem found_of_document {tree : Tree} {path : Path} {store : Store}
    (hread : tree.readText path = .ok store.document) (hrep : store.Representable)
    (hinbox : store.hasList inboxId = true) :
    found tree path = .ok { store with spacing := Spacing.default } := by
  have hsame : ({ store with spacing := Spacing.default } : Store).withInbox =
      { store with spacing := Spacing.default } := if_pos hinbox
  rw [found_of_readText hread, ofText, Store.ofDocument_of_representable hrep]
  exact congrArg Except.ok hsame

/-! ### Saving -/

theorem run_makeDirectory (path : Path) (machine : Machine) :
    (∃ tree, (makeDirectory (m := StateM Machine) path).run machine =
        (.ok (), { machine with tree })) ∨
      ∃ e machine', (makeDirectory (m := StateM Machine) path).run machine = (.error e, machine') ∧
        e.isWriting = true := by
  rw [makeDirectory]
  split
  · next dir _ =>
    have hcall := run_createDirectories dir machine
    cases hcreate : (machine.tree.createDirectories dir).1 with
    | error fault =>
      rw [hcreate] at hcall
      exact .inr ⟨_, _, run_attempt_of_error hcall _, rfl⟩
    | ok _ =>
      rw [hcreate] at hcall
      exact .inl ⟨_, run_attempt_of_ok hcall _⟩
  · exact .inl ⟨machine.tree, rfl⟩

theorem run_replace (path : Path) (store : Store) (machine : Machine) :
    (∃ tree log, (replace (m := StateM Machine) path store).run machine =
          (.ok (), { machine with tree, log }) ∧ tree.readText path = .ok store.document) ∨
      ∃ e machine', (replace (m := StateM Machine) path store).run machine = (.error e, machine') ∧
        e.isWriting = true := by
  rw [replace]
  cases hwrite : machine.tree.writeText (temporary path) store.document with
  | error fault =>
    have hcall := run_writeText_of_error machine hwrite
    exact .inr ⟨_, _, run_bind_of_error (run_attempt_of_error hcall _) _, rfl⟩
  | ok tree =>
    rw [run_bind_of_ok (run_attempt_of_ok (run_writeText_of_ok machine hwrite) _)]
    cases hrename : tree.rename (temporary path) path with
    | error fault =>
      have hcall := run_rename_of_error { machine with tree } hrename
      exact .inr ⟨_, _, run_bind_of_error (run_attempt_of_error hcall _) _, rfl⟩
    | ok tree' =>
      have hcall := run_rename_of_ok { machine with tree } hrename
      rw [run_bind_of_ok (run_attempt_of_ok hcall _)]
      exact .inl ⟨tree', _, rfl, Tree.readText_of_rename hwrite hrename⟩

/-! Saving is one piece of work after the other, whatever the system is. -/

section Held

variable {σ : Type} [Host (StateM σ)] {path : Path} {system made timed saved : σ}

theorem saveHeld_of_error {e : StoreFileError}
    (hmake : (makeDirectory (m := StateM σ) path).run system = (.error e, made)) (store : Store) :
    (saveHeld path store : StateM σ _) system = ((.error e, store), made) := by
  rw [saveHeld, bind_apply hmake]
  rfl

theorem saveHeld_of_ok {now : Timestamp} {result : Except StoreFileError Unit} {store : Store}
    (hmake : (makeDirectory (m := StateM σ) path).run system = (.ok (), made))
    (hnow : (Host.now : StateM σ _) made = (now, timed))
    (hreplace : (replace (m := StateM σ) path (store.stamped now)).run timed = (result, saved)) :
    (saveHeld path store : StateM σ _) system = ((result, store.stamped now), saved) := by
  rw [saveHeld, bind_apply hmake]
  dsimp only
  rw [bind_apply hnow, bind_apply hreplace]
  rfl

/-- What is returned is the caller's store, unless saving fails. -/
theorem run_save_of_held {result : Except StoreFileError Unit} {store held : Store}
    (h : (saveHeld path store : StateM σ _) system = ((result, held), saved)) :
    (save (m := StateM σ) path store).run system = (result.map fun _ => held, saved) := by
  rw [save, ExceptT.run_mk, bind_apply h]
  rfl

end Held

/-- **What is saved is there to be loaded**, unless a call that writes fails. -/
theorem run_save (path : Path) (store : Store) (machine : Machine) :
    (∃ tree log, (save (m := StateM Machine) path store).run machine =
          (.ok (store.stamped machine.clock), { machine with tree, log }) ∧
        tree.readText path = .ok (store.stamped machine.clock).document) ∨
      ∃ e machine', (save (m := StateM Machine) path store).run machine = (.error e, machine') ∧
        e.isWriting = true := by
  obtain ⟨made, hmade⟩ | ⟨e, machine', hmade, hwriting⟩ := run_makeDirectory path machine
  · have hnow : (Host.now : StateM Machine _) { machine with tree := made } =
        (machine.clock, { machine with tree := made }) := rfl
    obtain ⟨tree, log, hreplace, hread⟩ | ⟨e, machine', hreplace, hwriting⟩ :=
      run_replace path (store.stamped machine.clock) { machine with tree := made }
    · exact .inl ⟨tree, log, run_save_of_held (saveHeld_of_ok hmade hnow hreplace), hread⟩
    · exact .inr ⟨e, machine', run_save_of_held (saveHeld_of_ok hmade hnow hreplace), hwriting⟩
  · exact .inr ⟨e, machine', run_save_of_held (saveHeld_of_error hmade store), hwriting⟩

end StoreFile

end Agenda

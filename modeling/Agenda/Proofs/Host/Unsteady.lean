/-
Agenda/Proofs/Host/Unsteady.lean

A system on which calls fail.  Every call on files either does what it does on
a system in memory, or it meets trouble: it fails, for any reason whatever, and
may leave a part of its work behind,

    creating directories    some of them, from the first on
    writing                 anything at the place of the file
    all other calls         nothing

so that a file is moved or is not.  The trouble that each call meets is fixed
beforehand; a statement about all unsteady systems is therefore one about all
ways in which calls can fail.

What every call on an unsteady system leaves alone, with trouble or without, is
said by one lemma for each of the calls that save a store.
-/
import Agenda.Proofs.Files.Way
import Agenda.Proofs.Host.Memory

namespace Agenda

/-! ### Trouble -/

/-- What goes wrong in a call. -/
structure Trouble where
  /-- The reason that is given. -/
  fault : FileFault
  /-- How many parts of a path directories are created for. -/
  made : Nat
  /-- What is left of a file that was to be written, for what was there before. -/
  residue : Option ByteArray → Option ByteArray

/-- The tree after a file was written in vain. -/
def Tree.spoil (tree : Tree) (path : Path) (residue : Option ByteArray → Option ByteArray) : Tree :=
  match tree.locate path with
  | .ok (.entry location false) =>
    if tree.hasDirectory location then tree
    else
      match residue (tree.file? location) with
      | some content => tree.put location (.file content)
      | none => tree.erase location
  | _ => tree

/-- **Only the file that was to be written is spoiled.** -/
theorem Tree.agreeBut_spoil (tree : Tree) (path : Path)
    (residue : Option ByteArray → Option ByteArray) :
    AgreeBut (tree.place path) tree (tree.spoil path residue) := by
  rw [spoil]
  split
  · next location hpath =>
    obtain rfl : location = tree.place path := place_of_locate hpath
    split
    · exact .refl _ tree
    · next hfree =>
      rw [hasDirectory_iff] at hfree
      split
      · exact agreeBut_put hfree _
      · exact agreeBut_erase hfree
  · exact .refl _ tree

/-! ### Unsteady systems -/

/-- A system in memory on which calls fail. -/
structure Unsteady where
  /-- The system in memory. -/
  machine : Machine
  /-- The trouble that a call on files meets, by the number of calls before it. -/
  trouble? : Nat → Option Trouble
  /-- How many calls on files there were. -/
  calls : Nat := 0

namespace Unsteady

variable {α : Type}

/-- Work on the system in memory. -/
def steadily (work : StateM Machine α) : StateM Unsteady α := fun system =>
  let (result, machine) := work system.machine
  (result, { system with machine })

/-- A call on files: what it does without trouble, or else what it does with it. -/
def call (work : StateM Machine α) (failing : Trouble → StateM Machine α) : StateM Unsteady α :=
  fun system =>
    let work := match system.trouble? system.calls with
      | none => work
      | some trouble => failing trouble
    steadily work { system with calls := system.calls + 1 }

instance : Host (StateM Unsteady) where
  isThere path := call (Files.isThere path) fun _ => pure false
  readText path := call (Files.readText path) fun trouble => pure (.error trouble.fault)
  writeText path text := call (Files.writeText path text) fun trouble machine =>
    (.error trouble.fault, { machine with tree := machine.tree.spoil path trouble.residue })
  rename source target := call (Files.rename source target) fun trouble =>
    pure (.error trouble.fault)
  remove path := call (Files.remove path) fun trouble => pure (.error trouble.fault)
  createDirectories path := call (Files.createDirectories path) fun trouble machine =>
    let tree := (machine.tree.createDirectories (path.upTo trouble.made)).2
    (.error trouble.fault, { machine with tree })
  now := steadily Host.now
  newId := steadily Host.newId
  log event := steadily (Host.log event)

/-! ### What calls leave alone -/

/-- What holds of a call without trouble and with any trouble holds of it. -/
theorem run_call {work : StateM Machine α} {failing : Trouble → StateM Machine α}
    {system : Unsteady} (R : α → Machine → Prop)
    (hwork : R (work system.machine).1 (work system.machine).2)
    (hfailing : ∀ trouble,
      R (failing trouble system.machine).1 (failing trouble system.machine).2) :
    ∃ result system', call work failing system = (result, system') ∧ R result system'.machine := by
  cases htrouble : system.trouble? system.calls with
  | none =>
    refine ⟨_, { system with machine := (work system.machine).2, calls := system.calls + 1 }, ?_,
      hwork⟩
    rw [call, htrouble]
    rfl
  | some trouble =>
    refine ⟨_, { system with machine := (failing trouble system.machine).2,
                             calls := system.calls + 1 }, ?_, hfailing trouble⟩
    rw [call, htrouble]
    rfl

/-- The directories of a path are created as far as one of its parts. -/
inductive Creates (path : Path) (machine : Machine) : Machine → Prop
  | upTo (n : Nat) : Creates path machine
      { machine with tree := (machine.tree.createDirectories (path.upTo n)).2 }

/-- **Creating directories** may stop half-way. -/
theorem run_createDirectories (path : Path) (system : Unsteady) :
    ∃ result system',
      (Files.createDirectories path : StateM Unsteady _) system = (result, system') ∧
        Creates path system.machine system'.machine := by
  refine run_call (fun _ => Creates path system.machine) ?_ fun trouble => .upTo trouble.made
  have hwhole : path.upTo path.parts.length = path := by
    rw [Path.upTo, List.take_length]
  have hcreates : Creates path system.machine { system.machine with
      tree := (system.machine.tree.createDirectories (path.upTo path.parts.length)).2 } :=
    .upTo path.parts.length
  rwa [hwhole] at hcreates

/-- A file is written, or the call fails and changes nothing but the file at its path. -/
inductive Writes (path : Path) (text : String) (machine : Machine) :
    Except FileFault Unit → Machine → Prop
  | written {tree} : machine.tree.writeText path text = .ok tree →
      Writes path text machine (.ok ()) { machine with tree }
  | failed (fault) {tree} : Tree.AgreeBut (machine.tree.place path) machine.tree tree →
      Writes path text machine (.error fault) { machine with tree }

theorem run_writeText (path : Path) (text : String) (system : Unsteady) :
    ∃ result system',
      (Files.writeText path text : StateM Unsteady _) system = (result, system') ∧
        Writes path text system.machine result system'.machine := by
  refine run_call (Writes path text system.machine) ?_ fun trouble =>
    .failed _ (Tree.agreeBut_spoil system.machine.tree path trouble.residue)
  cases hwrite : system.machine.tree.writeText path text with
  | ok tree =>
    rw [Machine.run_writeText_of_ok system.machine hwrite]
    exact .written hwrite
  | error fault =>
    rw [Machine.run_writeText_of_error system.machine hwrite]
    exact .failed fault (.refl _ _)

/-- A file is moved, or the call fails and changes nothing. -/
inductive Moves (source target : Path) (machine : Machine) :
    Except FileFault Unit → Machine → Prop
  | moved {tree} : machine.tree.rename source target = .ok tree →
      Moves source target machine (.ok ()) { machine with tree }
  | failed (fault) : Moves source target machine (.error fault) machine

theorem run_rename (source target : Path) (system : Unsteady) :
    ∃ result system',
      (Files.rename source target : StateM Unsteady _) system = (result, system') ∧
        Moves source target system.machine result system'.machine := by
  refine run_call (Moves source target system.machine) ?_ fun trouble => .failed trouble.fault
  cases hrename : system.machine.tree.rename source target with
  | ok tree =>
    rw [Machine.run_rename_of_ok system.machine hrename]
    exact .moved hrename
  | error fault =>
    rw [Machine.run_rename_of_error system.machine hrename]
    exact .failed fault

end Unsteady

end Agenda

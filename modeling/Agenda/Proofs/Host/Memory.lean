/-
Agenda/Proofs/Host/Memory.lean

Work on a system in memory, call by call.  A piece of work that may fail goes
on where it succeeds and stops where it fails (`run_bind_of_ok`,
`run_bind_of_error`); with these two and what each call does, a longer piece is
taken apart from its start.

Much of the work only reads: what it finds depends on the files alone, and it
leaves nothing behind but notes in the log (`Reads`).  Reading after reading is
reading.
-/
import Agenda.Host.Memory
import Agenda.Timestamp.Clock
import Mathlib.Tactic.Choose

namespace Agenda.Machine

variable {ε ε' α β : Type} {machine machine' : Machine}

/-! ### One after the other

Nothing here depends on what the system is. -/

section Peel

variable {σ : Type} {system system' : σ}

theorem bind_apply {work : StateM σ α} {a : α} (h : work system = (a, system'))
    (next : α → StateM σ β) : (work >>= next) system = next a system' := by
  show next (work system).1 (work system).2 = _
  rw [h]

variable {work : ExceptT ε (StateM σ) α}

/-- Work goes on with what was found, on the system as it is then. -/
theorem run_bind_of_ok {a : α} (h : work.run system = (.ok a, system'))
    (next : α → ExceptT ε (StateM σ) β) :
    (work >>= next).run system = (next a).run system' := by
  rw [ExceptT.run_bind, bind_apply h]

/-- Work that fails is given up. -/
theorem run_bind_of_error {e : ε} (h : work.run system = (.error e, system'))
    (next : α → ExceptT ε (StateM σ) β) :
    (work >>= next).run system = (.error e, system') := by
  rw [ExceptT.run_bind, bind_apply h]
  rfl

theorem run_attempt_of_ok {call : StateM σ (Except ε α)} {a : α}
    (h : call system = (.ok a, system')) (explain : ε → ε') :
    (attempt explain call).run system = (.ok a, system') := by
  show ((call system).1.mapError explain, (call system).2) = _
  rw [h]
  rfl

theorem run_attempt_of_error {call : StateM σ (Except ε α)} {e : ε}
    (h : call system = (.error e, system')) (explain : ε → ε') :
    (attempt explain call).run system = (.error (explain e), system') := by
  show ((call system).1.mapError explain, (call system).2) = _
  rw [h]
  rfl

end Peel

/-! ### Calls that change the files -/

section Change

variable {tree : Tree} {fault : FileFault}

theorem run_change_of_ok {f : Tree → Except FileFault Tree} (h : f machine.tree = .ok tree) :
    change f machine = (.ok (), { machine with tree }) := by
  rw [change, h]

theorem run_change_of_error {f : Tree → Except FileFault Tree}
    (h : f machine.tree = .error fault) : change f machine = (.error fault, machine) := by
  rw [change, h]

theorem run_writeText_of_ok (machine : Machine) {path : Path} {text : String}
    (h : machine.tree.writeText path text = .ok tree) :
    (Files.writeText path text : StateM Machine _) machine = (.ok (), { machine with tree }) :=
  run_change_of_ok (f := fun tree => tree.writeText path text) h

theorem run_writeText_of_error (machine : Machine) {path : Path} {text : String}
    (h : machine.tree.writeText path text = .error fault) :
    (Files.writeText path text : StateM Machine _) machine = (.error fault, machine) :=
  run_change_of_error (f := fun tree => tree.writeText path text) h

theorem run_rename_of_ok (machine : Machine) {source target : Path}
    (h : machine.tree.rename source target = .ok tree) :
    (Files.rename source target : StateM Machine _) machine = (.ok (), { machine with tree }) :=
  run_change_of_ok (f := fun tree => tree.rename source target) h

theorem run_rename_of_error (machine : Machine) {source target : Path}
    (h : machine.tree.rename source target = .error fault) :
    (Files.rename source target : StateM Machine _) machine = (.error fault, machine) :=
  run_change_of_error (f := fun tree => tree.rename source target) h

theorem run_createDirectories (path : Path) (machine : Machine) :
    (Files.createDirectories path : StateM Machine _) machine =
      ((machine.tree.createDirectories path).1,
        { machine with tree := (machine.tree.createDirectories path).2 }) := rfl

end Change

/-! ### Work that only reads -/

/-- What is found depends on the files only, and nothing is changed but the log. -/
def Reads (work : StateM Machine α) : Prop :=
  ∃ find : Tree → α, ∀ machine, ∃ log, work machine = (find machine.tree, { machine with log })

/-- A machine with these files. -/
def holding (tree : Tree) : Machine where
  tree := tree
  clock := Timestamp.epoch
  ids _ := ""

/-- What work that only reads finds on any machine with the same files. -/
theorem Reads.eq_holding {work : StateM Machine α} (h : Reads work) (machine : Machine) :
    ∃ log, work machine = ((work (holding machine.tree)).1, { machine with log }) := by
  obtain ⟨find, hfind⟩ := h
  obtain ⟨log, hwork⟩ := hfind machine
  obtain ⟨_, hholding⟩ := hfind (holding machine.tree)
  exact ⟨log, by rw [hwork, hholding]; rfl⟩

theorem reads_pure (a : α) : Reads (pure a) :=
  ⟨fun _ => a, fun machine => ⟨machine.log, rfl⟩⟩

theorem Reads.bind {work : StateM Machine α} {next : α → StateM Machine β} (h : Reads work)
    (hnext : ∀ a, Reads (next a)) : Reads (work >>= next) := by
  obtain ⟨find, hfind⟩ := h
  choose findNext hfindNext using hnext
  refine ⟨fun tree => findNext (find tree) tree, fun machine => ?_⟩
  obtain ⟨log, hwork⟩ := hfind machine
  obtain ⟨log', hnext⟩ := hfindNext (find machine.tree) { machine with log }
  exact ⟨log', by rw [bind_apply hwork, hnext]⟩

theorem reads_log (event : LogEvent) : Reads (Host.log event) :=
  ⟨fun _ => (), fun machine => ⟨machine.log ++ [event], rfl⟩⟩

theorem reads_isThere (path : Path) : Reads (Files.isThere path) :=
  ⟨fun tree => tree.isThere path, fun machine => ⟨machine.log, rfl⟩⟩

theorem reads_readText (path : Path) : Reads (Files.readText path) :=
  ⟨fun tree => tree.readText path, fun machine => ⟨machine.log, rfl⟩⟩

/-! Work that may fail reads if it reads up to its failure. -/

theorem reads_run_pure (a : α) : Reads (pure a : ExceptT ε (StateM Machine) α).run :=
  reads_pure _

theorem reads_run_throw (e : ε) : Reads (throw e : ExceptT ε (StateM Machine) α).run :=
  reads_pure _

theorem Reads.run_bind {work : ExceptT ε (StateM Machine) α}
    {next : α → ExceptT ε (StateM Machine) β} (h : Reads work.run)
    (hnext : ∀ a, Reads (next a).run) : Reads (work >>= next).run := by
  rw [ExceptT.run_bind]
  refine h.bind fun result => ?_
  cases result with
  | ok a => exact hnext a
  | error e => exact reads_pure _

theorem Reads.run_lift {work : StateM Machine α} (h : Reads work) :
    Reads (liftM work : ExceptT ε (StateM Machine) α).run := by
  show Reads (work >>= fun a => pure (Except.ok a : Except ε α))
  exact h.bind fun a => reads_pure _

theorem Reads.run_attempt {call : StateM Machine (Except ε α)} (h : Reads call)
    (explain : ε → ε') : Reads (attempt explain call).run :=
  h.bind fun result => reads_pure (result.mapError explain)

end Agenda.Machine

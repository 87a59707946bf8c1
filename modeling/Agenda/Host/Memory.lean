/-
Agenda/Host/Memory.lean

A system that lives in memory: a tree of files, a clock that stands still,
ids that are handed out one after another, and the log so far.
-/
import Agenda.Files.Tree
import Agenda.Host

namespace Agenda

/-- A system in memory. -/
structure Machine where
  /-- The files. -/
  tree : Tree := {}
  /-- The time. -/
  clock : Timestamp
  /-- The ids that are handed out. -/
  ids : Nat → String
  /-- How many ids were handed out. -/
  used : Nat := 0
  /-- The events noted so far. -/
  log : List LogEvent := []

namespace Machine

/-- A call that changes the files, unless it fails. -/
def change (f : Tree → Except FileFault Tree) : StateM Machine (Except FileFault Unit) :=
  fun machine =>
    match f machine.tree with
    | .ok tree => (.ok (), { machine with tree })
    | .error fault => (.error fault, machine)

instance : Host (StateM Machine) where
  isThere path := return (← get).tree.isThere path
  readText path := return (← get).tree.readText path
  writeText path text := change (·.writeText path text)
  rename source target := change (·.rename source target)
  remove path := change (·.remove path)
  createDirectories path := fun machine =>
    let (result, tree) := machine.tree.createDirectories path
    (result, { machine with tree })
  now := return (← get).clock
  newId := fun machine => (machine.ids machine.used, { machine with used := machine.used + 1 })
  log event := fun machine => ((), { machine with log := machine.log ++ [event] })

end Machine

end Agenda

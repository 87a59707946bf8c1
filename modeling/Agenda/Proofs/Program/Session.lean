/-
Agenda/Proofs/Program/Session.lean

One run of the program for each command, or one long session: it is the same.
Every run reads the file of the store anew, finds the lists and items that it
was told of, acts, and saves the file if something has changed (`Visit`).  A
session keeps one store in memory and does the same operations on it
(`Store.serve`).  After every visit the store in the file has the lists and the
items of the session

    store in the file after the visits  =  session after the visits

(`visits_eq_session`), but for the time of the last save, which no operation
looks at; and a visit that fails leaves all files as they were.  What is
promised is that the settings and the path of the store stay the same, and that
the calls that write succeed.
-/
import Agenda.Program.Run
import Agenda.Proofs.Program.Action
import Agenda.Proofs.Store.File
import Agenda.Proofs.Store.Range

namespace Agenda

open Machine

/-! ### What is found in the files -/

/-- The settings that are found in a tree of files. -/
def settingsAt (env : Environment) (tree : Tree) : Except SettingsError Settings :=
  ((loadSettings (m := StateM Machine) env).run (holding tree)).1

/-- The store that is found at a path in a tree of files, with the spacing of the settings. -/
def storeAt (settings : Settings) (path : Path) (tree : Tree) : Except StoreFileError Store :=
  (StoreFile.found tree path).map fun store => { store with spacing := settings.spacing }

theorem reads_loadSettings (env : Environment) :
    Reads (loadSettings (m := StateM Machine) env).run := by
  have hpath : Reads (settingsPath (m := StateM Machine) env).run := by
    rw [settingsPath]
    split
    · exact reads_run_pure _
    · exact reads_run_throw _
  rw [loadSettings]
  refine hpath.run_bind fun path => (reads_isThere path).run_lift.run_bind fun isThere => ?_
  split
  · refine ((reads_readText path).run_attempt _).run_bind fun text => ?_
    split
    · exact reads_run_pure _
    · exact reads_run_throw _
  · exact (reads_log _).run_lift.run_bind fun _ => reads_run_pure _

theorem run_loadSettings (env : Environment) (machine : Machine) :
    ∃ log, (loadSettings (m := StateM Machine) env).run machine =
      (settingsAt env machine.tree, { machine with log }) :=
  (reads_loadSettings env).eq_holding machine

/-! ### Visits -/

/-- One run of the program with a command on the store. -/
structure Visit (env : Environment) where
  /-- The arguments of the run. -/
  args : List String
  /-- The options among them. -/
  options : CommonOptions
  /-- The command. -/
  command : StoreCommand
  /-- The arguments ask for the command. -/
  asks : Invocation.ofArguments env args = .ok { options, command := .store command }
  /-- The time. -/
  clock : Timestamp
  /-- The ids that the system hands out. -/
  ids : Nat → String

namespace Visit

variable {env : Environment}

/-- The run, which starts with these files. -/
def carryOut (visit : Visit env) (tree : Tree) : Outcome × Machine :=
  run (m := StateM Machine) env visit.args { tree, clock := visit.clock, ids := visit.ids }

/-- How the run ends. -/
def outcome (visit : Visit env) (tree : Tree) : Outcome :=
  (visit.carryOut tree).1

/-- The files after the run. -/
def filesAfter (visit : Visit env) (tree : Tree) : Tree :=
  (visit.carryOut tree).2.tree

end Visit

/-! ### Answers -/

/-- What a command knows besides its arguments when it works on a list. -/
def scopeIn (options : CommonOptions) (newId : String) (list : TodoList) : Scope where
  listId := list.id
  newId := newId
  verbose := options.verbose

/-- What a command does to a store, or why it is not carried out: the list to work on is looked up
first. -/
def StoreCommand.answer (command : StoreCommand) (options : CommonOptions) (settings : Settings)
    (newId : String) (store : Store) : Except StoreError Step := do
  let list ← store.resolveList (listName options settings)
  command.act (scopeIn options newId list) store

/-- The operations that a command stands for. -/
def StoreCommand.steps (command : StoreCommand) (options : CommonOptions) (settings : Settings)
    (newId : String) (store : Store) : Except StoreError (List Operation) := do
  let list ← store.resolveList (listName options settings)
  command.operations (scopeIn options newId list) store

theorem StoreCommand.answer_agrees (command : StoreCommand) (options : CommonOptions)
    (settings : Settings) (newId : String) (store : Store) :
    store.Agrees (command.answer options settings newId store)
      (command.steps options settings newId store) :=
  Store.Agrees.bind fun list _ => command.agrees (scopeIn options newId list) store

theorem Store.hasList_inbox_carriedOut {store : Store} (h : store.hasList inboxId = true)
    (operations : Except StoreError (List Operation)) :
    (store.carriedOut operations).hasList inboxId = true := by
  cases operations with
  | ok ops => exact hasList_inbox_run h ops
  | error e => exact h

theorem Store.spacing_carriedOut (store : Store)
    (operations : Except StoreError (List Operation)) :
    (store.carriedOut operations).spacing = store.spacing := by
  cases operations with
  | ok ops => exact store.spacing_run ops
  | error e => rfl

/-- Carries out the operations of a command on a store in memory. -/
def Store.serve {env : Environment} (store : Store) (settings : Settings) (visit : Visit env) :
    Store :=
  store.carriedOut (visit.command.steps visit.options settings (visit.ids 0) store)

/-- Neither looking up what a command works on nor working on it looks at the time of the last
save. -/
theorem Store.unstamped_serve_congr {env : Environment} {store store' : Store}
    (h : store.unstamped = store'.unstamped) (settings : Settings) (visit : Visit env) :
    (store.serve settings visit).unstamped = (store'.serve settings visit).unstamped := by
  have hsteps : ∀ s : Store, visit.command.steps visit.options settings (visit.ids 0) s =
      visit.command.steps visit.options settings (visit.ids 0) s.unstamped := by
    intro s
    cases visit.command with
    | lists command => cases command <;> rfl
    | _ => rfl
  rw [serve, serve, hsteps store, hsteps store', h]
  cases visit.command.steps visit.options settings (visit.ids 0) store'.unstamped with
  | ok ops => exact unstamped_run_congr h ops
  | error e => exact h

/-! ### One run -/

theorem run_forM_log (events : List LogEvent) (machine : Machine) :
    ∃ log, (events.forM fun event => (liftM (Host.log event : StateM Machine Unit) :
      ExceptT Failure (StateM Machine) Unit)).run machine = (.ok (), { machine with log }) := by
  induction events generalizing machine with
  | nil => exact ⟨machine.log, rfl⟩
  | cons event events ih => exact ih { machine with log := machine.log ++ [event] }

/-- How a command ends that was carried out on these files at this time: it has failed and the
files are as they were, it has told something and the files are as they were, it has saved the
store, or a call that writes has failed. -/
inductive Ending (path : Path) (tree : Tree) (clock : Timestamp) :
    Except StoreError Step → Except Failure Outline × Machine → Prop
  | refused {e : StoreError} {machine : Machine} (same : machine.tree = tree) :
      Ending path tree clock (.error e) (.error (.store e), machine)
  | told {step : Step} {machine : Machine} (unsaved : step.saves = false)
      (same : machine.tree = tree) :
      Ending path tree clock (.ok step) (.ok step.outline, machine)
  | saved {step : Step} {machine : Machine}
      (readable : machine.tree.readText path = .ok (step.store.stamped clock).document) :
      Ending path tree clock (.ok step) (.ok step.outline, machine)
  | unwritten {step : Step} {e : StoreFileError} {machine : Machine}
      (writing : e.isWriting = true) :
      Ending path tree clock (.ok step) (.error (.storeFile e), machine)

/-- The end of a command that has not failed. -/
theorem ending_conclude (path : Path) (step : Step) (machine : Machine) :
    Ending path machine.tree machine.clock (.ok step)
      ((step.conclude (m := StateM Machine) path).run machine) := by
  obtain ⟨log, hnoted⟩ := run_forM_log step.events machine
  rw [Step.conclude, run_bind_of_ok hnoted]
  dsimp only
  split
  · obtain ⟨tree, log', hsave, hread⟩ | ⟨e, machine', hsave, hwriting⟩ :=
      StoreFile.run_save path step.store { machine with log }
    · have hcall : (attempt Failure.storeFile
          (StoreFile.save (m := StateM Machine) path step.store)).run { machine with log } = _ :=
        run_attempt_of_ok hsave _
      rw [run_bind_of_ok hcall]
      exact .saved hread
    · have hcall : (attempt Failure.storeFile
          (StoreFile.save (m := StateM Machine) path step.store)).run { machine with log } = _ :=
        run_attempt_of_error hsave _
      rw [run_bind_of_error hcall]
      exact .unwritten hwriting
  · next hsaves => exact .told (Bool.eq_false_iff.mpr hsaves) rfl

/-- **A command ends in one of four ways.** -/
theorem ending_runAt (command : StoreCommand) (path : Path) (options : CommonOptions)
    (settings : Settings) {machine : Machine} {loaded store : Store}
    (hfound : StoreFile.found machine.tree path = .ok loaded)
    (hstore : store = { loaded with spacing := settings.spacing }) :
    Ending path machine.tree machine.clock
      (command.answer options settings (machine.ids machine.used) store)
      ((command.runAt (m := StateM Machine) path options settings).run machine) := by
  have hlog : (liftM (Host.log (.openingStore path) : StateM Machine Unit) :
      ExceptT Failure (StateM Machine) Unit).run machine =
        (.ok (), { machine with log := machine.log ++ [LogEvent.openingStore path] }) := rfl
  obtain ⟨log, hload⟩ := StoreFile.run_loadOrInitial path
    { machine with log := machine.log ++ [LogEvent.openingStore path] }
  rw [hfound] at hload
  have hloaded : (attempt Failure.storeFile
      (StoreFile.loadOrInitial (m := StateM Machine) path)).run
        { machine with log := machine.log ++ [LogEvent.openingStore path] } = _ :=
    run_attempt_of_ok hload _
  have hpure : ∀ {α : Type} (result : Except StoreError α) (machine : Machine),
      (pure result : StateM Machine _) machine = (result, machine) := fun _ _ => rfl
  rw [StoreCommand.runAt, run_bind_of_ok hlog, run_bind_of_ok hloaded]
  dsimp only
  rw [← hstore, StoreCommand.answer]
  cases hlist : store.resolveList (listName options settings) with
  | error e =>
    rw [run_bind_of_error (run_attempt_of_error (hpure _ _) _)]
    exact .refused rfl
  | ok list =>
    have hid : (liftM (Host.newId : StateM Machine String) :
        ExceptT Failure (StateM Machine) String).run { machine with log } =
          (.ok (machine.ids machine.used), { machine with log, used := machine.used + 1 }) := rfl
    have hscope : (⟨list.id, machine.ids machine.used, options.verbose⟩ : Scope) =
        scopeIn options (machine.ids machine.used) list := rfl
    rw [run_bind_of_ok (run_attempt_of_ok (hpure _ _) _), run_bind_of_ok hid, hscope]
    show Ending path machine.tree machine.clock
      (command.act (scopeIn options (machine.ids machine.used) list) store) _
    cases hact : command.act (scopeIn options (machine.ids machine.used) list) store with
    | error e =>
      rw [run_bind_of_error (run_attempt_of_error (hpure _ _) _)]
      exact .refused rfl
    | ok step =>
      rw [run_bind_of_ok (run_attempt_of_ok (hpure _ _) _)]
      exact ending_conclude path step { machine with log, used := machine.used + 1 }

/-! ### One visit -/

/-- The run has failed. -/
def Outcome.isFailure : Outcome → Bool
  | .failed .. => true
  | .usage _ | .done _ | .completions _ => false

/-- A call that writes has failed. -/
def Outcome.isWriteFailure : Outcome → Bool
  | .failed (.storeFile e) _ => e.isWriting
  | _ => false

namespace Visit

variable {env : Environment} {settings : Settings} {path : Path} {visit : Visit env} {tree : Tree}

/-- The visit finds the settings and the path of the store as they always are, its clock shows a
year that can be represented, and its calls to write succeed. -/
structure Undisturbed (settings : Settings) (path : Path) (visit : Visit env) (tree : Tree) :
    Prop where
  /-- The settings are the same. -/
  settings_eq : settingsAt env tree = .ok settings
  /-- The path of the store is the same. -/
  path_eq : storePath? env visit.options settings = some path
  /-- The year can be represented. -/
  year : yearInRange visit.clock.date.year = true
  /-- No call that writes fails. -/
  calls : (visit.outcome tree).isWriteFailure = false

theorem exists_found {store : Store} (h : storeAt settings path tree = .ok store) :
    ∃ loaded, StoreFile.found tree path = .ok loaded ∧
      store = { loaded with spacing := settings.spacing } := by
  rw [storeAt] at h
  cases hfound : StoreFile.found tree path with
  | ok loaded =>
    rw [hfound] at h
    exact ⟨loaded, rfl, (Except.ok.inj h).symm⟩
  | error e => rw [hfound] at h; cases h

theorem carryOut_eq (visit : Visit env) (hsettings : settingsAt env tree = .ok settings)
    (hpath : storePath? env visit.options settings = some path) :
    ∃ machine : Machine, machine.tree = tree ∧ machine.clock = visit.clock ∧
      machine.ids machine.used = visit.ids 0 ∧
      visit.carryOut tree =
        (endingOf (Manner.of visit.options settings)
            ((visit.command.runAt (m := StateM Machine) path visit.options settings).run machine).1,
          ((visit.command.runAt (m := StateM Machine) path visit.options settings).run
            machine).2) := by
  obtain ⟨log, hload⟩ := run_loadSettings env { tree, clock := visit.clock, ids := visit.ids }
  rw [hsettings] at hload
  refine ⟨{ tree, clock := visit.clock, ids := visit.ids, log }, rfl, rfl, rfl, ?_⟩
  rw [carryOut, run, visit.asks]
  dsimp only
  rw [Invocation.run]
  dsimp only
  rw [bind_apply hload]
  show ((StoreCommand.run (m := StateM Machine) env visit.command visit.options settings).run >>=
    fun result => pure (endingOf _ result)) _ = _
  rw [StoreCommand.run, hpath]
  rfl

/-- What was saved is found. -/
theorem storeAt_of_saved {store : Store} {clock : Timestamp}
    (readable : tree.readText path = .ok (store.stamped clock).document)
    (hyear : yearInRange clock.date.year = true) (hinbox : store.hasList inboxId = true)
    (hspacing : store.spacing = settings.spacing) :
    storeAt settings path tree = .ok (store.stamped clock) := by
  have hrep : (store.stamped clock).Representable := by
    rintro t ⟨⟩
    exact hyear
  rw [storeAt, StoreFile.found_of_document readable hrep hinbox, ← hspacing]
  rfl

/-- **A visit serves the store in the file**, and if it fails it leaves all files alone. -/
theorem Undisturbed.serves (h : visit.Undisturbed settings path tree) {store : Store}
    (hstore : storeAt settings path tree = .ok store) :
    (∃ found, storeAt settings path (visit.filesAfter tree) = .ok found ∧
        found.unstamped = (store.serve settings visit).unstamped) ∧
      ((visit.outcome tree).isFailure = true → visit.filesAfter tree = tree) := by
  obtain ⟨loaded, hfound, hspacing⟩ := exists_found hstore
  have hloaded : loaded.hasList inboxId = true := StoreFile.hasList_of_found hfound
  have hinbox : store.hasList inboxId = true := by rwa [hspacing]
  obtain ⟨machine, htree, hclock, hid, hrun⟩ := carryOut_eq visit h.settings_eq h.path_eq
  have hmachine : StoreFile.found machine.tree path = .ok loaded := by rwa [htree]
  have hending := ending_runAt visit.command path visit.options settings hmachine hspacing
  rw [htree, hclock, hid] at hending
  have hagrees := visit.command.answer_agrees visit.options settings (visit.ids 0) store
  have hcalls := h.calls
  rw [outcome, hrun] at hcalls
  rw [filesAfter, outcome, hrun, Store.serve]
  clear hrun
  generalize visit.command.answer visit.options settings (visit.ids 0) store = answer
    at hending hagrees
  generalize visit.command.steps visit.options settings (visit.ids 0) store = steps at hagrees ⊢
  generalize ((visit.command.runAt (m := StateM Machine) path visit.options settings).run machine) =
    ending at hending hcalls ⊢
  cases hending with
  | @refused e _ same =>
    refine ⟨⟨store, by rwa [same], ?_⟩, fun _ => same⟩
    rw [hagrees.of_error e rfl]
  | @told step _ unsaved same =>
    obtain ⟨hstep, hkept⟩ := hagrees.of_ok step rfl
    refine ⟨⟨store, by rwa [same], ?_⟩, fun _ => same⟩
    rw [← hstep, hkept unsaved]
  | @saved step _ readable =>
    obtain ⟨hstep, -⟩ := hagrees.of_ok step rfl
    have hkeeps : step.store.hasList inboxId = true := by
      rw [hstep]
      exact Store.hasList_inbox_carriedOut hinbox steps
    have hsame : step.store.spacing = settings.spacing := by
      rw [hstep, Store.spacing_carriedOut, hspacing]
    refine ⟨⟨step.store.stamped visit.clock,
      storeAt_of_saved readable h.year hkeeps hsame, ?_⟩, nofun⟩
    rw [← hstep]
    rfl
  | unwritten writing =>
    -- no call that writes has failed
    have hfalse := writing.symm.trans hcalls
    cases hfalse

end Visit

/-! ### All visits -/

section Visits

variable {env : Environment} {settings : Settings} {path : Path} {visits : List (Visit env)}

/-- The files after some visits, one after another. -/
def filesAfter (tree : Tree) (visits : List (Visit env)) : Tree :=
  visits.foldl (fun tree visit => visit.filesAfter tree) tree

/-- The store in memory after the same commands. -/
def session (settings : Settings) (store : Store) (visits : List (Visit env)) : Store :=
  visits.foldl (fun store visit => store.serve settings visit) store

/-- No visit is disturbed. -/
def Undisturbed (settings : Settings) (path : Path) : Tree → List (Visit env) → Prop
  | _, [] => True
  | tree, visit :: visits =>
    visit.Undisturbed settings path tree ∧ Undisturbed settings path (visit.filesAfter tree) visits

theorem unstamped_session {tree : Tree} (h : Undisturbed settings path tree visits)
    {store memory : Store} (hstore : storeAt settings path tree = .ok store)
    (hmemory : store.unstamped = memory.unstamped) (n : Nat) :
    (∃ found, storeAt settings path (filesAfter tree (visits.take n)) = .ok found ∧
        found.unstamped = (session settings memory (visits.take n)).unstamped) ∧
      ∀ visit, visits[n]? = some visit →
        (visit.outcome (filesAfter tree (visits.take n))).isFailure = true →
        visit.filesAfter (filesAfter tree (visits.take n)) = filesAfter tree (visits.take n) := by
  induction visits generalizing tree store memory n with
  | nil =>
    rw [List.take_nil]
    refine ⟨⟨store, hstore, hmemory⟩, fun visit hvisit => ?_⟩
    rw [List.getElem?_nil] at hvisit
    cases hvisit
  | cons first visits ih =>
    obtain ⟨hfirst, hrest⟩ := h
    obtain ⟨⟨found, hfound, hserved⟩, hfailure⟩ := hfirst.serves hstore
    cases n with
    | zero =>
      refine ⟨⟨store, hstore, hmemory⟩, fun visit hvisit => ?_⟩
      obtain rfl : first = visit := Option.some.inj hvisit
      exact hfailure
    | succ n =>
      exact ih hrest hfound
        (hserved.trans (Store.unstamped_serve_congr hmemory settings first)) n

/-- **One run for each command is one long session.**  Whatever stores the visits start from, as
long as they are not disturbed: after every one of them the store in the file has the lists and the
items of a session that did the same operations in memory, and a visit that fails leaves all files
as they were. -/
theorem visits_eq_session {tree : Tree} {store : Store}
    (hstore : storeAt settings path tree = .ok store) (h : Undisturbed settings path tree visits)
    (n : Nat) :
    (∃ found, storeAt settings path (filesAfter tree (visits.take n)) = .ok found ∧
        found.lists = (session settings store (visits.take n)).lists ∧
        found.items = (session settings store (visits.take n)).items) ∧
      ∀ visit, visits[n]? = some visit →
        (visit.outcome (filesAfter tree (visits.take n))).isFailure = true →
        visit.filesAfter (filesAfter tree (visits.take n)) = filesAfter tree (visits.take n) := by
  obtain ⟨⟨found, hfound, hsame⟩, hfailure⟩ := unstamped_session h hstore rfl n
  have hlists := congrArg Store.lists hsame
  have hitems := congrArg Store.items hsame
  exact ⟨⟨found, hfound, hlists, hitems⟩, hfailure⟩

/-- An environment that says where the settings and the store are. -/
def errandsEnvironment : Environment where
  bindings := [("TD_CONFIG", "td.toml"), ("TD_STORE", "todos.json")]

/-- The path of the store. -/
def errandsPath : Path where
  isAbsolute := false
  parts := ["todos.json"]

/-- An item is crossed out that there is not. -/
def breadDone : Visit errandsEnvironment where
  args := ["done", "bread"]
  options := { store := some "todos.json" }
  command := .done ["bread"]
  asks := by rfl
  clock := Timestamp.epoch
  ids := fun _ => "0"

/-- An item is added. -/
def milkAdded : Visit errandsEnvironment where
  args := ["add", "milk"]
  options := { store := some "todos.json" }
  command := .add "milk" none
  asks := by rfl
  clock := Timestamp.epoch
  ids := fun _ => "1"

theorem undisturbed_errands : Undisturbed {} errandsPath {} [breadDone, milkAdded] :=
  ⟨{ settings_eq := by rfl, path_eq := by rfl, year := by decide, calls := by decide +kernel },
    { settings_eq := by rfl, path_eq := by rfl, year := by decide, calls := by decide +kernel },
    trivial⟩

/-- The first visit fails and there is still no file; then the store in the file has the item that
was added in memory. -/
theorem visits_eq_session_errands :
    storeAt {} errandsPath {} = .ok Store.initial ∧
      Undisturbed {} errandsPath {} [breadDone, milkAdded] ∧
      breadDone.filesAfter {} = {} ∧
      ∃ found, storeAt {} errandsPath (filesAfter {} [breadDone, milkAdded]) = .ok found ∧
        found.lists = [TodoList.inbox] ∧
        found.items = [{ id := "1", listId := inboxId, summary := "milk", precedence := 32 }] := by
  have hstore : storeAt {} errandsPath {} = .ok Store.initial := by rfl
  have hfailure : (breadDone.outcome {}).isFailure = true := by decide +kernel
  have hlists : (session {} Store.initial [breadDone, milkAdded]).lists = [TodoList.inbox] := by
    decide +kernel
  have hitems : (session {} Store.initial [breadDone, milkAdded]).items =
      [{ id := "1", listId := inboxId, summary := "milk", precedence := 32 }] := by
    decide +kernel
  obtain ⟨found, hfound, hsame, hsame'⟩ :=
    (visits_eq_session hstore undisturbed_errands 2).1
  exact ⟨hstore, undisturbed_errands,
    (visits_eq_session hstore undisturbed_errands 0).2 breadDone rfl hfailure,
    found, hfound, hsame.trans hlists, hsame'.trans hitems⟩

end Visits

end Agenda

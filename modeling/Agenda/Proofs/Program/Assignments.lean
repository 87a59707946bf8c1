/-
Agenda/Proofs/Program/Assignments.lean

Assigning settings, one run of the program after another.  Every run reads the
document of the settings anew and writes all of it, so each assignment has to
carry the other settings along.  It does:

    setting after the runs  =  value of the last assignment that was accepted,
                               or the setting before all of them

(`assignments_last_wins`).  A refused assignment changes no file at all.  What is
promised is that the calls that write succeed; that a document that is written is
read again is shown (`Settings.ofDocument?_document`).
-/
import Agenda.Program.Run
import Agenda.Proofs.Program.Session
import Agenda.Proofs.Settings.Assign
import Agenda.Proofs.Settings.Document

namespace Agenda

open Machine

variable {env : Environment} {tree tree' : Tree} {path : Path} {settings : Settings}

/-! ### The document in the files -/

/-- The settings of the document in the files, or no settings if there is no document. -/
inductive SettingsIn (env : Environment) (tree : Tree) : Settings → Prop
  | missing {path : Path} : env.settingsPath? = some path → tree.isThere path = false →
      SettingsIn env tree {}
  | document {path : Path} {text : String} {settings : Settings} :
      env.settingsPath? = some path → tree.readText path = .ok text →
      Settings.ofDocument? text = some settings → SettingsIn env tree settings

theorem SettingsIn.exists_path (h : SettingsIn env tree settings) :
    ∃ path, env.settingsPath? = some path := by
  cases h with
  | missing hpath => exact ⟨_, hpath⟩
  | document hpath => exact ⟨_, hpath⟩

theorem run_settingsPath (h : env.settingsPath? = some path) (machine : Machine) :
    (settingsPath (m := StateM Machine) env).run machine = (.ok path, machine) := by
  rw [settingsPath, h]
  rfl

theorem run_isThere (path : Path) (machine : Machine) :
    (liftM (Files.isThere path : StateM Machine Bool) :
      ExceptT SettingsError (StateM Machine) Bool).run machine =
        (.ok (machine.tree.isThere path), machine) := rfl

/-- **Settings are brought to the present version when they are read.** -/
theorem SettingsIn.settingsAt_eq (h : SettingsIn env tree settings) :
    settingsAt env tree = .ok settings.migrated := by
  cases h with
  | @missing path hpath hthere =>
    rw [settingsAt, loadSettings, run_bind_of_ok (run_settingsPath hpath _),
      run_bind_of_ok (run_isThere path _)]
    simp only [show (holding tree).tree = tree from rfl, hthere]
    rfl
  | @document path text _ hpath hread hdocument =>
    have hcall : (attempt (m := StateM Machine) SettingsError.read (Files.readText path)).run
        (holding tree) = (.ok text, holding tree) :=
      run_attempt_of_ok (show (tree.readText path, holding tree) = _ by rw [hread]) _
    rw [settingsAt, loadSettings, run_bind_of_ok (run_settingsPath hpath _),
      run_bind_of_ok (run_isThere path _)]
    simp only [show (holding tree).tree = tree from rfl, Tree.isThere_of_readText hread, if_true]
    rw [run_bind_of_ok hcall, hdocument]
    rfl

/-! ### Saving settings -/

/-- The error of a call that writes. -/
def SettingsError.isWriting : SettingsError → Bool
  | .createDirectory _ | .write _ => true
  | .noDirectory | .read _ | .document | .assign _ => false

/-- **Settings that are saved are there to be read**, unless a call that writes fails. -/
theorem run_saveSettings (path : Path) (settings : Settings) (machine : Machine) :
    (∃ tree, (saveSettings (m := StateM Machine) path settings).run machine =
          (.ok (), { machine with tree }) ∧
        tree.readText path = .ok settings.document) ∨
      ∃ e machine', (saveSettings (m := StateM Machine) path settings).run machine =
        (.error e, machine') ∧ e.isWriting = true := by
  have hwrite : ∀ machine : Machine,
      (∃ tree, (attempt (m := StateM Machine) SettingsError.write
            (Files.writeText path settings.document)).run machine =
          (.ok (), { machine with tree }) ∧
        tree.readText path = .ok settings.document) ∨
      ∃ e machine', (attempt (m := StateM Machine) SettingsError.write
          (Files.writeText path settings.document)).run machine =
        (.error e, machine') ∧ e.isWriting = true := by
    intro machine
    cases hwrite : machine.tree.writeText path settings.document with
    | error fault =>
      exact .inr ⟨_, _, run_attempt_of_error (run_writeText_of_error machine hwrite) _, rfl⟩
    | ok tree =>
      exact .inl ⟨tree, run_attempt_of_ok (run_writeText_of_ok machine hwrite) _,
        Tree.readText_of_writeText hwrite⟩
  rw [saveSettings]
  split
  · next dir _ =>
    have hcall := run_createDirectories dir machine
    cases hcreate : (machine.tree.createDirectories dir).1 with
    | error fault =>
      rw [hcreate] at hcall
      exact .inr ⟨_, _, run_bind_of_error (run_attempt_of_error hcall _) _, rfl⟩
    | ok _ =>
      rw [hcreate] at hcall
      rw [run_bind_of_ok (run_attempt_of_ok hcall _)]
      exact hwrite _
  · exact hwrite machine

/-! ### One assignment -/

/-- How an assignment ends that was tried on these files: it is refused and the files are as they
were, the settings are in the files, or a call that writes has failed. -/
inductive AssignmentEnding (env : Environment) (tree : Tree) :
    Except AssignError Settings → Except SettingsError Outline × Machine → Prop
  | refused {e : AssignError} {machine : Machine} (same : machine.tree = tree) :
      AssignmentEnding env tree (.error e) (.error (.assign e), machine)
  | saved {settings : Settings} {outline : Outline} {machine : Machine}
      (readable : SettingsIn env machine.tree settings) :
      AssignmentEnding env tree (.ok settings) (.ok outline, machine)
  | unwritten {settings : Settings} {e : SettingsError} {machine : Machine}
      (writing : e.isWriting = true) :
      AssignmentEnding env tree (.ok settings) (.error e, machine)

/-- **An assignment ends in one of three ways.** -/
theorem ending_assign {machine : Machine} (h : SettingsIn env machine.tree settings)
    (name text : String) :
    AssignmentEnding env machine.tree (settings.migrated.assign name text)
      (((SettingsCommand.assign name text).run (m := StateM Machine) env).run machine) := by
  obtain ⟨path, hpath⟩ := h.exists_path
  obtain ⟨log, hload⟩ := run_loadSettings env machine
  rw [h.settingsAt_eq] at hload
  have hpure : ∀ (result : Except AssignError Settings) (machine : Machine),
      (pure result : StateM Machine _) machine = (result, machine) := fun _ _ => rfl
  rw [SettingsCommand.run, run_bind_of_ok hload, run_bind_of_ok (run_settingsPath hpath _)]
  cases hassign : settings.migrated.assign name text with
  | error e =>
    rw [run_bind_of_error (run_attempt_of_error (hpure _ _) _)]
    exact .refused rfl
  | ok assigned =>
    rw [run_bind_of_ok (run_attempt_of_ok (hpure _ _) _)]
    obtain ⟨tree, hsave, hread⟩ | ⟨e, machine', hsave, hwriting⟩ :=
      run_saveSettings path assigned { machine with log }
    · rw [run_bind_of_ok hsave]
      exact .saved (.document hpath hread (Settings.ofDocument?_document assigned))
    · rw [run_bind_of_error hsave]
      exact .unwritten hwriting

/-- One run of the program that assigns a setting. -/
structure Assignment (env : Environment) where
  /-- The arguments of the run. -/
  args : List String
  /-- The options among them. -/
  options : CommonOptions
  /-- The name of the setting. -/
  name : String
  /-- The text of its value. -/
  text : String
  /-- The arguments ask for the assignment. -/
  asks : Invocation.ofArguments env args = .ok { options, command := .settings (.assign name text) }
  /-- The time. -/
  clock : Timestamp
  /-- The ids that the system hands out. -/
  ids : Nat → String

/-- A call that writes has failed. -/
def Outcome.isSettingsWriteFailure : Outcome → Bool
  | .failed (.settings e) _ => e.isWriting
  | _ => false

namespace Assignment

/-- The run, which starts with these files. -/
def carryOut (assignment : Assignment env) (tree : Tree) : Outcome × Machine :=
  run (m := StateM Machine) env assignment.args
    { tree, clock := assignment.clock, ids := assignment.ids }

/-- How the run ends. -/
def outcome (assignment : Assignment env) (tree : Tree) : Outcome :=
  (assignment.carryOut tree).1

/-- The files after the run. -/
def filesAfter (assignment : Assignment env) (tree : Tree) : Tree :=
  (assignment.carryOut tree).2.tree

/-- The assignment is accepted and gives the key this value. -/
def Gives (assignment : Assignment env) (key : SettingKey) (value : SettingValue) : Prop :=
  key.name = assignment.name ∧ Means key assignment.text value

theorem carryOut_eq (assignment : Assignment env) (h : SettingsIn env tree settings) :
    ∃ (manner : Manner) (machine : Machine), machine.tree = tree ∧
      assignment.carryOut tree =
        (endingOf manner ((((SettingsCommand.assign assignment.name assignment.text).run
            (m := StateM Machine) env).run machine).1.mapError .settings),
          (((SettingsCommand.assign assignment.name assignment.text).run
            (m := StateM Machine) env).run machine).2) := by
  obtain ⟨log, hload⟩ := run_loadSettings env
    { tree, clock := assignment.clock, ids := assignment.ids }
  rw [h.settingsAt_eq] at hload
  refine ⟨Manner.of assignment.options settings.migrated,
    { tree, clock := assignment.clock, ids := assignment.ids, log }, rfl, ?_⟩
  rw [carryOut, run, assignment.asks]
  dsimp only
  rw [Invocation.run]
  dsimp only
  rw [bind_apply hload]
  rfl

/-- A run that is carried out sets one key and keeps the others; a run that is not changes no
file. -/
inductive Answers (assignment : Assignment env) (tree : Tree) (settings : Settings) : Prop
  | accepted {key : SettingKey} {value : SettingValue} {settings' : Settings} :
      assignment.Gives key value → (assignment.outcome tree).isFailure = false →
      SettingsIn env (assignment.filesAfter tree) settings' → settings'.get? key = some value →
      (∀ other, other ≠ key → settings'.get? other = settings.get? other) →
      Answers assignment tree settings
  | refused : (∀ key value, ¬ assignment.Gives key value) →
      (assignment.outcome tree).isFailure = true → assignment.filesAfter tree = tree →
      Answers assignment tree settings

theorem get?_migrated (settings : Settings) (key : SettingKey) :
    settings.migrated.get? key = settings.get? key := by
  cases key <;> rfl

/-- **One run sets one key or changes no file.** -/
theorem answers (assignment : Assignment env) (h : SettingsIn env tree settings)
    (hcalls : (assignment.outcome tree).isSettingsWriteFailure = false) :
    assignment.Answers tree settings := by
  obtain ⟨manner, machine, htree, hrun⟩ := assignment.carryOut_eq h
  rw [← htree] at h
  have hending := ending_assign h assignment.name assignment.text
  have hassigns := assigns_assign settings.migrated assignment.name assignment.text
  -- the run is the command, once the settings are loaded: its ending is the one to look at
  have houtcome := congrArg Prod.fst hrun
  have hfiles := congrArg (fun result => result.2.tree) hrun
  change assignment.outcome tree = _ at houtcome
  change assignment.filesAfter tree = _ at hfiles
  rw [houtcome] at hcalls
  generalize settings.migrated.assign assignment.name assignment.text = result at hending hassigns
  generalize ((SettingsCommand.assign assignment.name assignment.text).run
    (m := StateM Machine) env).run machine = ending at hending hcalls houtcome hfiles
  cases hending with
  | refused same =>
    have hfails : (assignment.outcome tree).isFailure = true := by
      rw [houtcome]
      rfl
    have hsame : assignment.filesAfter tree = tree := by
      rw [hfiles, same, htree]
    exact .refused (fun key value hgives => hassigns.not_means hgives.1 value hgives.2) hfails hsame
  | saved readable =>
    cases hassigns with
    | accepted hname hmeans hget hother _ =>
      have hsucceeds : (assignment.outcome tree).isFailure = false := by
        rw [houtcome]
        rfl
      rw [← hfiles] at readable
      refine .accepted ⟨hname, hmeans⟩ hsucceeds readable hget fun other hne => ?_
      rw [hother other hne, get?_migrated]
  | unwritten writing =>
    -- no call that writes has failed
    have hfalse := writing.symm.trans hcalls
    cases hfalse

end Assignment

/-! ### All assignments -/

/-- The files after some assignments, one after another. -/
def assignedFiles (tree : Tree) (assignments : List (Assignment env)) : Tree :=
  assignments.foldl (fun tree assignment => assignment.filesAfter tree) tree

/-- No call that writes fails. -/
def Unfailing : Tree → List (Assignment env) → Prop
  | _, [] => True
  | tree, assignment :: assignments =>
    (assignment.outcome tree).isSettingsWriteFailure = false ∧
      Unfailing (assignment.filesAfter tree) assignments

/-- The value of a key after some assignments: that of the last accepted one, or the one before all
of them. -/
inductive LastValue (key : SettingKey) (before : Option SettingValue) :
    List (Assignment env) → Option SettingValue → Prop
  | given (front : List (Assignment env)) {back : List (Assignment env)}
      {assignment : Assignment env} {value : SettingValue} : assignment.Gives key value →
      (∀ later ∈ back, ∀ value, ¬ later.Gives key value) →
      LastValue key before (front ++ assignment :: back) (some value)
  | kept {assignments : List (Assignment env)} :
      (∀ assignment ∈ assignments, ∀ value, ¬ assignment.Gives key value) →
      LastValue key before assignments before

section Assignments

variable {assignments : List (Assignment env)} {first : Assignment env} {key : SettingKey}
  {before after : Option SettingValue} {value : SettingValue}

theorem LastValue.cons_of_gives (hfirst : first.Gives key value)
    (h : LastValue key (some value) assignments after) :
    LastValue key before (first :: assignments) after := by
  cases h with
  | given front hgives hlater =>
    exact .given (first :: front) hgives hlater
  | kept hnone => exact .given [] hfirst hnone

theorem LastValue.cons_of_not_gives (hfirst : ∀ value, ¬ first.Gives key value)
    (h : LastValue key before assignments after) :
    LastValue key before (first :: assignments) after := by
  cases h with
  | given front hgives hlater =>
    exact .given (first :: front) hgives hlater
  | kept hnone => exact .kept (List.forall_mem_cons.mpr ⟨hfirst, hnone⟩)

/-- **After any number of assignments each key has its last value**, and the next assignment is
answered by the settings as they are then. -/
theorem lastValue_assignedFiles (h : SettingsIn env tree settings)
    (hcalls : Unfailing tree assignments) (n : Nat) :
    ∃ settings', SettingsIn env (assignedFiles tree (assignments.take n)) settings' ∧
      (∀ key, LastValue key (settings.get? key) (assignments.take n) (settings'.get? key)) ∧
      ∀ assignment, assignments[n]? = some assignment →
        assignment.Answers (assignedFiles tree (assignments.take n)) settings' := by
  induction assignments generalizing tree settings n with
  | nil =>
    rw [List.take_nil]
    refine ⟨settings, h, fun key => .kept fun _ hmem => absurd hmem List.not_mem_nil,
      fun assignment hassignment => ?_⟩
    rw [List.getElem?_nil] at hassignment
    cases hassignment
  | cons first assignments ih =>
    obtain ⟨hfirst, hrest⟩ := hcalls
    have hanswers := first.answers h hfirst
    cases n with
    | zero =>
      refine ⟨settings, h, fun key => .kept fun _ hmem => absurd hmem List.not_mem_nil,
        fun assignment hassignment => ?_⟩
      obtain rfl : first = assignment := Option.some.inj hassignment
      exact hanswers
    | succ n =>
      cases hanswers with
      | @accepted key value settings' hgives _ hsettings hget hother =>
        -- the rest starts with the settings that the first assignment leaves
        obtain ⟨settings'', hafter, hlast, hnext⟩ := ih hsettings hrest n
        refine ⟨settings'', hafter, fun other => ?_, hnext⟩
        by_cases hkey : other = key
        · have hlast := hlast other
          rw [hkey, hget] at hlast
          rw [hkey]
          exact hlast.cons_of_gives hgives
        · have hlast := hlast other
          rw [hother other hkey] at hlast
          refine hlast.cons_of_not_gives fun value hgives' => hkey ?_
          exact SettingKey.eq_of_name_eq (hgives'.1.trans hgives.1.symm)
      | refused hnone _ hsame =>
        rw [← hsame] at h
        obtain ⟨settings', hafter, hlast, hnext⟩ := ih h hrest n
        exact ⟨settings', hafter, fun key => (hlast key).cons_of_not_gives (hnone key), hnext⟩

/-- **Settings are a map in which the last assignment wins.**  Whatever the files hold at first, no
document of settings or one that can be read, and as long as the calls that write succeed: after any
number of assignments

* the settings are found in version 1, and each key has the value of the last assignment that was
  accepted, or the one before all of them;
* the next assignment succeeds if its text means a value of a setting, and otherwise it fails and
  leaves all files as they are. -/
theorem assignments_last_wins (h : SettingsIn env tree settings)
    (hcalls : Unfailing tree assignments) (n : Nat) :
    (∃ found, settingsAt env (assignedFiles tree (assignments.take n)) = .ok found ∧
        found.version = 1 ∧
        ∀ key, LastValue key (settings.get? key) (assignments.take n) (found.get? key)) ∧
      ∀ assignment, assignments[n]? = some assignment →
        ((∃ key value, assignment.Gives key value) →
          (assignment.outcome (assignedFiles tree (assignments.take n))).isFailure = false) ∧
        ((∀ key value, ¬ assignment.Gives key value) →
          (assignment.outcome (assignedFiles tree (assignments.take n))).isFailure = true ∧
            assignment.filesAfter (assignedFiles tree (assignments.take n)) =
              assignedFiles tree (assignments.take n)) := by
  obtain ⟨settings', hafter, hlast, hnext⟩ := lastValue_assignedFiles h hcalls n
  refine ⟨⟨settings'.migrated, hafter.settingsAt_eq, rfl, fun key => ?_⟩, fun assignment hn => ?_⟩
  · rw [Assignment.get?_migrated]
    exact hlast key
  · cases hnext assignment hn with
    | accepted hgives hsucceeds =>
      exact ⟨fun _ => hsucceeds, fun hnone => absurd hgives (hnone _ _)⟩
    | refused hnone hfails hsame =>
      exact ⟨fun ⟨key, value, hgives⟩ => absurd hgives (hnone key value), fun _ => ⟨hfails, hsame⟩⟩

end Assignments

/-- A document of an older version without sections. -/
def errandsSettingsFiles : Tree where
  entries := [(["td.toml"], .file "version = 0\ndefault_list = 'Work'".toUTF8)]

/-- A step is assigned. -/
def stepWidened : Assignment errandsEnvironment where
  args := ["config", "set", "ordering.step", " +64 "]
  options := { store := some "todos.json" }
  name := "ordering.step"
  text := " +64 "
  asks := by rfl
  clock := Timestamp.epoch
  ids := fun _ => "0"

/-- There is no step of zero. -/
def stepRemoved : Assignment errandsEnvironment where
  args := ["config", "set", "ordering.step", "0"]
  options := { store := some "todos.json" }
  name := "ordering.step"
  text := "0"
  asks := by rfl
  clock := Timestamp.epoch
  ids := fun _ => "1"

/-- Another step is assigned. -/
def stepDoubled : Assignment errandsEnvironment where
  args := ["config", "set", "ordering.step", "128"]
  options := { store := some "todos.json" }
  name := "ordering.step"
  text := "128"
  asks := by rfl
  clock := Timestamp.epoch
  ids := fun _ => "2"

theorem unfailing_steps :
    Unfailing errandsSettingsFiles [stepWidened, stepRemoved, stepDoubled] :=
  ⟨by decide +kernel, by decide +kernel, by decide +kernel, trivial⟩

/-- The second step is refused, the third one wins, and the list is kept. -/
theorem assignments_last_wins_errands :
    let before : Settings := { version := 0, defaultList := some "Work" }
    let after : Settings := { defaultList := some "Work", step := some 128 }
    let steps := [stepWidened, stepRemoved, stepDoubled]
    SettingsIn errandsEnvironment errandsSettingsFiles before ∧
      Unfailing errandsSettingsFiles steps ∧
      settingsAt errandsEnvironment (assignedFiles errandsSettingsFiles steps) = .ok after ∧
      (∀ key, LastValue key (before.get? key) steps (after.get? key)) ∧
      stepRemoved.filesAfter (assignedFiles errandsSettingsFiles [stepWidened]) =
        assignedFiles errandsSettingsFiles [stepWidened] := by
  intro before after steps
  have hread : errandsSettingsFiles.readText (Path.ofString "td.toml") =
      .ok "version = 0\ndefault_list = 'Work'" := by decide +kernel
  have hbefore : SettingsIn errandsEnvironment errandsSettingsFiles before :=
    .document (by rfl) hread (by decide +kernel)
  have hafter : settingsAt errandsEnvironment (assignedFiles errandsSettingsFiles steps) =
      .ok after := by decide +kernel
  have hrefused : ({} : Settings).assign stepRemoved.name stepRemoved.text =
      .error (.notAStep .step "0") := by decide +kernel
  have hassigns := assigns_assign {} stepRemoved.name stepRemoved.text
  rw [hrefused] at hassigns
  obtain ⟨⟨found, hfound, -, hlast⟩, -⟩ := assignments_last_wins hbefore unfailing_steps 3
  obtain rfl : found = after := Except.ok.inj (hfound.symm.trans hafter)
  obtain ⟨-, hnext⟩ := assignments_last_wins hbefore unfailing_steps 1
  obtain ⟨-, hkept⟩ := hnext stepRemoved rfl
  obtain ⟨-, hsame⟩ := hkept fun key value hgives => hassigns.not_means hgives.1 value hgives.2
  exact ⟨hbefore, unfailing_steps, hafter, hlast, hsame⟩

end Agenda

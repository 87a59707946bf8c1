/-
Agenda/Program/Run.lean

One run of the program: from the arguments and the environment to what is
printed and the exit code.  The settings are read first.  A command on the
store then reads the store, acts on it, and saves it if it has changed.

Commands that need no store also work when the settings cannot be read.
-/
import Agenda.Program.Action
import Agenda.Program.Failure
import Agenda.Settings.Document

namespace Agenda

open CommandLine

/-- How a run ends. -/
inductive Outcome where
  /-- The command line is not carried out. -/
  | usage (problem : Problem)
  /-- The command is carried out. -/
  | done (output : String)
  /-- A script for a shell is asked for. -/
  | completions (shell : String)
  /-- The command fails. -/
  | failed (failure : Failure) (json : Bool)

/-- How answers are told. -/
structure Manner where
  /-- In JSON. -/
  json : Bool
  /-- With colours. -/
  colors : Bool
  /-- Not at all, unless in JSON. -/
  quiet : Bool
  /-- With more words. -/
  verbose : Bool
deriving DecidableEq, Repr

/-- The manner that options and settings ask for.  Colours are on unless one of them turns them
off. -/
def Manner.of (options : CommonOptions) (settings : Settings) : Manner where
  json := options.json
  colors := !options.noColor && settings.color.getD true
  quiet := options.quiet
  verbose := options.verbose

/-- What is printed for an outline. -/
def Manner.tell (manner : Manner) (outline : Outline) : String :=
  if manner.json then outline.toJson.pretty ++ "\n"
  else if manner.quiet && !outline.isWanted then ""
  else outline.text manner.colors manner.verbose

/-- What is printed without a command. -/
def greeting : String :=
  "td - ordered todo lists\nUse --help for usage information\n"

section

variable {m : Type → Type} [Monad m] [Host m]

/-! ### Settings -/

/-- The place of the settings. -/
def settingsPath (env : Environment) : ExceptT SettingsError m Path :=
  match env.settingsPath? with
  | some path => pure path
  | none => throw .noDirectory

/-- Reads the settings; there are none if there is no file. -/
def loadSettings (env : Environment) : ExceptT SettingsError m Settings := do
  let path ← settingsPath env
  if ← Files.isThere (m := m) path then
    let text ← attempt .read (Files.readText path)
    match Settings.ofDocument? text with
    | some settings => return settings.migrated
    | none => throw .document
  else
    Host.log (m := m) (.noSettings path)
    return {}

/-- Writes the settings. -/
def saveSettings (path : Path) (settings : Settings) : ExceptT SettingsError m Unit := do
  if let some dir := path.parent? then
    attempt .createDirectory (Files.createDirectories dir)
  attempt .write (Files.writeText path settings.document)

/-- Carries out a command on the settings. -/
def SettingsCommand.run (env : Environment) (command : SettingsCommand) :
    ExceptT SettingsError m Outline := do
  match command with
  | .overview =>
    let settings ← loadSettings env
    let path ← settingsPath env
    return .settings path.toString (← Files.isThere (m := m) path) settings
  | .assign key value =>
    let settings ← loadSettings env
    let path ← settingsPath env
    let settings ← attempt (m := m) .assign (pure (settings.assign key value))
    saveSettings path settings
    return .assigned path.toString key value
  | .path =>
    let path ← settingsPath env
    return .settingsPath path.toString (← Files.isThere (m := m) path)

/-! ### The store -/

/-- The place of the store: that of the options, of the settings, or the default one. -/
def storePath? (env : Environment) (options : CommonOptions) (settings : Settings) :
    Option Path :=
  ((options.store.or settings.storePath).map Path.ofString).or env.storePath?

/-- The list to work on: that of the options, of the settings, or the inbox. -/
def listName (options : CommonOptions) (settings : Settings) : String :=
  (options.list.or settings.defaultList).getD inboxId

/-- Brings a step on the store at `path` to its end: notes what there is to note, and saves the
store if it has to be saved. -/
def Step.conclude (step : Step) (path : Path) : ExceptT Failure m Outline := do
  step.events.forM fun event => Host.log (m := m) event
  if step.saves then
    let _ ← attempt .storeFile (StoreFile.save path step.store)
  return step.outline

/-- Carries out a command on the store at `path`. -/
def StoreCommand.runAt (command : StoreCommand) (path : Path) (options : CommonOptions)
    (settings : Settings) : ExceptT Failure m Outline := do
  Host.log (m := m) (.openingStore path)
  let loaded ← attempt .storeFile (StoreFile.loadOrInitial path)
  let store := { loaded with spacing := settings.spacing }
  let list ← attempt (m := m) .store (pure (store.resolveList (listName options settings)))
  let scope : Scope :=
    { listId := list.id, newId := ← Host.newId (m := m), verbose := options.verbose }
  let step ← attempt (m := m) .store (pure (command.act scope store))
  step.conclude path

/-- Carries out a command on the store. -/
def StoreCommand.run (env : Environment) (command : StoreCommand) (options : CommonOptions)
    (settings : Settings) : ExceptT Failure m Outline :=
  match storePath? env options settings with
  | some path => command.runAt path options settings
  | none => throw (.storeFile .noDataDirectory)

/-! ### Runs -/

/-- How a command ends that has this to tell. -/
def endingOf (manner : Manner) : Except Failure Outline → Outcome
  | .ok outline => .done (manner.tell outline)
  | .error failure => .failed failure manner.json

/-- Carries out a command. -/
def Invocation.run (env : Environment) (invocation : Invocation) : m Outcome := do
  let options := invocation.options
  let loaded ← (loadSettings (m := m) env).run
  match invocation.command, loaded with
  | .store _, .error error => return .failed (.settings error) options.json
  | .store command, .ok settings =>
    return endingOf (Manner.of options settings) (← (command.run env options settings).run)
  | .settings command, loaded =>
    let manner := Manner.of options (loaded.toOption.getD {})
    return endingOf manner ((← (command.run env).run).mapError .settings)
  | .completions shell, _ => return .completions shell
  | .greeting, _ => return .done (if options.quiet then "" else greeting)

/-- One run of the program. -/
def run (env : Environment) (args : List String) : m Outcome :=
  match Invocation.ofArguments env args with
  | .error problem => return .usage problem
  | .ok invocation => invocation.run env

end

/-! ### What the system gets back -/

namespace Outcome

/-- The exit code of the program. -/
def exitCode : Outcome → Nat
  | .usage problem => if problem.isRequest then 0 else 2
  | .done _ | .completions _ => 0
  | .failed failure _ => failure.exitCode

/-- What is told about a failure. -/
def complaint : Outcome → String
  | .failed failure true => failure.toJson.pretty ++ "\n"
  | .failed failure false => "Error: " ++ failure.message ++ "\n"
  | _ => ""

end Outcome

end Agenda

/-
Agenda/Host.lean

What the program asks of the system it runs on: files, the time, ids that
nobody has used yet, a place for its log, and the environment that it was
started in.
-/
import Agenda.Files.Access
import Agenda.Log
import Agenda.Timestamp

namespace Agenda

/-- The services of a system. -/
class Host (m : Type → Type) extends Files m where
  /-- The time. -/
  now : m Timestamp
  /-- An id that was never given out before. -/
  newId : m String
  /-- Notes an event in the log. -/
  log : LogEvent → m Unit

/-- A call that may fail, with its fault told in the words of the caller. -/
def attempt {m : Type → Type} [Monad m] {ε ε' α : Type} (explain : ε → ε')
    (call : m (Except ε α)) : ExceptT ε' m α :=
  ExceptT.mk ((Except.mapError explain) <$> call)

/-! ### The environment -/

/-- What the program is told by the environment it is started in. -/
structure Environment where
  /-- The variables that are set. -/
  bindings : List (String × String) := []
  /-- The home directory on record for the account, used when no variable names one. -/
  accountHome : Option String := none
deriving DecidableEq, Repr

namespace Environment

/-- The value of a variable, if it is set. -/
def get? (env : Environment) (name : String) : Option String :=
  env.bindings.lookup name

/-- The home directory. -/
def home? (env : Environment) : Option Path :=
  (((env.get? "HOME").filter fun home => !home.isEmpty).or env.accountHome).map Path.ofString

/-- The directory for data files; a relative path is not accepted for it. -/
def dataHome? (env : Environment) : Option Path :=
  env.home?.map fun home =>
    (((env.get? "XDG_DATA_HOME").map Path.ofString).filter Path.isAbsolute).getD
      ((home.join ".local").join "share")

/-- The default place of the store. -/
def storePath? (env : Environment) : Option Path :=
  env.dataHome?.map fun dir => (dir.join "td").join "todos.json"

/-- The place of the settings. -/
def settingsPath? (env : Environment) : Option Path :=
  match env.get? "TD_CONFIG", env.get? "XDG_CONFIG_HOME" with
  | some path, _ => some (Path.ofString path)
  | none, some dir => some (((Path.ofString dir).join "td").join "config.toml")
  | none, none => env.home?.map fun home => ((home.join ".config").join "td").join "config.toml"

/-- How much the program tells about its work. -/
def logLevel (env : Environment) (verbose quiet : Bool) : LogLevel :=
  match env.get? "TD_LOG" with
  | some name => (LogLevel.ofName? name).getD .error
  | none => LogLevel.ofOptions verbose quiet

end Environment

end Agenda

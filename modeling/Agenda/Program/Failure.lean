/-
Agenda/Program/Failure.lean

Why a command fails: its message, its code and the exit code of the program.
-/
import Agenda.Json.Value
import Agenda.Settings.Assign
import Agenda.Store.Error
import Agenda.Store.File

namespace Agenda

/-- Why the settings are not read or written. -/
inductive SettingsError where
  /-- There is no place for the settings. -/
  | noDirectory
  /-- The file cannot be read. -/
  | read (fault : FileFault)
  /-- The file does not contain settings. -/
  | document
  /-- The directory of the file cannot be created. -/
  | createDirectory (fault : FileFault)
  /-- The file cannot be written. -/
  | write (fault : FileFault)
  /-- The assignment is refused. -/
  | assign (error : AssignError)
deriving DecidableEq, Repr

/-- The message for people. -/
def SettingsError.message : SettingsError → String
  | .noDirectory => "Could not determine config directory"
  | .read fault => "Failed to read config: " ++ fault.message
  | .document => "Failed to parse config"
  | .createDirectory fault => "Failed to create config directory: " ++ fault.message
  | .write fault => "Failed to write config: " ++ fault.message
  | .assign error => error.message

/-- Why a command fails. -/
inductive Failure where
  /-- An action on the store or a look-up in it fails. -/
  | store (error : StoreError)
  /-- The store is not read or written. -/
  | storeFile (error : StoreFileError)
  /-- The settings are not read or written. -/
  | settings (error : SettingsError)
deriving DecidableEq, Repr

namespace Failure

/-- The message for people. -/
def message : Failure → String
  | .store error => error.message
  | .storeFile error => "store file error: " ++ error.message
  | .settings error => "configuration error: " ++ error.message

/-- The code for programs. -/
def code : Failure → String
  | .store (.listNotFound ..) => "LIST_NOT_FOUND"
  | .store (.itemNotFound _) => "ITEM_NOT_FOUND"
  | .store (.notInView _) => "NOT_IN_VIEW"
  | .store (.ambiguousItem ..) => "AMBIGUOUS_ITEM"
  | .store (.invalidListName ..) => "INVALID_LIST_NAME"
  | .store (.protectedList _) => "PROTECTED_LIST"
  | .storeFile _ => "STORE_FILE_ERROR"
  | .settings _ => "CONFIG_ERROR"

/-- The exit code of the program. -/
def exitCode : Failure → Nat
  | .store (.invalidListName ..) | .store (.protectedList _) => 2
  | .store _ => 4
  | .storeFile _ | .settings _ => 5

/-- The failure as a JSON value. -/
def toJson (failure : Failure) : Json.Value :=
  .obj [("error", .obj [("code", .str failure.code), ("message", .str failure.message)])]

end Failure

end Agenda

/-
Agenda/Store/File.lean

The file of a store.  A store is saved in two steps: its document is written
to a temporary file in the same directory, and that file then takes the place
of the old one.  So the old document is there until the new one is complete.
-/
import Agenda.Host
import Agenda.Store.Document

namespace Agenda

/-! ### Errors -/

/-- Why a store is not read or written. -/
inductive StoreFileError where
  /-- There is no home directory, so there is no default place for the store. -/
  | noDataDirectory
  /-- The file cannot be read. -/
  | read (path : Path) (fault : FileFault)
  /-- The file cannot be written. -/
  | write (path : Path) (fault : FileFault)
  /-- The directory of the file cannot be created. -/
  | createDirectory (path : Path) (fault : FileFault)
  /-- The file cannot be removed. -/
  | remove (path : Path) (fault : FileFault)
  /-- The file does not contain a store. -/
  | document (fault : Json.Fault)
deriving DecidableEq, Repr

/-- The message for people. -/
def StoreFileError.message : StoreFileError → String
  | .noDataDirectory => "failed to determine data directory: no valid home directory found"
  | .read path fault => "failed to read store file '" ++ path.toString ++ "': " ++ fault.message
  | .write path fault => "failed to write store file '" ++ path.toString ++ "': " ++ fault.message
  | .createDirectory path fault =>
    "failed to create data directory '" ++ path.toString ++ "': " ++ fault.message
  | .remove path fault => "failed to delete store file '" ++ path.toString ++ "': " ++ fault.message
  | .document fault => "JSON error: " ++ fault.message

/-! ### Calls -/

namespace StoreFile

variable {m : Type → Type} [Monad m] [Host m]

/-- The file that a document is written to before it takes the place of the store at `path`. -/
def temporary (path : Path) : Path :=
  path.withExtension "json.tmp"

/-- The directory that has to be there for the store at `path`. -/
def directory? (path : Path) : Option Path :=
  path.parent?.filter fun dir => !dir.isEmpty

/-- The store that a document stands for; an inbox is put into it if there is none. -/
def parse (path : Path) (text : String) : ExceptT StoreFileError m Store := do
  let store ← attempt .document (pure (Store.ofDocument text))
  if !store.hasList inboxId then
    Host.log (m := m) (.restoredInbox path)
  return store.withInbox

/-- Reads a store. -/
def load (path : Path) : ExceptT StoreFileError m Store := do
  let text ← attempt (.read path) (Files.readText path)
  parse path text

/-- Reads a store, or starts with the initial one if there is no file. -/
def loadOrInitial (path : Path) : ExceptT StoreFileError m Store := ExceptT.mk do
  match ← (load path).run with
  | .error (.read _ .notFound) =>
    Host.log (.startingEmpty path)
    return .ok Store.initial
  | result => return result

/-- Creates the directory of the store at `path`. -/
def makeDirectory (path : Path) : ExceptT StoreFileError m Unit := do
  if let some dir := directory? path then
    attempt (.createDirectory dir) (Files.createDirectories dir)

/-- Puts the document of a store in the place of the file at `path`. -/
def replace (path : Path) (store : Store) : ExceptT StoreFileError m Unit := do
  attempt (.write (temporary path)) (Files.writeText (temporary path) store.document)
  attempt (.write path) (Files.rename (temporary path) path)
  Host.log (m := m) (.savedStore path store.items.length)

/-- Saves a store with the present time.  The caller's store, which is returned in any case, bears
that time as soon as there is a directory to save it in. -/
def saveHeld (path : Path) (store : Store) : m (Except StoreFileError Unit × Store) := do
  match ← (makeDirectory path).run with
  | .error e => return (.error e, store)
  | .ok () =>
    let store := store.stamped (← Host.now)
    return (← (replace path store).run, store)

/-- Saves a store with the present time, and returns it as saved. -/
def save (path : Path) (store : Store) : ExceptT StoreFileError m Store := ExceptT.mk do
  let (result, store) ← saveHeld path store
  return result.map fun _ => store

/-- Removes the file of a store; it is no failure if there is none. -/
def delete (path : Path) : ExceptT StoreFileError m Unit := ExceptT.mk do
  match ← Files.remove path with
  | .error .notFound => return .ok ()
  | result => return result.mapError (.remove path)

end StoreFile

end Agenda

/-
Agenda/Files/Tree.lean

A tree of directories and files in memory.  A path is followed part by part
from the root or from the current directory: every part but the last one has
to lead to a directory, a single dot stays where it is, and two dots lead back
to the directory before.  A path that ends in a slash asks for a directory.
-/
import Agenda.Files.Access

namespace Agenda

/-- The names that lead from the root to a file or directory. -/
abbrev Location := List String

/-- What is at a location. -/
inductive Entry where
  /-- A file with its content. -/
  | file (content : ByteArray)
  /-- A directory. -/
  | directory

/-- A tree of directories and files. -/
structure Tree where
  /-- The entries below the root, each at one location. -/
  entries : List (Location × Entry) := []
  /-- The current directory. -/
  here : Location := []

/-- What a path leads to. -/
inductive Target where
  /-- A name in a directory; `asDirectory` if the path ends in a slash. -/
  | entry (location : Location) (asDirectory : Bool)
  /-- A directory that the path does not name. -/
  | directory (location : Location)
deriving DecidableEq, Repr

namespace Tree

/-! ### Entries -/

/-- What is at a location; the root is a directory. -/
def get? (tree : Tree) (location : Location) : Option Entry :=
  if location = [] then some .directory else tree.entries.lookup location

/-- There is a directory at a location. -/
def hasDirectory (tree : Tree) (location : Location) : Bool :=
  match tree.get? location with
  | some .directory => true
  | _ => false

/-- The tree with nothing at a location. -/
def erase (tree : Tree) (location : Location) : Tree :=
  { tree with entries := tree.entries.filter fun entry => !decide (entry.1 = location) }

/-- The tree with an entry at a location. -/
def put (tree : Tree) (location : Location) (entry : Entry) : Tree :=
  { tree with entries := (location, entry) :: (tree.erase location).entries }

/-- Entries at other locations do not matter to a look-up. -/
theorem lookup_filter_ne {a b : Location} (h : a ≠ b) (entries : List (Location × Entry)) :
    (entries.filter fun entry => !decide (entry.1 = b)).lookup a = entries.lookup a := by
  induction entries with
  | nil => rfl
  | cons entry entries ih =>
    obtain ⟨c, e⟩ := entry
    by_cases hc : c = b
    · subst hc
      have : (a == c) = false := by simp [h]
      simp [List.lookup_cons, this, ih]
    · by_cases ha : a = c
      · subst ha; simp [hc]
      · have : (a == c) = false := by simp [ha]
        simp [hc, List.lookup_cons, this, ih]

/-- Nothing is left at a location that was erased. -/
theorem lookup_filter_self (a : Location) (entries : List (Location × Entry)) :
    (entries.filter fun entry => !decide (entry.1 = a)).lookup a = none := by
  induction entries with
  | nil => rfl
  | cons entry entries ih =>
    obtain ⟨c, e⟩ := entry
    by_cases hc : c = a
    · simp [hc, ih]
    · have : (a == c) = false := by simp [Ne.symm hc]
      simp [hc, List.lookup_cons, this, ih]

@[simp] theorem get?_root (tree : Tree) : tree.get? [] = some .directory := rfl

/-- Nothing is at a location after it is erased. -/
theorem get?_erase_self (tree : Tree) {location : Location} (h : location ≠ []) :
    (tree.erase location).get? location = none := by
  simp [get?, erase, h, lookup_filter_self]

/-- All other locations stay as they are when one is erased. -/
theorem get?_erase_of_ne (tree : Tree) {a b : Location} (h : a ≠ b) :
    (tree.erase b).get? a = tree.get? a := by
  simp [get?, erase, lookup_filter_ne h]

/-- What was put at a location is there. -/
theorem get?_put_self (tree : Tree) {location : Location} (entry : Entry) (h : location ≠ []) :
    (tree.put location entry).get? location = some entry := by
  simp [get?, put, h]

/-- All other locations stay as they are when something is put at one. -/
theorem get?_put_of_ne (tree : Tree) {a b : Location} (entry : Entry) (h : a ≠ b) :
    (tree.put b entry).get? a = tree.get? a := by
  have : (a == b) = false := by simp [h]
  simp [get?, put, erase, List.lookup_cons, this, lookup_filter_ne h]

/-! ### Following paths -/

/-- The longest name, in bytes. -/
def maxName : Nat := 255

/-- The longest path, in bytes. -/
def maxPath : Nat := 4095

/-- Where a path starts. -/
def startOf (tree : Tree) (path : Path) : Location :=
  if path.isAbsolute then [] else tree.here

/-- The problem with the text of a path, if there is one. -/
def textFault? (path : Path) : Option FileFault :=
  let text := path.toString
  if text.toList.contains (Char.ofNat 0) then some .zeroByte
  else if text.isEmpty then some .notFound
  else if maxPath < text.utf8ByteSize then some .nameTooLong
  else none

/-- One part further, to a directory. -/
def descend (tree : Tree) (location : Location) (part : String) : Except FileFault Location :=
  if part = "." then .ok location
  else if part = ".." then .ok location.dropLast
  else if maxName < part.utf8ByteSize then .error .nameTooLong
  else
    match tree.get? (location ++ [part]) with
    | none => .error .notFound
    | some (.file _) => .error .notADirectory
    | some .directory => .ok (location ++ [part])

/-- The target of a last part that follows a directory. -/
def targetAt (location : Location) (part : String) (asDirectory : Bool) :
    Except FileFault Target :=
  if part = "." then .ok (.directory location)
  else if part = ".." then .ok (.directory location.dropLast)
  else if maxName < part.utf8ByteSize then .error .nameTooLong
  else .ok (.entry (location ++ [part]) asDirectory)

/-- What a path leads to.  All parts but the last one have to be directories. -/
def locate (tree : Tree) (path : Path) : Except FileFault Target :=
  match textFault? path with
  | some fault => .error fault
  | none =>
    let parts := path.parts.filter (· != "")
    match parts.getLast? with
    | none => .ok (.directory (tree.startOf path))
    | some last =>
      (parts.dropLast.foldlM tree.descend (tree.startOf path)).bind fun location =>
        targetAt location last (path.parts.getLast? == some "")

/-! ### Calls -/

/-- There is a file or a directory at the path. -/
def isThere (tree : Tree) (path : Path) : Bool :=
  match tree.locate path with
  | .error _ => false
  | .ok (.directory _) => true
  | .ok (.entry location asDirectory) =>
    match tree.get? location with
    | none => false
    | some .directory => true
    | some (.file _) => !asDirectory

/-- The content of a file. -/
def readText (tree : Tree) (path : Path) : Except FileFault String :=
  match tree.locate path with
  | .error fault => .error fault
  | .ok (.directory _) => .error .isADirectory
  | .ok (.entry location asDirectory) =>
    match tree.get? location with
    | none => .error .notFound
    | some .directory => .error .isADirectory
    | some (.file content) =>
      if asDirectory then .error .notADirectory
      else
        match String.fromUTF8? content with
        | some text => .ok text
        | none => .error .notText

/-- The tree with this text in a file. -/
def writeText (tree : Tree) (path : Path) (text : String) : Except FileFault Tree :=
  match tree.locate path with
  | .error fault => .error fault
  | .ok (.directory _) => .error .isADirectory
  | .ok (.entry location asDirectory) =>
    if asDirectory || tree.hasDirectory location then .error .isADirectory
    else .ok (tree.put location (.file text.toUTF8))

/-- The tree with a file moved to another path.  Directories are not moved. -/
def rename (tree : Tree) (source target : Path) : Except FileFault Tree :=
  match tree.locate source, tree.locate target with
  | .error fault, _ => .error fault
  | _, .error fault => .error fault
  | .ok (.entry source sourceAsDirectory), .ok (.entry target targetAsDirectory) =>
    match tree.get? source with
    | none => .error .notFound
    | some .directory => .error .isADirectory
    | some (.file content) =>
      if sourceAsDirectory || targetAsDirectory then .error .notADirectory
      else if tree.hasDirectory target then .error .isADirectory
      else .ok ((tree.erase source).put target (.file content))
  | _, _ => .error .busy

/-- The tree without the file at the path. -/
def remove (tree : Tree) (path : Path) : Except FileFault Tree :=
  match tree.locate path with
  | .error fault => .error fault
  | .ok (.directory _) => .error .isADirectory
  | .ok (.entry location asDirectory) =>
    match tree.get? location with
    | none => .error .notFound
    | some .directory => .error .isADirectory
    | some (.file _) => if asDirectory then .error .notADirectory else .ok (tree.erase location)

/-- Goes from one directory to the next and creates those that are missing.  What was created
stays when a later part cannot be reached. -/
def createBelow (tree : Tree) (location : Location) : List String → Except FileFault Unit × Tree
  | [] => (.ok (), tree)
  | part :: rest =>
    if part = "." then tree.createBelow location rest
    else if part = ".." then tree.createBelow location.dropLast rest
    else if maxName < part.utf8ByteSize then (.error .nameTooLong, tree)
    else
      let next := location ++ [part]
      match tree.get? next with
      | none => (tree.put next .directory).createBelow next rest
      | some .directory => tree.createBelow next rest
      | some (.file _) =>
        (.error (if rest.isEmpty then .alreadyExists else .notADirectory), tree)

/-- Creates a directory, and first those that it lies in, as far as they are missing.  For the
empty path there is nothing to do. -/
def createDirectories (tree : Tree) (path : Path) : Except FileFault Unit × Tree :=
  if path.isEmpty then (.ok (), tree)
  else
    match textFault? path with
    | some fault => (.error fault, tree)
    | none => tree.createBelow (tree.startOf path) (path.parts.filter (· != ""))

end Tree

end Agenda

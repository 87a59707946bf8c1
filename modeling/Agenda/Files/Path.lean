/-
Agenda/Files/Path.lean

Paths of files, as they are written: parts between slashes.  Empty parts and
single dots name nothing, except that a path may begin with a dot; they are
kept inside of a path and dropped from its end when a name is looked for there.
-/

namespace Agenda

/-- A path as it is written. -/
structure Path where
  /-- It begins with a slash. -/
  isAbsolute : Bool
  /-- The parts between the slashes; what comes before the first slash of an absolute path is not
  one of them. -/
  parts : List String
deriving DecidableEq, Repr

namespace Path

/-! ### Text -/

/-- The parts of a text between the slashes. -/
def splitSlashes (cs : List Char) : List String :=
  (cs.splitOn '/').map String.ofList

/-- The path that is written like this. -/
def ofString (s : String) : Path :=
  match s.toList with
  | '/' :: cs => { isAbsolute := true, parts := splitSlashes cs }
  | cs => { isAbsolute := false, parts := splitSlashes cs }

/-- The text of the path. -/
def toString (path : Path) : String :=
  (if path.isAbsolute then "/" else "") ++ "/".intercalate path.parts

instance : ToString Path := ⟨Path.toString⟩

/-! ### Parts at the end -/

/-- The part names nothing, unless it begins the path. -/
def isIdle (part : String) : Bool :=
  part = "" || part = "."

/-- The first part names nothing. -/
def isIdleFirst (path : Path) (part : String) : Bool :=
  part = "" || (path.isAbsolute && part = ".")

/-- The parts without those at the end that name nothing. -/
def dropIdleEnd (parts : List String) : List String :=
  (parts.reverse.dropWhile isIdle).reverse

/-- The parts up to the last one that names something. -/
def namedParts (path : Path) : List String :=
  match path.parts with
  | [] => []
  | first :: rest =>
    match dropIdleEnd rest with
    | [] => if path.isIdleFirst first then [] else [first]
    | rest => first :: rest

/-- The path names nothing and is not the root. -/
def isEmpty (path : Path) : Bool :=
  !path.isAbsolute && path.namedParts.isEmpty

/-- The directory that holds what the path names. -/
def parent? (path : Path) : Option Path :=
  match path.namedParts with
  | [] => none
  | parts =>
    some { path with parts := namedParts { path with parts := parts.dropLast } }

/-- The name of a file at the end of the path. -/
def fileName? (path : Path) : Option String :=
  path.namedParts.getLast?.filter fun name => name != "." && name != ".."

/-! ### Building paths -/

/-- A name in the directory at this path. -/
def join (path : Path) (name : String) : Path :=
  let parts := if path.parts.getLast? = some "" then path.parts.dropLast else path.parts
  { path with parts := parts ++ [name] }

/-- The name without its last extension: the last dot and what follows it, unless the name begins
with that dot. -/
def stem (name : String) : String :=
  match name.toList.reverse.span (· != '.') with
  | (_, _ :: base) => if base.isEmpty then name else String.ofList base.reverse
  | (_, []) => name

/-- The path with the last extension of its file name replaced.

The old extension is cut off from the end of the path, and then the name is looked for again.  Of
two dots and an extension two dots are left, which are no name to extend: the path then ends with
them. -/
def withExtension (path : Path) (ext : String) : Path :=
  match path.fileName? with
  | some name =>
    let base :=
      if stem name = "." && path.parts.getLast? = some name then ".." else stem name ++ "." ++ ext
    { path with parts := path.namedParts.dropLast ++ [base] }
  | none => path

end Path

end Agenda

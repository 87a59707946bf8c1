/-
Agenda/Files/Access.lean

Access to files: the calls that the program makes on the system it runs on,
and the reasons why they fail.
-/
import Agenda.Files.Path

namespace Agenda

/-- Why a call on a file fails. -/
inductive FileFault where
  /-- There is nothing at the path. -/
  | notFound
  /-- There is something at the path already. -/
  | alreadyExists
  /-- A part of the path that should be a directory is none. -/
  | notADirectory
  /-- There is a directory at the path. -/
  | isADirectory
  /-- The path names something that cannot be replaced. -/
  | busy
  /-- The path or a part of it is too long. -/
  | nameTooLong
  /-- The path contains a zero byte. -/
  | zeroByte
  /-- The content is not text in UTF-8. -/
  | notText
  /-- Another problem, in words. -/
  | other (description : String)
deriving DecidableEq, Repr

/-- The problem in words, with the system's number for it if it has one. -/
def FileFault.message : FileFault → String
  | .notFound => "No such file or directory (os error 2)"
  | .alreadyExists => "File exists (os error 17)"
  | .notADirectory => "Not a directory (os error 20)"
  | .isADirectory => "Is a directory (os error 21)"
  | .busy => "Device or resource busy (os error 16)"
  | .nameTooLong => "File name too long (os error 36)"
  | .zeroByte => "file name contained an unexpected NUL byte"
  | .notText => "stream did not contain valid UTF-8"
  | .other description => description

/-- The calls on files. -/
class Files (m : Type → Type) where
  /-- There is a file or a directory at the path. -/
  isThere : Path → m Bool
  /-- The content of a file. -/
  readText : Path → m (Except FileFault String)
  /-- Creates a file with this content, or replaces the content of the file. -/
  writeText : Path → String → m (Except FileFault Unit)
  /-- Moves a file from the first path to the second one and replaces what is there. -/
  rename : Path → Path → m (Except FileFault Unit)
  /-- Removes a file. -/
  remove : Path → m (Except FileFault Unit)
  /-- Creates a directory, and first those that it lies in, as far as they are missing. -/
  createDirectories : Path → m (Except FileFault Unit)

end Agenda

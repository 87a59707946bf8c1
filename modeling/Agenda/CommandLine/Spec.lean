/-
Agenda/CommandLine/Spec.lean

What a command line may look like: a tree of commands, each with options and
with values at fixed positions.  Every command also understands `--help` and
`--version`, and a command with subcommands understands `help`.
-/
import Agenda.Text.Digits

namespace Agenda.CommandLine

/-! ### Values -/

/-- What a value has to be. -/
inductive ValueKind where
  /-- Any text. -/
  | text
  /-- A text that is not empty. -/
  | path
  /-- A natural number of 64 bits. -/
  | index
  /-- One of some words. -/
  | choice (words : List String)
deriving DecidableEq, Repr

/-- The number that is written by digits, perhaps after a plus, if it has 64 bits. -/
def indexOf? (s : String) : Option Nat :=
  (Text.natural? s.toList).filter fun n => n < UInt64.size

/-! ### Problems -/

/-- Why a command line is not carried out. -/
inductive Problem where
  /-- It asks for help. -/
  | displayHelp
  /-- It asks for the version. -/
  | displayVersion
  /-- There is no such option, or no room for another value. -/
  | unknownArgument
  /-- A value is missing. -/
  | missingArgument
  /-- There is no such command. -/
  | unknownCommand
  /-- A value is empty, or not one of the words it may be. -/
  | invalidValue
  /-- A value is not a number. -/
  | notANumber
  /-- An option is given twice, or together with one that excludes it. -/
  | conflict
  /-- An option that takes no value is given one. -/
  | unexpectedValue
deriving DecidableEq, Repr

/-- Help and the version are what was asked for; all else is a mistake. -/
def Problem.isRequest : Problem → Bool
  | .displayHelp | .displayVersion => true
  | _ => false

/-- The problem with a value, if there is one. -/
def ValueKind.problem? (kind : ValueKind) (s : String) : Option Problem :=
  match kind with
  | .text => none
  | .path => if s.isEmpty then some .invalidValue else none
  | .index => if (indexOf? s).isNone then some .notANumber else none
  | .choice words => if words.contains s then none else some .invalidValue

/-! ### Commands -/

/-- An option. -/
structure OptionSpec where
  /-- The name after two dashes. -/
  name : String
  /-- The letter after one dash. -/
  letter : Option Char := none
  /-- What its value has to be, if it takes one. -/
  value : Option ValueKind := none
  /-- The variable of the environment that gives the value otherwise. -/
  fallback : Option String := none
  /-- The option that excludes this one. -/
  excludedBy : Option String := none
deriving Repr

/-- A value at a position. -/
structure PositionSpec where
  /-- What it is called. -/
  name : String
  /-- What it has to be. -/
  kind : ValueKind := .text
  /-- More of them may follow. -/
  many : Bool := false
  /-- It must not be missing. -/
  required : Bool := true
deriving Repr

/-- A command. -/
structure CommandSpec where
  /-- The name. -/
  name : String
  /-- Other names. -/
  aliases : List String := []
  /-- The options. -/
  options : List OptionSpec := []
  /-- The values at positions, in order. -/
  positions : List PositionSpec := []
  /-- The subcommands. -/
  commands : List CommandSpec := []

namespace CommandSpec

/-- The subcommand with this name. -/
def find? (spec : CommandSpec) (name : String) : Option CommandSpec :=
  spec.commands.find? fun sub => sub.name = name || sub.aliases.contains name

/-- The word asks for the help on subcommands. -/
def isHelp (spec : CommandSpec) (word : String) : Bool :=
  !spec.commands.isEmpty && word = "help"

/-- The words after `help` have to be names of commands, each one below the one before. -/
def helpOn (spec : CommandSpec) : List String → Problem
  | [] => .displayHelp
  | word :: words =>
    if spec.isHelp word then (if words.isEmpty then .displayHelp else .unknownCommand)
    else
      match spec.find? word with
      | some sub => sub.helpOn words
      | none => .unknownCommand

/-- The option with this name. -/
def option? (spec : CommandSpec) (name : String) : Option OptionSpec :=
  spec.options.find? fun option => option.name = name

/-- The option with this letter. -/
def lettered? (spec : CommandSpec) (letter : Char) : Option OptionSpec :=
  spec.options.find? fun option => option.letter = some letter

/-- The option that asks for help or for the version, by name. -/
def request? (name : String) : Option Problem :=
  if name = "help" then some .displayHelp
  else if name = "version" then some .displayVersion
  else none

/-- The option that asks for help or for the version, by letter. -/
def letteredRequest? (letter : Char) : Option Problem :=
  if letter = 'h' then some .displayHelp
  else if letter = 'V' then some .displayVersion
  else none

end CommandSpec

end Agenda.CommandLine

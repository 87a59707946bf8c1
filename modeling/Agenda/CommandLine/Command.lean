/-
Agenda/CommandLine/Command.lean

The commands of the program, and the command lines that stand for them.
-/
import Agenda.CommandLine.Parse

namespace Agenda

open CommandLine

/-! ### Commands -/

/-- A command on lists. -/
inductive ListsCommand where
  /-- Shows all lists. -/
  | overview
  /-- Creates a list. -/
  | add (name : String)
  /-- Renames a list. -/
  | rename (list name : String)
  /-- Removes a list and its items. -/
  | delete (list : String)
deriving DecidableEq, Repr

/-- A command that works on the store. -/
inductive StoreCommand where
  /-- Shows the items of a list. -/
  | list (search : String)
  /-- Creates an item, after a position of the list or at its end. -/
  | add (summary : String) (after : Option Nat)
  /-- Moves an item to a position of the view of a search. -/
  | move (id : String) (target : Nat) (search : String)
  /-- Marks items as done. -/
  | done (ids : List String)
  /-- Marks items as not done. -/
  | reopen (ids : List String)
  /-- Replaces the summary of an item. -/
  | edit (id summary : String)
  /-- Removes items. -/
  | delete (ids : List String)
  /-- Works on lists. -/
  | lists (command : ListsCommand)
deriving DecidableEq, Repr

/-- A command on the settings. -/
inductive SettingsCommand where
  /-- Shows all settings. -/
  | overview
  /-- Assigns a setting. -/
  | assign (key value : String)
  /-- Tells where the settings are. -/
  | path
deriving DecidableEq, Repr

/-- A command. -/
inductive Command where
  /-- Works on the store. -/
  | store (command : StoreCommand)
  /-- Works on the settings. -/
  | settings (command : SettingsCommand)
  /-- Writes a script for a shell. -/
  | completions (shell : String)
  /-- Tells what the program is. -/
  | greeting
deriving DecidableEq, Repr

/-- What all commands can be told. -/
structure CommonOptions where
  /-- Tells more. -/
  verbose : Bool := false
  /-- Tells nothing but failures. -/
  quiet : Bool := false
  /-- Answers in JSON. -/
  json : Bool := false
  /-- Uses no colours. -/
  noColor : Bool := false
  /-- The path of the store. -/
  store : Option String := none
  /-- The name or id of the list to work on. -/
  list : Option String := none
deriving DecidableEq, Repr

/-- A command with its options. -/
structure Invocation where
  /-- The options. -/
  options : CommonOptions
  /-- The command. -/
  command : Command
deriving DecidableEq, Repr

namespace Invocation

/-! ### Command lines -/

/-- The options that every command understands. -/
def commonOptions : List OptionSpec :=
  [{ name := "verbose", letter := some 'v' },
   { name := "quiet", letter := some 'q', excludedBy := some "verbose" },
   { name := "json" },
   { name := "no-color" },
   { name := "store", value := some .path, fallback := some "TD_STORE" },
   { name := "list", letter := some 'l', value := some .text }]

/-- A command with the common options and some of its own.  A position that has the name of a
common option stands in for it: the option is not understood there, and what is given at the
position counts as given for the option. -/
def commandSpec (name : String) (aliases : List String) (options : List OptionSpec)
    (positions : List PositionSpec) (commands : List CommandSpec) : CommandSpec :=
  let common := commonOptions.filter fun option => !positions.any fun p => p.name = option.name
  { name, aliases, options := common ++ options, positions, commands }

/-- The option not to be asked before a removal. -/
def force : OptionSpec := { name := "force", letter := some 'f' }

/-- The ids of items. -/
def ids : PositionSpec := { name := "ids", many := true }

/-- The shells that scripts can be written for. -/
def shells : List String := ["bash", "zsh", "fish", "powershell"]

/-- The command lines of the program. -/
def spec : CommandSpec :=
  commandSpec "td" [] [] [] [
    commandSpec "list" ["ls"] [] [{ name := "search", required := false }] [],
    commandSpec "add" ["a"] [{ name := "after", value := some .index }] [{ name := "summary" }] [],
    commandSpec "move" ["mv"] [{ name := "search", letter := some 's', value := some .text }]
      [{ name := "id" }, { name := "index", kind := .index }] [],
    commandSpec "done" ["d"] [] [ids] [],
    commandSpec "reopen" [] [] [ids] [],
    commandSpec "edit" ["e"] [] [{ name := "id" }, { name := "summary" }] [],
    commandSpec "delete" ["rm"] [force] [ids] [],
    commandSpec "lists" [] [] [] [
      commandSpec "list" [] [] [] [],
      commandSpec "add" [] [] [{ name := "name" }] [],
      commandSpec "rename" [] [] [{ name := "list" }, { name := "name" }] [],
      commandSpec "delete" ["rm"] [force] [{ name := "list" }] []],
    commandSpec "config" [] [] [] [
      commandSpec "show" [] [] [] [],
      commandSpec "set" [] [] [{ name := "key" }, { name := "value" }] [],
      commandSpec "path" [] [] [] []],
    commandSpec "completions" [] [] [{ name := "shell", kind := .choice shells }] []]

/-! ### Meaning -/

/-- The values of an option or a position of a command. -/
def valuesOf (level : Level) (name : String) : List String :=
  match level.given.find? fun g => g.name = name with
  | some g => g.values
  | none => []

/-- The value of an option or a position of a command. -/
def valueOf? (level : Level) (name : String) : Option String :=
  (valuesOf level name).head?

/-- The value of an option or a position that cannot be missing. -/
def valueOf (level : Level) (name : String) : String :=
  (valueOf? level name).getD ""

/-- The option was given to one of the commands. -/
def isGiven (levels : List Level) (name : String) : Bool :=
  levels.any fun level => level.given.any fun g => g.name = name

/-- The value of a common option: the last one on the command line, be it given for the option or
at a position that stands in for it, or else the one from the environment. -/
def common? (levels : List Level) (name : String) : Option String :=
  let found (source : Source) : Option String :=
    levels.reverse.findSome? fun level =>
      (level.given.find? fun g => g.name = name && g.source = source).bind fun g => g.values.head?
  (found .argument).or (found .environment)

/-- The common options. -/
def optionsOf (levels : List Level) : CommonOptions where
  verbose := isGiven levels "verbose"
  quiet := isGiven levels "quiet"
  json := isGiven levels "json"
  noColor := isGiven levels "no-color"
  store := common? levels "store"
  list := common? levels "list"

/-- A command on lists. -/
def listsCommandOf : List Level → ListsCommand
  | level :: _ =>
    match level.command with
    | "add" => .add (valueOf level "name")
    | "rename" => .rename (valueOf level "list") (valueOf level "name")
    | "delete" => .delete (valueOf level "list")
    | _ => .overview
  | [] => .overview

/-- A command on the settings. -/
def settingsCommandOf : List Level → SettingsCommand
  | level :: _ =>
    match level.command with
    | "set" => .assign (valueOf level "key") (valueOf level "value")
    | "path" => .path
    | _ => .overview
  | [] => .overview

/-- The command of the levels below the program itself. -/
def commandOf : List Level → Command
  | level :: below =>
    match level.command with
    | "list" => .store (.list ((valueOf? level "search").getD ""))
    | "add" => .store (.add (valueOf level "summary") ((valueOf? level "after").bind indexOf?))
    | "move" =>
      .store (.move (valueOf level "id") ((indexOf? (valueOf level "index")).getD 0)
        ((valueOf? level "search").getD ""))
    | "done" => .store (.done (valuesOf level "ids"))
    | "reopen" => .store (.reopen (valuesOf level "ids"))
    | "edit" => .store (.edit (valueOf level "id") (valueOf level "summary"))
    | "delete" => .store (.delete (valuesOf level "ids"))
    | "lists" => .store (.lists (listsCommandOf below))
    | "config" => .settings (settingsCommandOf below)
    | "completions" => .completions (valueOf level "shell")
    | _ => .greeting
  | [] => .greeting

/-- What a command line asks for. -/
def ofArguments (env : Environment) (args : List String) : Except Problem Invocation :=
  (parse env spec args).map fun levels =>
    { options := optionsOf levels, command := commandOf levels.tail }

end Invocation

end Agenda

/-
Agenda/CommandLine/Help.lean

What is told to somebody who asks for help, makes a mistake in a command
line, or wants a shell to complete the names of commands.
-/
import Agenda.CommandLine.Command

namespace Agenda.CommandLine

/-! ### Help -/

/-- An option as it is typed. -/
def OptionSpec.usage (option : OptionSpec) : String :=
  (match option.letter with
    | some letter => "-" ++ letter.toString ++ ", "
    | none => "    ") ++ "--" ++ option.name ++ (if option.value.isSome then " <VALUE>" else "")

/-- A value at a position as it is typed. -/
def PositionSpec.usage (position : PositionSpec) : String :=
  let name := "<" ++ position.name ++ ">" ++ if position.many then "..." else ""
  if position.required then " " ++ name else " [" ++ name ++ "]"

/-- A command as it is typed. -/
def CommandSpec.usage (spec : CommandSpec) : String :=
  spec.name ++ " [OPTIONS]" ++ String.join (spec.positions.map PositionSpec.usage) ++
    if spec.commands.isEmpty then "" else " [COMMAND]"

/-- The lines on a command, its options and its subcommands. -/
def CommandSpec.help (spec : CommandSpec) : String :=
  "Usage: " ++ spec.usage ++ "\n\nOptions:\n" ++
    String.join (spec.options.map fun option => "  " ++ option.usage ++ "\n") ++
    if spec.commands.isEmpty then ""
    else
      "\nCommands:\n" ++ String.join (spec.commands.map fun sub => "  " ++ sub.usage ++ "\n")

/-! ### Mistakes -/

/-- The problem in words. -/
def Problem.message : Problem → String
  | .displayHelp => Invocation.spec.help
  | .displayVersion => "td 0.1.0\n"
  | .unknownArgument => "error: unexpected argument\n"
  | .missingArgument => "error: a required argument is missing\n"
  | .unknownCommand => "error: unrecognized command\n"
  | .invalidValue => "error: invalid value\n"
  | .notANumber => "error: the value is not a number\n"
  | .conflict => "error: an option cannot be used more than once or with another one\n"
  | .unexpectedValue => "error: an option takes no value\n"

/-! ### Completions -/

/-- The names of the commands. -/
def commandNames : List String :=
  Invocation.spec.commands.map CommandSpec.name

/-- A script that makes a shell complete the names of the commands. -/
def completionScript (shell : String) : String :=
  let words := " ".intercalate commandNames
  match shell with
  | "zsh" => "#compdef td\ncompadd " ++ words ++ "\n"
  | "fish" => "complete -c td -n __fish_use_subcommand -f -a '" ++ words ++ "'\n"
  | "powershell" =>
    "Register-ArgumentCompleter -Native -CommandName td -ScriptBlock \x7b\n  '" ++
      "','".intercalate commandNames ++ "'\n\x7d\n"
  | _ => "complete -W '" ++ words ++ "' td\n"

end Agenda.CommandLine

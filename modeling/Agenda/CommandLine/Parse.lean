/-
Agenda/CommandLine/Parse.lean

Reading a command line.  Arguments are read from left to right; a name of a
subcommand hands the rest over to it.  A value that follows its option, and
values at a position, are gathered first and checked when the next option or
value begins, or at the end.  So of several problems the one that is met first
in this order is told.

Subcommands are read completely before their parent command is checked.
-/
import Agenda.CommandLine.Spec
import Agenda.Host

namespace Agenda.CommandLine

/-! ### What was given -/

/-- Where a value comes from. -/
inductive Source where
  /-- The command line. -/
  | argument
  /-- The environment. -/
  | environment
deriving DecidableEq, Repr

/-- An option or a position that was given, with its values. -/
structure Given where
  /-- The name. -/
  name : String
  /-- Where it comes from. -/
  source : Source
  /-- Its values. -/
  values : List String
deriving DecidableEq, Repr

/-- One command of a command line. -/
structure Level where
  /-- The name of the command. -/
  command : String
  /-- What was given to it. -/
  given : List Given
deriving DecidableEq, Repr

/-! ### Gathering -/

/-- Values that are gathered for an option or a position. -/
structure Pending where
  /-- The name. -/
  name : String
  /-- What the values have to be. -/
  kind : ValueKind
  /-- More than one group of values may be given. -/
  many : Bool
  /-- The values so far. -/
  values : List String
deriving DecidableEq, Repr

/-- Where reading stands within one command. -/
structure State where
  /-- What was given and checked. -/
  given : List Given := []
  /-- What is still gathered. -/
  pending : Option Pending := none
  /-- An option waits for its value. -/
  awaiting : Bool := false
  /-- Values of a position that takes many are being read. -/
  inRun : Bool := false
  /-- How many positions are filled. -/
  filled : Nat := 0
  /-- Two dashes were met: all that follows are values. -/
  valuesOnly : Bool := false
deriving DecidableEq, Repr

/-- Takes note of values that are complete.  Only positions that take many may be given in more
than one group. -/
def State.accept (state : State) (p : Pending) : Except Problem State :=
  match state.given.find? fun g => g.name = p.name with
  | some g =>
    if p.many then
      match p.values.findSome? p.kind.problem? with
      | some problem => .error problem
      | none =>
        .ok { state with given := state.given.map fun other =>
                if other.name = g.name then { g with values := g.values ++ p.values } else other }
    else .error .conflict
  | none =>
    match p.values.findSome? p.kind.problem? with
    | some problem => .error problem
    | none => .ok { state with given := state.given ++ [⟨p.name, .argument, p.values⟩] }

/-- Checks what was gathered.  An option that waits for its value in vain is a problem. -/
def State.resolve (state : State) : Except Problem State :=
  match state.pending with
  | none => .ok state
  | some p =>
    if p.values.isEmpty then .error .invalidValue
    else State.accept { state with pending := none } p

/-- An option with its value, or one that takes none. -/
def State.set (state : State) (option : OptionSpec) (values : List String) :
    Except Problem State :=
  state.resolve.bind fun state =>
    State.accept { state with awaiting := false, inRun := false }
      ⟨option.name, option.value.getD .text, false, values⟩

/-- An option that waits for its value. -/
def State.await (state : State) (option : OptionSpec) (kind : ValueKind) : Except Problem State :=
  state.resolve.map fun state =>
    { state with
      pending := some ⟨option.name, kind, false, []⟩
      awaiting := true
      inRun := false }

/-- The value that an option waited for. -/
def State.receive (state : State) (value : String) : State :=
  { state with
    pending := state.pending.map fun p => { p with values := p.values ++ [value] }
    awaiting := false }

/-- Help or the version, unless what was gathered before is a problem. -/
def State.request (state : State) (problem : Problem) : Except Problem State :=
  state.resolve.bind fun _ => .error problem

/-! ### Arguments -/

/-- A name and the value attached to it by an equals sign. -/
def splitEquals (cs : List Char) : String × Option String :=
  match cs.span (· != '=') with
  | (name, _ :: value) => (String.ofList name, some (String.ofList value))
  | (name, []) => (String.ofList name, none)

/-- An option by its name, perhaps with a value attached. -/
def byName (spec : CommandSpec) (state : State) (cs : List Char) : Except Problem State :=
  let (name, attached) := splitEquals cs
  match CommandSpec.request? name with
  | some problem =>
    if attached.isSome then .error .unexpectedValue else state.request problem
  | none =>
    match spec.option? name with
    | none => .error .unknownArgument
    | some option =>
      match option.value, attached with
      | some _, some value => state.set option [value]
      | some kind, none => state.await option kind
      | none, some _ => .error .unexpectedValue
      | none, none => state.set option []

/-- Options by their letters.  The rest of the letters is the value of an option that takes
one. -/
def byLetters (spec : CommandSpec) (state : State) : List Char → Except Problem State
  | [] => .ok state
  | c :: cs =>
    match CommandSpec.letteredRequest? c with
    | some problem => state.request problem
    | none =>
      match spec.lettered? c with
      | none => .error .unknownArgument
      | some option =>
        match option.value, cs with
        | none, cs => (state.set option []).bind fun state => byLetters spec state cs
        | some kind, [] => state.await option kind
        | some _, '=' :: value => state.set option [String.ofList value]
        | some _, value => state.set option [String.ofList value]

/-- The problem with a value that has no position. -/
def surplus (spec : CommandSpec) (state : State) (arg : String) : Problem :=
  if spec.commands.isEmpty then .unknownArgument
  else if state.valuesOnly ∧ (spec.isHelp arg ∨ (spec.find? arg).isSome) then .unknownArgument
  else .unknownCommand

/-- A value at the next position. -/
def byPosition (spec : CommandSpec) (state : State) (arg : String) : Except Problem State :=
  match spec.positions[state.filled]? with
  | none => .error (surplus spec state arg)
  | some position =>
    match position.many, state.pending with
    | true, some p =>
      if p.name = position.name then
        .ok { state with pending := some { p with values := p.values ++ [arg] }, inRun := true }
      else start position
    | _, _ => start position
where
  /-- Begins to gather the values of a position. -/
  start (position : PositionSpec) : Except Problem State :=
    state.resolve.map fun state =>
      { state with
        pending := some ⟨position.name, position.kind, position.many, [arg]⟩
        inRun := position.many
        filled := if position.many then state.filled else state.filled + 1 }

/-- An argument that is no subcommand. -/
def readArgument (spec : CommandSpec) (state : State) (arg : String) : Except Problem State :=
  if state.valuesOnly then byPosition spec state arg
  else
    match arg.toList with
    | ['-', '-'] => .ok { state with valuesOnly := true }
    | '-' :: '-' :: cs => byName spec state cs
    | '-' :: c :: cs => byLetters spec state (c :: cs)
    | _ => if state.awaiting then .ok (state.receive arg) else byPosition spec state arg

/-! ### Commands -/

/-- The values that the environment gives to options that are not on the command line. -/
def fromEnvironment (env : Environment) (given : List Given) (options : List OptionSpec) :
    Except Problem (List Given) :=
  options.foldlM (fun given option =>
    if given.any fun g => g.name = option.name then .ok given
    else
      match option.fallback.bind env.get? with
      | none => .ok given
      | some value =>
        match (option.value.getD .text).problem? value with
        | some problem => .error problem
        | none => .ok (given ++ [⟨option.name, .environment, [value]⟩])) given

/-- The option was given together with the one that excludes it. -/
def excluded (given : List Given) (option : OptionSpec) : Bool :=
  given.any (fun g => g.name = option.name) &&
    given.any fun g => some g.name = option.excludedBy

/-- The checks at the end of a command. -/
def finish (env : Environment) (spec : CommandSpec) (state : State) : Except Problem Level := do
  let state ← state.resolve
  let given ← fromEnvironment env state.given spec.options
  if spec.options.any (excluded given) then throw .conflict
  if spec.positions.any fun p => p.required && !given.any fun g => g.name = p.name then
    throw .missingArgument
  return { command := spec.name, given }

/-- Reads the arguments of a command.  The result has one level for the command and one for each
subcommand below it. -/
def parseFrom (env : Environment) (spec : CommandSpec) (state : State) :
    List String → Except Problem (List Level)
  | [] => (finish env spec state).map ([·])
  | arg :: args =>
    if !state.valuesOnly ∧ !state.awaiting ∧ !state.inRun then
      if spec.isHelp arg then .error (spec.helpOn args)
      else
        match spec.find? arg with
        | some sub => do
          let below ← parseFrom env sub {} args
          return (← finish env spec state) :: below
        | none => (readArgument spec state arg).bind fun state => parseFrom env spec state args
    else (readArgument spec state arg).bind fun state => parseFrom env spec state args

/-- Reads a command line. -/
def parse (env : Environment) (spec : CommandSpec) (args : List String) :
    Except Problem (List Level) :=
  parseFrom env spec {} args

end Agenda.CommandLine

/-
Agenda/Main.lean

The program as the system runs it: files, clock, random ids and log of the
real system, and one run.
-/
import Agenda.CommandLine.Help
import Agenda.Program.Run
import Agenda.Text.Quoted
import Agenda.Timestamp.Clock
import Std.Time.DateTime.Timestamp

namespace Agenda.Main

open CommandLine

/-! ### The real system -/

/-- The calls of a run; the level decides what goes to the log. -/
abbrev Real := ReaderT LogLevel IO

/-- The fault that the system reports by this number, which may come with its sign changed. -/
def faultOfCode (code : UInt32) (error : IO.Error) : FileFault :=
  let code := if 0x80000000 ≤ code then 0 - code else code
  if code = 20 then .notADirectory
  else if code = 21 then .isADirectory
  else if code = 36 then .nameTooLong
  else .other (toString error)

/-- The fault that the system reports. -/
def faultOf (error : IO.Error) : FileFault :=
  match error with
  | .noFileOrDirectory .. => .notFound
  | .alreadyExists .. => .alreadyExists
  | .resourceBusy .. => .busy
  | .inappropriateType _ code _ => faultOfCode code error
  | .invalidArgument _ code _ => faultOfCode code error
  | .otherError code _ => faultOfCode code error
  | error => .other (toString error)

/-- A call with the fault that the system reports. -/
def guarded {α : Type} (call : IO α) : Real (Except FileFault α) := do
  match ← (call.toBaseIO : BaseIO _) with
  | .ok a => return .ok a
  | .error error => return .error (faultOf error)

/-- Random bytes as the id of an item: 32 hexadecimal digits in five groups. -/
def idOf (bytes : List UInt8) : String :=
  let digits := bytes.flatMap fun b => [Nat.digitChar (b.toNat / 16), Nat.digitChar (b.toNat % 16)]
  let part (start width : Nat) : String := String.ofList ((digits.drop start).take width)
  "-".intercalate [part 0 8, part 8 4, part 12 4, part 16 4, part 20 12]

instance : Host Real where
  isThere path := do ((← IO.currentDir) / path.toString).pathExists
  readText path := do
    match ← guarded (IO.FS.readBinFile path.toString) with
    | .ok bytes =>
      match String.fromUTF8? bytes with
      | some text => return .ok text
      | none => return .error .notText
    | .error fault => return .error fault
  writeText path text := guarded (IO.FS.writeFile path.toString text)
  rename source target := guarded (IO.FS.rename source.toString target.toString)
  remove path := guarded (IO.FS.removeFile path.toString)
  createDirectories path := guarded (IO.FS.createDirAll path.toString)
  now := do
    let t ← Std.Time.Timestamp.now
    let nanoseconds := t.toNanosecondsSinceUnixEpoch.val.toNat
    return (Timestamp.ofClock? (nanoseconds / 1000000000) (nanoseconds % 1000000000)).getD
      Timestamp.epoch
  newId := do
    let bytes ← IO.getRandomBytes 16
    return idOf bytes.toList
  log event := do
    if (← read).showsDebug then IO.eprintln event.line

/-! ### The run -/

/-- The variables that the program looks at. -/
def variableNames : List String :=
  ["HOME", "XDG_DATA_HOME", "XDG_CONFIG_HOME", "TD_CONFIG", "TD_STORE", "TD_LOG"]

/-- The environment of the run. -/
def environment : IO Environment := do
  let found ← variableNames.filterMapM fun name => do
    return (← IO.getEnv name).map fun value => (name, value)
  return { bindings := found }

/-- The level that the arguments and the environment ask for. -/
def levelOf (env : Environment) (args : List String) : LogLevel :=
  match Invocation.ofArguments env args with
  | .ok invocation => env.logLevel invocation.options.verbose invocation.options.quiet
  | .error _ => .off

/-- Runs the program and returns its exit code. -/
def start (args : List String) : IO UInt32 := do
  let env ← environment
  let outcome ← (run env args : Real Outcome).run (levelOf env args)
  match outcome with
  | .usage problem =>
    if problem.isRequest then IO.print problem.message else IO.eprint problem.message
  | .done output => IO.print output
  | .completions shell => IO.print (completionScript shell)
  | .failed .. => IO.eprint outcome.complaint
  return UInt32.ofNat outcome.exitCode

end Agenda.Main

/-- Runs the program. -/
def main (args : List String) : IO UInt32 :=
  Agenda.Main.start args

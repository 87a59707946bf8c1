/-
Agenda/Toml/Value.lean

TOML values, and how the statements of a document add up to a table.  A table
remembers how it came about, since that decides what may still be added to
it: a table has at most one header, dotted keys do not reach into a table with
a header, and what is written between braces is complete.
-/

namespace Agenda.Toml

/-- How a table came about. -/
inductive Origin where
  /-- It is written between braces. -/
  | inline
  /-- It has a header. -/
  | header
  /-- The header of a table within it names it. -/
  | implied
  /-- A dotted key names it. -/
  | dotted
deriving DecidableEq, Repr

/-- A value.  Integers have 64 bits.  Only what tells values of different types apart is kept of
numbers with a fraction and of dates and times. -/
inductive Value where
  /-- A text. -/
  | text (s : String)
  /-- An integer. -/
  | integer (n : Int64)
  /-- A number with a fraction or an exponent, an infinity, or no number. -/
  | float
  /-- A truth value. -/
  | truth (b : Bool)
  /-- A date, a time, or both. -/
  | moment
  /-- A sequence of values. -/
  | array (elements : List Value)
  /-- Values with their keys. -/
  | table (origin : Origin) (entries : List (String × Value))
  /-- Tables that were begun one after another by headers in double brackets. -/
  | tables (elements : List (List (String × Value)))

/-- The entries of a table. -/
abbrev Entries := List (String × Value)

/-- Adds, changes or keeps the entry of a key. -/
def modify (key : String) (f : Option Value → Option Value) : Entries → Option Entries
  | [] => (f none).map fun v => [(key, v)]
  | (k, v) :: rest =>
    if k = key then (f (some v)).map fun v => (k, v) :: rest
    else (modify key f rest).map ((k, v) :: ·)

/-- Adds an entry; its key must be new. -/
def add (key : String) (v : Value) (entries : Entries) : Option Entries :=
  modify key (fun found => if found.isNone then some v else none) entries

/-- Changes the table at the end of a path.  Missing tables on the way are created with the
origin `kind`; of a sequence of tables the last one is meant.  The change is told whether the
table was named by a dotted key. -/
def within (kind : Origin) (change : Bool → Entries → Option Entries) :
    List String → Bool → Entries → Option Entries
  | [], isDotted, entries => change isDotted entries
  | key :: path, _, entries =>
    modify key (fun
      | none => (within kind change path (kind = .dotted) []).map (.table kind)
      | some (.table origin found) =>
        if origin = .inline ∨ (kind = .dotted ∧ origin = .header) then none
        else (within kind change path (origin = .dotted) found).map (.table origin)
      | some (.tables elements) =>
        (within kind change path false (elements.getLast?.getD [])).map fun last =>
          .tables (elements.dropLast ++ [last])
      | some _ => none) entries

/-- Adds a value under a key that stands at the end of a path of dotted keys. -/
def addDotted (path : List String) (key : String) (v : Value) (entries : Entries) :
    Option Entries :=
  within .dotted (fun isDotted found => if isDotted = path.isEmpty then none else add key v found)
    path false entries

/-- The entries of a table between braces. -/
def inlineEntries (pairs : List (List String × String × Value)) : Option Entries :=
  pairs.foldlM (fun entries (path, key, v) => addDotted path key v entries) []

/-! ### Documents -/

/-- A statement of a document. -/
inductive Statement where
  /-- A value under a key, which may follow a path of dotted keys. -/
  | assign (path : List String) (key : String) (v : Value)
  /-- The header of a table. -/
  | header (path : List String) (key : String)
  /-- The header of one table of a sequence. -/
  | element (path : List String) (key : String)

/-- The entries of a document so far, and the path of the last header. -/
structure Progress where
  /-- The entries. -/
  entries : Entries := []
  /-- The path of the table that entries are added to. -/
  here : List String := []

/-- Carries out a statement. -/
def Progress.step (progress : Progress) : Statement → Option Progress
  | .assign path key v =>
    (within .implied (fun _ => addDotted path key v) progress.here false progress.entries).map
      fun entries => { progress with entries }
  | .header path key =>
    let begin (_ : Bool) : Entries → Option Entries := modify key fun
      | none => some (.table .header [])
      | some (.table .implied found) => some (.table .header found)
      | some _ => none
    (within .implied begin path false progress.entries).map fun entries =>
      { entries, here := path ++ [key] }
  | .element path key =>
    let begin (_ : Bool) : Entries → Option Entries := modify key fun
      | none => some (.tables [[]])
      | some (.tables elements) => some (.tables (elements ++ [[]]))
      | some _ => none
    (within .implied begin path false progress.entries).map fun entries =>
      { entries, here := path ++ [key] }

/-- The entries that a document stands for, unless its statements contradict each other. -/
def entriesOf (statements : List Statement) : Option Entries :=
  (statements.foldlM Progress.step {}).map Progress.entries

end Agenda.Toml

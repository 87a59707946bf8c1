/-
Agenda/Proofs/Search/Grammar.lean

The grammar of search texts, said without a parser.  Each notion is a
relation

    XAt input tokens rest

which says that an X stands at the start of `input`, that it reads as `tokens`
and that `rest` follows it.  A run is always as long as possible, a keyword is
met in either case, and an operand is a term only where no status predicate
stands:

    OperandAt     a status predicate, else a word
    LinkAt        operand, blanks, "or", blanks
    OrSequenceAt  one link or more, then an operand

`Longest` picks the derivation that leaves the shortest rest.
-/
import Agenda.Search.Chunk

namespace Agenda.Search

open Text

/-! ### Runs and keywords -/

/-- The characters at the start of `input` that satisfy `p`, all of them and at least one, are one
token. -/
def RunAt (p : Char → Bool) (kind : TokenKind) (input : List Char) (tokens : List Token)
    (rest : List Char) : Prop :=
  ∃ text, text ≠ [] ∧ (∀ c ∈ text, p c = true) ∧ (∀ c ∈ rest.head?, p c = false) ∧
    input = text ++ rest ∧ tokens = [Token.ofList kind text]

/-- A run of blanks. -/
def BlanksAt : List Char → List Token → List Char → Prop :=
  RunAt isBlank .whitespace

/-- A run of characters that are not blank. -/
def WordAt (kind : TokenKind) : List Char → List Token → List Char → Prop :=
  RunAt (fun c => !isBlank c) kind

/-- The word `word`, in lower or upper case, is one token. -/
def KeywordAt (word : List Char) (kind : TokenKind) (input : List Char) (tokens : List Token)
    (rest : List Char) : Prop :=
  ∃ text, sameIgnoringAsciiCase text word = true ∧ input = text ++ rest ∧
    tokens = [Token.ofList kind text]

/-! ### Operands -/

/-- The value of a status predicate. -/
def ValueAt (input : List Char) (tokens : List Token) (rest : List Char) : Prop :=
  KeywordAt ['d', 'o', 'n', 'e'] .doneValue input tokens rest ∨
    KeywordAt ['n', 'o', 't', 'd', 'o', 'n', 'e'] .doneValue input tokens rest

/-- A status predicate; blanks may follow its mark. -/
inductive StatusAt : List Char → List Token → List Char → Prop
  | glued {input mark r value rest} :
      KeywordAt ['i', 's', ':'] .donePrefix input mark r → ValueAt r value rest →
      StatusAt input (mark ++ value) rest
  | spaced {input mark r gap r' value rest} :
      KeywordAt ['i', 's', ':'] .donePrefix input mark r → BlanksAt r gap r' →
      ValueAt r' value rest → StatusAt input (mark ++ gap ++ value) rest

/-- A status predicate if one stands here, else a word. -/
inductive OperandAt (kind : TokenKind) : List Char → List Token → List Char → Prop
  | status {input tokens rest} : StatusAt input tokens rest → OperandAt kind input tokens rest
  | term {input tokens rest} : (∀ ts r, ¬ StatusAt input ts r) → WordAt kind input tokens rest →
      OperandAt kind input tokens rest

/-! ### Alternatives -/

/-- An operand with the keyword and the blanks that join it to the next one. -/
inductive LinkAt : List Char → List Token → List Char → Prop
  | mk {input left r₁ before r₂ word r₃ after rest} :
      OperandAt .orTerm input left r₁ → BlanksAt r₁ before r₂ →
      KeywordAt ['o', 'r'] .or r₂ word r₃ → BlanksAt r₃ after rest →
      LinkAt input (left ++ (before ++ (word ++ after))) rest

/-- One link or more, then an operand. -/
inductive OrSequenceAt : List Char → List Token → List Char → Prop
  | last {input link r operand rest} :
      LinkAt input link r → OperandAt .orTerm r operand rest →
      OrSequenceAt input (link ++ operand) rest
  | more {input link r others rest} :
      LinkAt input link r → OrSequenceAt r others rest →
      OrSequenceAt input (link ++ others) rest

/-- One link or more, up to the end of the text: what should follow the last of them is
missing. -/
inductive LinksToEnd : List Char → Prop
  | last {input link} : LinkAt input link [] → LinksToEnd input
  | more {input link r} : LinkAt input link r → LinksToEnd r → LinksToEnd input

/-- The derivation of `R` that leaves the shortest rest. -/
def Longest (R : List Char → List Token → List Char → Prop) (input : List Char)
    (tokens : List Token) (rest : List Char) : Prop :=
  R input tokens rest ∧ ∀ ts r, R input ts r → rest.length ≤ r.length

end Agenda.Search

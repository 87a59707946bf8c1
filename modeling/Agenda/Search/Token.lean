/-
Agenda/Search/Token.lean

The tokens of a search text.  A token keeps the characters it was read from,
so the tokens of a text, put end to end, are the text again.
-/
import Agenda.Text.LowerCase

namespace Agenda.Search

/-- What a fragment of a search text was read as. -/
inductive TokenKind where
  /-- A word to search for, outside of a group of alternatives. -/
  | andTerm
  /-- The keyword between two alternatives. -/
  | or
  /-- A word to search for, as one of several alternatives. -/
  | orTerm
  /-- A run of blanks. -/
  | whitespace
  /-- The mark that starts a status predicate. -/
  | donePrefix
  /-- The status named by a status predicate. -/
  | doneValue
deriving DecidableEq, Repr

/-- The name of a kind of token. -/
def TokenKind.name : TokenKind → String
  | .andTerm => "and_term"
  | .or => "or"
  | .orTerm => "or_term"
  | .whitespace => "whitespace"
  | .donePrefix => "done_prefix"
  | .doneValue => "done_value"

/-- Tokens of this kind mean nothing for the search. -/
def TokenKind.isNoise : TokenKind → Bool
  | .whitespace | .donePrefix => true
  | _ => false

/-- A fragment of a search text. -/
structure Token where
  /-- What the fragment was read as. -/
  kind : TokenKind
  /-- The characters of the fragment. -/
  text : String
deriving DecidableEq, Repr

/-- The token of a kind that covers the characters `cs`. -/
def Token.ofList (kind : TokenKind) (cs : List Char) : Token :=
  { kind, text := String.ofList cs }

/-- The tokens that mean something, in lower case. -/
def normalize (tokens : List Token) : List Token :=
  (tokens.filter fun token => !token.kind.isNoise).map fun token =>
    { token with text := Text.lower token.text }

end Agenda.Search

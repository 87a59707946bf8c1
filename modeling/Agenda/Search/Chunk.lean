/-
Agenda/Search/Chunk.lean

Reading a search text chunk by chunk.  A chunk is the longest match at the
start of the text, after the grammar

    chunk       ::= alternatives | operand
    alternatives ::= (operand blanks "or" blanks)+ operand
    operand     ::= status | term | blanks
    status      ::= "is:" blanks? ("done" | "notdone")
    term        ::= a run of characters that are not blank
    blanks      ::= a run of blank characters

where the first alternative of `operand` that matches is taken, and keywords
match without regard to ASCII case.  Every text but the empty one has a
chunk, since whatever fits nothing else is a term.

Each matcher returns the tokens it read and the rest of its input, with the
proof that the rest is shorter; the loops below end for that reason.
-/
import Agenda.Search.Token
import Agenda.Text.Blank

namespace Agenda.Search

open Text

/-! ### Matches -/

/-- A match at the start of `input`: at least one character was read. -/
structure Match (input : List Char) where
  /-- The tokens read, from left to right. -/
  tokens : List Token
  /-- What follows the match. -/
  rest : List Char
  /-- The match is not empty. -/
  rest_lt : rest.length < input.length

/-- Two matches, one after the other. -/
def Match.append {input : List Char} (m : Match input) (n : Match m.rest) : Match input where
  tokens := m.tokens ++ n.tokens
  rest := n.rest
  rest_lt := Nat.lt_trans n.rest_lt m.rest_lt

/-- One token, read from the first `n` characters. -/
def Match.single (kind : TokenKind) (n : Nat) (input : List Char) (hn : 0 < n)
    (h : n ≤ input.length) : Match input where
  tokens := [Token.ofList kind (input.take n)]
  rest := input.drop n
  rest_lt := by simp only [List.length_drop]; omega

/-- The characters at the start of `input` that satisfy `p`, as one token. -/
def run (p : Char → Bool) (kind : TokenKind) (input : List Char) : Option (Match input) :=
  if h : 0 < (input.takeWhile p).length then
    some (Match.single kind (input.takeWhile p).length input h
      (List.takeWhile_prefix p).length_le)
  else none

/-! ### The grammar -/

/-- A run of blanks. -/
def blanks (input : List Char) : Option (Match input) :=
  run isBlank .whitespace input

/-- A run of characters that are not blank. -/
def term (kind : TokenKind) (input : List Char) : Option (Match input) :=
  run (fun c => !isBlank c) kind input

/-- The word `word`, in lower or upper case. -/
def keyword (word : List Char) (kind : TokenKind) (input : List Char) : Option (Match input) :=
  if h : 0 < word.length ∧ word.length ≤ input.length ∧
      sameIgnoringAsciiCase (input.take word.length) word = true then
    some (Match.single kind word.length input h.1 h.2.1)
  else none

/-- The mark of a status predicate, and the blanks that may follow it. -/
def statusMark (input : List Char) : Option (Match input) :=
  (keyword ['i', 's', ':'] .donePrefix input).map fun mark =>
    match blanks mark.rest with
    | some gap => mark.append gap
    | none => mark

/-- The value of a status predicate. -/
def statusValue (input : List Char) : Option (Match input) :=
  (keyword ['d', 'o', 'n', 'e'] .doneValue input).or
    (keyword ['n', 'o', 't', 'd', 'o', 'n', 'e'] .doneValue input)

/-- A status predicate. -/
def status (input : List Char) : Option (Match input) := do
  let mark ← statusMark input
  let value ← statusValue mark.rest
  return mark.append value

/-- A status predicate, a term of the given kind, or blanks: the first that matches. -/
def operand (kind : TokenKind) (input : List Char) : Option (Match input) :=
  (status input).or ((term kind input).or (blanks input))

/-- An operand that is followed by another one: the operand, the keyword and the blanks around
it. -/
def orLink (input : List Char) : Option (Match input) := do
  let left ← operand .orTerm input
  let before ← blanks left.rest
  let word ← keyword ['o', 'r'] .or before.rest
  let after ← blanks word.rest
  return left.append (before.append (word.append after))

/-- One link or more, followed by an operand.  A link that was read is never given back. -/
def alternatives (input : List Char) : Option (Match input) :=
  match orLink input with
  | none => none
  | some link =>
    match alternatives link.rest with
    | some more => some (link.append more)
    | none =>
      -- no further link: the last operand has to follow
      match orLink link.rest with
      | some _ => none
      | none => (operand .orTerm link.rest).map link.append
termination_by input.length
decreasing_by exact link.rest_lt

/-- The longer of two matches, the first one if they are equally long. -/
def longest {input : List Char} (m n : Option (Match input)) : Option (Match input) :=
  match m, n with
  | some m, some n => if n.rest.length < m.rest.length then some n else some m
  | some m, none => some m
  | none, n => n

/-- The first chunk of a text, if the text is not empty. -/
def firstMatch (input : List Char) : Option (Match input) :=
  longest (alternatives input) (operand .andTerm input)

/-! ### Chunks -/

/-- One step through a search text. -/
structure Chunk where
  /-- The tokens read, from left to right. -/
  tokens : List Token
  /-- What is still to be read. -/
  rest : List Char
deriving DecidableEq, Repr

/-- The tokens of a chunk that mean something, in lower case. -/
def Chunk.normalized (chunk : Chunk) : List Token :=
  normalize chunk.tokens

/-- The first chunk of a text; it has no tokens only if the text is empty. -/
def parseNext (input : List Char) : Chunk :=
  match firstMatch input with
  | some m => { tokens := m.tokens, rest := m.rest }
  | none => { tokens := [], rest := input }

/-- All chunks of a text, in order. -/
def parseAll (input : List Char) : List Chunk :=
  match firstMatch input with
  | some m => { tokens := m.tokens, rest := m.rest } :: parseAll m.rest
  | none => []
termination_by input.length
decreasing_by exact m.rest_lt

end Agenda.Search

/-
Agenda/Search/Condition.lean

What a chunk of a search text asks of an item.  A chunk with the keyword
between operands asks for one of several alternatives; otherwise the terms of
the chunk must all occur in the summary, and without terms the first status
counts.
-/
import Agenda.Search.Token

namespace Agenda.Search

/-- The completion state that a status predicate names. -/
inductive DoneState where
  /-- Items that are done. -/
  | done
  /-- Items that are not done. -/
  | notDone
deriving DecidableEq, Repr

/-- The word for a state. -/
def DoneState.keyword : DoneState → String
  | .done => "done"
  | .notDone => "notdone"

/-- The state with this word, in lower case. -/
def DoneState.ofKeyword? (word : String) : Option DoneState :=
  if word = "done" then some .done
  else if word = "notdone" then some .notDone
  else none

/-- An item with this completion flag is in the state. -/
def DoneState.admits : DoneState → Bool → Bool
  | .done, isComplete => isComplete
  | .notDone, isComplete => !isComplete

/-- One of several alternatives. -/
inductive Operand where
  /-- The text occurs in the summary. -/
  | term (text : String)
  /-- The item is in the state. -/
  | status (state : DoneState)
deriving DecidableEq, Repr

/-- What one chunk asks of an item. -/
inductive Condition where
  /-- At least one of the operands holds. -/
  | anyOf (operands : List Operand)
  /-- Every term occurs in the summary. -/
  | allTerms (terms : List String)
  /-- The item is in the state. -/
  | status (state : DoneState)
  /-- Nothing is asked. -/
  | unconstrained
deriving DecidableEq, Repr

/-! ### From tokens -/

/-- The alternative that a token stands for. -/
def Operand.ofToken? (token : Token) : Option Operand :=
  match token.kind with
  | .orTerm | .andTerm => some (.term token.text)
  | .doneValue => (DoneState.ofKeyword? token.text).map .status
  | _ => none

/-- The state that a token names, if it is a status value. -/
def statusOfToken? (token : Token) : Option DoneState :=
  if token.kind = .doneValue then DoneState.ofKeyword? token.text else none

/-- The condition of a chunk, from its tokens in lower case. -/
def Condition.ofTokens (tokens : List Token) : Condition :=
  if tokens.any fun token => token.kind = .or then
    .anyOf (tokens.filterMap Operand.ofToken?)
  else
    match (tokens.filter fun token => token.kind = .andTerm).map Token.text with
    | [] =>
      match tokens.findSome? statusOfToken? with
      | some state => .status state
      | none => .unconstrained
    | terms => .allTerms terms

/-! ### As text -/

/-- The status predicate for a state. -/
def DoneState.render (state : DoneState) : String :=
  "is:" ++ state.keyword

/-- An alternative as search text. -/
def Operand.render : Operand → String
  | .term text => text
  | .status state => state.render

/-- A condition as search text. -/
def Condition.render : Condition → String
  | .anyOf operands => " OR ".intercalate (operands.map Operand.render)
  | .allTerms terms => " ".intercalate terms
  | .status state => state.render
  | .unconstrained => ""

/-! ### Evaluation -/

/-- The characters `part` stand somewhere in a text, one after another. -/
def occursInList (part : List Char) : List Char → Bool
  | [] => part.isEmpty
  | c :: cs => part.isPrefixOf (c :: cs) || occursInList part cs

theorem occursInList_iff (part whole : List Char) :
    occursInList part whole = true ↔ part <:+: whole := by
  induction whole with
  | nil => simp [occursInList]
  | cons c cs ih => simp [occursInList, ih, List.infix_cons_iff]

/-- The text `part` occurs in `whole`. -/
def occursIn (part whole : String) : Bool :=
  occursInList part.toList whole.toList

/-- An alternative holds of an item with this summary, in lower case, and this flag. -/
def Operand.holds (summary : String) (isComplete : Bool) : Operand → Bool
  | .term text => occursIn text summary
  | .status state => state.admits isComplete

/-- A condition holds of an item with this summary, in lower case, and this flag. -/
def Condition.holds (summary : String) (isComplete : Bool) : Condition → Bool
  | .anyOf operands => operands.any (·.holds summary isComplete)
  | .allTerms terms => terms.all (occursIn · summary)
  | .status state => state.admits isComplete
  | .unconstrained => true

end Agenda.Search

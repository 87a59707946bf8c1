/-
Agenda/Search/Query.lean

Search queries: the conditions of a search text, one for each of its chunks.
All of them must hold.  Chunks that ask for nothing are dropped, and of
several status predicates that stand alone only the first one counts.
-/
import Agenda.Search.Chunk
import Agenda.Search.Condition
import Agenda.Item

namespace Agenda.Search

/-- What a search text asks of an item. -/
structure Query where
  /-- The conditions, in the order of the text. -/
  conditions : List Condition
deriving DecidableEq, Repr

/-- The conditions that count: something is asked, and no status was asked for before.
`seen` tells whether a status has been met. -/
def significant (seen : Bool) : List Condition → List Condition
  | [] => []
  | .unconstrained :: conditions => significant seen conditions
  | .status state :: conditions =>
    if seen then significant true conditions else .status state :: significant true conditions
  | condition :: conditions => condition :: significant seen conditions

/-- Reads a search text.  Every text is one. -/
def Query.parse (input : String) : Query where
  conditions := significant false
    ((parseAll input.toList).map fun chunk => Condition.ofTokens chunk.normalized)

/-- The query asks for nothing. -/
def Query.isEmpty (query : Query) : Bool :=
  query.conditions.isEmpty

/-- The query as search text. -/
def Query.render (query : Query) : String :=
  " ".intercalate (query.conditions.map Condition.render)

/-- The item belongs to the list and satisfies the query.  Case is ignored. -/
def Query.admits (query : Query) (listId : String) (item : Item) : Bool :=
  item.listId = listId &&
    query.conditions.all (·.holds (Text.lower item.summary) item.isComplete)

end Agenda.Search

/-
Agenda/Store/Lookup.lean

Finding lists and items by what people type.  A list is found by its id, or
else by its name without regard to case; if there is none, the list with the
most similar name may be suggested.  An item is found by its id, or else by
the start of an id that no other item shares.
-/
import Agenda.Store.Basic
import Agenda.Store.Error
import Agenda.Text.LowerCase
import Agenda.Text.EditDistance

namespace Agenda

open Text

/-- Names further away than this are not similar. -/
def maxSuggestionDistance : Nat := 3

/-- The candidate with the least distance, the first of them if there are several. -/
def nearest? (distance : String → Nat) : List String → Option String
  | [] => none
  | name :: names =>
    match nearest? distance names with
    | some other => if distance other < distance name then some other else some name
    | none => some name

/-- The most similar of some names, if it is similar enough but not the same.  Case is ignored. -/
def similarName? (query : String) (names : List String) : Option String :=
  let distance (name : String) : Nat := editDistance (lower query) (lower name)
  (nearest? distance (names.filter fun name => !name.isEmpty)).filter fun name =>
    0 < distance name && distance name ≤ maxSuggestionDistance

namespace Store

/-- The list with this id, or else the first with this name, case ignored. -/
def resolveList (store : Store) (nameOrId : String) : Except StoreError TodoList :=
  let query := trim nameOrId
  match (store.lists.find? fun list => list.id = query).or
      (store.lists.find? fun list => lower list.name = lower query) with
  | some list => .ok list
  | none =>
    .error (.listNotFound query (similarName? query (store.lists.map TodoList.name)))

/-- The id of the item starts like this. -/
def startsWith (start : String) (item : Item) : Bool :=
  start.toList.isPrefixOf item.id.toList

/-- The item with this id, or else the only one whose id starts like this. -/
def resolveItem (store : Store) (start : String) : Except StoreError Item :=
  let start := trim start
  match store.items.find? fun item => item.id = start with
  | some item => .ok item
  | none =>
    if start.isEmpty then .error (.itemNotFound start)
    else
      match store.items.filter (startsWith start) with
      | [] => .error (.itemNotFound start)
      | [item] => .ok item
      | items => .error (.ambiguousItem start items.length)

end Store

end Agenda

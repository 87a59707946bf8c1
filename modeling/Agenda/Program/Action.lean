/-
Agenda/Program/Action.lean

What the commands do to a store.  A command either fails, and the store stays
as it is, or it leads to a step: the new store, whether it has to be saved,
what there is to tell, and what to note in the log.

Commands on several items find all of them before the first one is changed.
-/
import Agenda.CommandLine.Command
import Agenda.Program.Outline
import Agenda.Store.Action
import Agenda.Store.Lookup

namespace Agenda

/-- What a command comes to. -/
structure Step where
  /-- The new store. -/
  store : Store
  /-- The store has to be saved. -/
  saves : Bool := true
  /-- What there is to tell. -/
  outline : Outline
  /-- What there is to note. -/
  events : List LogEvent := []

/-- What a command knows besides its arguments. -/
structure Scope where
  /-- The id of the list that is worked on. -/
  listId : String
  /-- An id for what is created. -/
  newId : String
  /-- Searches are noted in the log. -/
  verbose : Bool := false

namespace Store

/-- The name of a list, or else its id. -/
def nameOf (store : Store) (listId : String) : String :=
  match store.lists.find? fun list => list.id = listId with
  | some list => list.name
  | none => listId

/-- The position of the first item with this id in a view, or else 0. -/
def indexIn (store : Store) (listId search id : String) : Nat :=
  ((store.view listId search).findIdx? fun item => item.id = id).getD 0

/-- What is noted of a view that was numbered afresh. -/
def renumberEvents (store : Store) (listId search : String) (placement : Placement) :
    List LogEvent :=
  if placement.renumbered then
    [.renumberedView (store.view listId search).length store.spacing.step]
  else []

/-! ### Several items -/

/-- The items that some words stand for. -/
def resolveItems (store : Store) (words : List String) : Except StoreError (List Item) :=
  words.mapM store.resolveItem

/-- The items, each id once. -/
def distinct (items : List Item) : List Item :=
  items.foldl (fun seen item =>
    if seen.any fun other => other.id = item.id then seen else seen ++ [item]) []

/-- Sets the completion flag of some items, one after another. -/
def setAllComplete (store : Store) (isComplete : Bool) :
    List String → Except StoreError (Store × List Item)
  | [] => .ok (store, [])
  | id :: ids => do
    let (store, item) ← store.setComplete id isComplete
    let (store, items) ← store.setAllComplete isComplete ids
    return (store, item :: items)

/-- Removes some items, one after another. -/
def removeAll (store : Store) : List String → Except StoreError Store
  | [] => .ok store
  | id :: ids => do
    let (store, _) ← store.removeItem id
    store.removeAll ids

/-- Marks the items that some words stand for. -/
def mark (store : Store) (action : BatchAction) (isComplete : Bool) (words : List String) :
    Except StoreError Step := do
  let found ← store.resolveItems words
  let (store, items) ← store.setAllComplete isComplete (found.map Item.id)
  return { store, outline := .batch action items }

end Store

/-! ### Commands -/

/-- What a command on lists does. -/
def ListsCommand.act (command : ListsCommand) (scope : Scope) (store : Store) :
    Except StoreError Step :=
  match command with
  | .overview => .ok { store, saves := false, outline := .lists store scope.listId }
  | .add name => do
    let (store, list) ← store.addList name scope.newId
    return { store, outline := .listAdded list, events := [.addedList list.id list.name] }
  | .rename word name => do
    let list ← store.resolveList word
    let (store, list) ← store.renameList list.id name
    return { store, outline := .listRenamed word list }
  | .delete word => do
    let list ← store.resolveList word
    let (store, list, items) ← store.removeList list.id
    return { store, outline := .listRemoved list items, events := [.removedList list.id items] }

/-- What a command does. -/
def StoreCommand.act (command : StoreCommand) (scope : Scope) (store : Store) :
    Except StoreError Step :=
  let listId := scope.listId
  match command with
  | .list search =>
    .ok {
      store
      saves := false
      outline := .view listId (store.nameOf listId) search (store.view listId search)
      events :=
        if scope.verbose && !search.isEmpty then
          [.parsedSearch (Search.Query.parse search).render]
        else [] }
  | .add summary after => do
    let selection := match after with
      | some index => Selection.ofIndex index
      | none => Selection.empty
    let (after, item, placement) ← store.addItem listId summary selection scope.newId
    return {
      store := after
      outline := .added ((after.item? item.id).getD item) (after.indexIn listId "" item.id)
        (after.nameOf listId)
      events := store.renumberEvents listId "" placement ++
        [.addedItem item.id listId placement] }
  | .move word target search => do
    let found ← store.resolveItem word
    let (after, placement) ← store.moveItem listId search found.id target
    return {
      store := after
      saves := placement != .unchanged
      outline := .moved ((after.item? found.id).getD found)
        (after.indexIn listId search found.id) placement
      events := store.renumberEvents listId search placement ++
        [.movedItem found.id listId search target placement] }
  | .done words => store.mark .complete true words
  | .reopen words => store.mark .reopen false words
  | .edit word summary => do
    let found ← store.resolveItem word
    let (store, item) ← store.setSummary found.id summary
    return { store, outline := .updated item }
  | .delete words => do
    let items := Store.distinct (← store.resolveItems words)
    let store ← store.removeAll (items.map Item.id)
    return { store, outline := .batch .delete items }
  | .lists command => command.act scope store

end Agenda

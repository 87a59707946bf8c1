/-
Agenda/Store/Error.lean

Why an action on the store or a look-up in it fails, and the messages that
say so.
-/
import Agenda.Text.Blank

namespace Agenda

/-- The longest name of a list, in characters. -/
def maxListName : Nat := 25

/-- What is wrong with a name for a list. -/
inductive NameFault where
  /-- The name is empty or blank. -/
  | missing
  /-- The name is longer than `maxListName`. -/
  | tooLong
deriving DecidableEq, Repr

/-- Why an action on the store fails. -/
inductive StoreError where
  /-- No list has this name or id.  A list with a similar name may be suggested. -/
  | listNotFound (name : String) (suggestion : Option String)
  /-- No item has an id that starts like this. -/
  | itemNotFound (id : String)
  /-- The item is not part of the view. -/
  | notInView (id : String)
  /-- Several items have an id that starts like this. -/
  | ambiguousItem (start : String) (count : Nat)
  /-- The name cannot be given to a list. -/
  | invalidListName (name : String) (fault : NameFault)
  /-- The list must stay. -/
  | protectedList (name : String)
deriving DecidableEq, Repr

/-- What is wrong with a name, in words. -/
def NameFault.message : NameFault → String
  | .missing => "name is required"
  | .tooLong => "name must be " ++ toString maxListName ++ " characters or fewer"

/-- The message for people. -/
def StoreError.message : StoreError → String
  | .listNotFound name none => "list '" ++ name ++ "' not found."
  | .listNotFound name (some suggestion) =>
    "list '" ++ name ++ "' not found. Did you mean '" ++ suggestion ++ "'?"
  | .itemNotFound id => "item '" ++ id ++ "' not found."
  | .notInView id => "item '" ++ id ++ "' is not in the current view"
  | .ambiguousItem start count =>
    "ambiguous item ID '" ++ start ++ "' matches " ++ toString count ++
      " items. Use more characters."
  | .invalidListName name fault => "invalid list name '" ++ name ++ "': " ++ fault.message
  | .protectedList name => "list '" ++ name ++ "' is the default list and cannot be deleted"

/-- The name for a list that the text `name` stands for, without the blanks around it. -/
def checkListName (name : String) : Except StoreError String :=
  let trimmed := Text.trim name
  if trimmed.isEmpty then .error (.invalidListName name .missing)
  else if maxListName < trimmed.length then .error (.invalidListName name .tooLong)
  else .ok trimmed

end Agenda

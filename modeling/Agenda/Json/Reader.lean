/-
Agenda/Json/Reader.lean

Reading JSON values of an expected form.  A value of another form is a
mismatch, found where the value starts, or after it if it is a scalar.
Values that nobody asks for are skipped, to any depth.

A record is written as an object or as an array of its fields in a fixed
order.  Its fields are gathered in a draft: `Fields` says how a field, given
by its name or its index, is read into a draft.
-/
import Agenda.Json.Scanner

namespace Agenda.Json

open Text

/-! ### Skipped values -/

/-- The colon between a name and a value, or the comma between two parts. -/
def separator (mark : Char) (input : List Char) : Except Fault (Reading Unit input) :=
  match h : skipGaps input with
  | [] => .error .incomplete
  | c :: cs =>
    if c = mark then
      .ok { value := (), rest := cs, rest_lt := length_lt_of_skipGaps h }
    else .error .malformed

/-- What comes next in a container. -/
inductive Turn where
  /-- The container is closed. -/
  | close
  /-- Another part follows. -/
  | more
deriving DecidableEq, Repr

/-- After a part of a container: a comma or the closing mark. -/
def afterPart (closing : Char) (input : List Char) : Except Fault (Reading Turn input) :=
  match h : skipGaps input with
  | [] => .error .incomplete
  | c :: cs =>
    if c = ',' then .ok { value := .more, rest := cs, rest_lt := length_lt_of_skipGaps h }
    else if c = closing then
      .ok { value := .close, rest := cs, rest_lt := length_lt_of_skipGaps h }
    else .error .malformed

/-- The closing mark, if a container ends before its first part. -/
def closesAtOnce (closing : Char) (input : List Char) : Option (Reading Unit input) :=
  match h : skipGaps input with
  | c :: cs =>
    if c = closing then
      some { value := (), rest := cs, rest_lt := length_lt_of_skipGaps h }
    else none
  | [] => none

/-- The mark that opens an object. -/
def openObject : Char := Char.ofNat 0x7B

/-- The mark that closes an object. -/
def closeObject : Char := Char.ofNat 0x7D

/-- The quote that opens the name of a member. -/
def openName (input : List Char) : Except Fault (Reading Unit input) :=
  separator '"' input

/-- The name of a skipped member, with the colon after it. -/
def skipName (input : List Char) : Except Fault (Reading Unit input) := do
  let quote ← openName input
  let name ← skipStringBody quote.rest
  let colon ← separator ':' name.rest
  return quote.andThen (name.andThen colon)

mutual

/-- Skips a value. -/
def skipValue (input : List Char) : Except Fault (Reading Unit input) :=
  match h : skipGaps input with
  | [] => .error .incomplete
  | c :: cs =>
    have lt : (skipGaps input).length = cs.length + 1 := by simp [h]
    have le := length_skipGaps_le input
    let within (r : Reading Unit cs) : Reading Unit input :=
      { value := (), rest := r.rest, rest_lt := by have := r.rest_lt; omega }
    if c = '"' then (skipStringBody cs).map within
    else if c = '[' then
      match closesAtOnce ']' cs with
      | some r => .ok (within r)
      | none => (skipElements cs).map within
    else if c = openObject then
      match closesAtOnce closeObject cs with
      | some r => .ok (within r)
      | none => (skipMembers cs).map within
    else
      (if c = 'n' then literal ['u', 'l', 'l'] (c :: cs)
        else if c = 't' then literal ['r', 'u', 'e'] (c :: cs)
        else if c = 'f' then literal ['a', 'l', 's', 'e'] (c :: cs)
        else if c = '-' ∨ c.isDigit then skipNumber (c :: cs)
        else .error .malformed).map fun r =>
          { value := (), rest := r.rest
            rest_lt := by have := r.rest_lt; simp only [List.length_cons] at this; omega }
termination_by (input.length, 0)
decreasing_by all_goals (apply Prod.Lex.left; omega)

/-- Skips the elements of an array up to its end. -/
def skipElements (input : List Char) : Except Fault (Reading Unit input) :=
  match skipValue input with
  | .error fault => .error fault
  | .ok v =>
    match afterPart ']' v.rest with
    | .error fault => .error fault
    | .ok turn =>
      match turn.value with
      | .close => .ok (v.andThen (turn.map fun _ => ()))
      | .more =>
        have := v.rest_lt
        have := turn.rest_lt
        (skipElements turn.rest).map fun r => v.andThen (turn.andThen r)
termination_by (input.length, 1)
decreasing_by
  · apply Prod.Lex.right; omega
  · apply Prod.Lex.left; omega

/-- Skips the members of an object up to its end. -/
def skipMembers (input : List Char) : Except Fault (Reading Unit input) :=
  match skipName input with
  | .error fault => .error fault
  | .ok name =>
    have := name.rest_lt
    match skipValue name.rest with
    | .error fault => .error fault
    | .ok v =>
      match afterPart closeObject v.rest with
      | .error fault => .error fault
      | .ok turn =>
        match turn.value with
        | .close => .ok (name.andThen (v.andThen (turn.map fun _ => ())))
        | .more =>
          have := v.rest_lt
          have := turn.rest_lt
          (skipMembers turn.rest).map fun r => name.andThen (v.andThen (turn.andThen r))
termination_by (input.length, 1)
decreasing_by
  · apply Prod.Lex.left; omega
  · apply Prod.Lex.left; omega

end

/-! ### Scalars -/

/-- The problem with a value, first in `input`, that does not have the expected form: its own
problem if it is a scalar that cannot be read, and otherwise a mismatch. -/
def otherForm (input : List Char) : Fault :=
  let after {α : Type} (r : Except Fault (Reading α input)) : Fault :=
    match r with
    | .error fault => fault
    | .ok _ => .mismatch
  match input with
  | [] => .incomplete
  | c :: cs =>
    if c = 'n' then after (literal ['u', 'l', 'l'] input)
    else if c = 't' then after (literal ['r', 'u', 'e'] input)
    else if c = 'f' then after (literal ['a', 'l', 's', 'e'] input)
    else if c = '-' ∨ c.isDigit then after (number input)
    else if c = '"' then
      match stringBody cs with
      | .error fault => fault
      | .ok _ => .mismatch
    else if c = '[' ∨ c = openObject then .mismatch
    else .malformed

/-- Reads a value that starts after the gaps. -/
def pastGaps {α : Type} (reader : Reader α) : Reader α := fun input =>
  (reader (skipGaps input)).map afterGaps

/-- A text. -/
def text : Reader String :=
  pastGaps fun input =>
    match input with
    | '"' :: cs => (stringBody cs).map fun r => (r.map String.ofList).cons '"'
    | _ => .error (otherForm input)

/-- A truth value. -/
def truth : Reader Bool :=
  pastGaps fun input =>
    match input.head? with
    | some 't' => (literal ['r', 'u', 'e'] input).map (·.map fun _ => true)
    | some 'f' => (literal ['a', 'l', 's', 'e'] input).map (·.map fun _ => false)
    | _ => .error (otherForm input)

/-- The text starts a number. -/
def startsNumber (input : List Char) : Bool :=
  match input.head? with
  | some c => c = '-' || c.isDigit
  | none => false

/-- An integer in the range of 64 bits. -/
def int64OfInt? (n : Int) : Option Int64 :=
  if Int64.minValue.toInt ≤ n ∧ n ≤ Int64.maxValue.toInt then some (Int64.ofInt n) else none

/-- An integer of 64 bits. -/
def int64 : Reader Int64 :=
  pastGaps fun input =>
    if startsNumber input then do
      let r ← number input
      match r.value.toInt?.bind int64OfInt? with
      | some n => return r.map fun _ => n
      | none => .error .mismatch
    else .error (otherForm input)

/-- A value that may also be `null`. -/
def nullable {α : Type} (reader : Reader α) : Reader (Option α) :=
  pastGaps fun input =>
    if input.head? = some 'n' then (literal ['u', 'l', 'l'] input).map (·.map fun _ => none)
    else (reader input).map (·.map some)

/-- A text that stands for a value of type `α`. -/
def textAs {α : Type} (read? : String → Option α) : Reader α := fun input => do
  let r ← text input
  match read? r.value with
  | some a => return r.map fun _ => a
  | none => .error .mismatch

/-! ### Arrays -/

/-- The elements of an array up to its end, at least one. -/
def elementsUpTo {α : Type} (reader : Reader α) (input : List Char) :
    Except Fault (Reading (List α) input) :=
  match reader input with
  | .error fault => .error fault
  | .ok v =>
    match afterPart ']' v.rest with
    | .error fault => .error fault
    | .ok turn =>
      match turn.value with
      | .close => .ok (v.andThen (turn.map fun _ => [v.value]))
      | .more =>
        have := v.rest_lt
        have := turn.rest_lt
        -- a comma is followed by an element, never by the end
        if (closesAtOnce ']' turn.rest).isSome then .error .malformed
        else (elementsUpTo reader turn.rest).map fun r =>
          v.andThen (turn.andThen (r.map (v.value :: ·)))
termination_by input.length
decreasing_by omega

/-- An array, all of whose elements have the same form. -/
def array {α : Type} (reader : Reader α) : Reader (List α) :=
  pastGaps fun input =>
    match input with
    | '[' :: cs =>
      match closesAtOnce ']' cs with
      | some r => .ok ((r.map fun _ => []).cons '[')
      | none => (elementsUpTo reader cs).map (·.cons '[')
    | _ => .error (otherForm input)

/-! ### Records -/

/-- How the fields of a record are read into a draft of type `δ`, and how the draft becomes a
record of type `α`. -/
structure Fields (δ α : Type) where
  /-- The draft without any field. -/
  blank : δ
  /-- The names of the fields, in order. -/
  names : List String
  /-- The field with this name is in the draft already. -/
  isSet : String → δ → Bool
  /-- Reads the value of the field with this name into the draft. -/
  read : String → δ → Reader δ
  /-- The record, if no field is missing that has no default. -/
  finish : δ → Option α

/-- The record of a draft; a missing field is a mismatch. -/
def Fields.finished {δ α : Type} (fields : Fields δ α) (draft : δ) : Except Fault α :=
  match fields.finish draft with
  | some a => .ok a
  | none => .error .mismatch

/-- Reads the value of a member with this name, after the name: into the draft if the record has
such a field, which must not be there yet, and otherwise skips it. -/
def Fields.member {δ α : Type} (fields : Fields δ α) (name : String) (draft : δ) : Reader δ :=
  fun input =>
    if name ∈ fields.names then
      if fields.isSet name draft then .error .mismatch
      else do
        let colon ← separator ':' input
        let v ← fields.read name draft colon.rest
        return colon.andThen v
    else do
      let colon ← separator ':' input
      let v ← skipValue colon.rest
      return colon.andThen (v.map fun _ => draft)

/-- The name of a wanted member. -/
def memberName (input : List Char) : Except Fault (Reading String input) := do
  let quote ← openName input
  let name ← stringBody quote.rest
  return quote.andThen (name.map String.ofList)

/-- The members of an object up to its end, at least one. -/
def Fields.membersUpTo {δ α : Type} (fields : Fields δ α) (draft : δ) (input : List Char) :
    Except Fault (Reading δ input) :=
  match memberName input with
  | .error fault => .error fault
  | .ok name =>
    match fields.member name.value draft name.rest with
    | .error fault => .error fault
    | .ok v =>
      match afterPart closeObject v.rest with
      | .error fault => .error fault
      | .ok turn =>
        match turn.value with
        | .close => .ok (name.andThen (v.andThen (turn.map fun _ => v.value)))
        | .more =>
          have := name.rest_lt
          have := v.rest_lt
          have := turn.rest_lt
          (fields.membersUpTo v.value turn.rest).map fun r =>
            name.andThen (v.andThen (turn.andThen r))
termination_by input.length
decreasing_by omega

/-- Reads the fields `names` in order from the elements of an array.  The array may end early, but
holds no more elements than there are fields. -/
def Fields.rowUpTo {δ α : Type} (fields : Fields δ α) (draft : δ) (first : Bool) :
    List String → Reader δ
  | [], input =>
    -- every field is there, so nothing but the end may follow
    match closesAtOnce ']' input with
    | some r => .ok (r.map fun _ => draft)
    | none => .error (if (skipGaps input).isEmpty then .incomplete else .malformed)
  | name :: names, input =>
    match closesAtOnce ']' input with
    | some r => .ok (r.map fun _ => draft)
    | none => do
      if first then
        if (skipGaps input).isEmpty then .error .incomplete
        else
          let v ← fields.read name draft input
          let r ← fields.rowUpTo v.value false names v.rest
          return v.andThen r
      else
        let comma ← separator ',' input
        if (closesAtOnce ']' comma.rest).isSome then .error .malformed
        else
          let v ← fields.read name draft comma.rest
          let r ← fields.rowUpTo v.value false names v.rest
          return comma.andThen (v.andThen r)

/-- A record, as an object or as an array of its fields. -/
def record {δ α : Type} (fields : Fields δ α) : Reader α :=
  pastGaps fun input =>
    match input with
    | '[' :: cs => do
      let r ← fields.rowUpTo fields.blank true fields.names cs
      let a ← fields.finished r.value
      return (r.map fun _ => a).cons '['
    | c :: cs =>
      if c = openObject then do
        let r ← match closesAtOnce closeObject cs with
          | some r => .ok (r.map fun _ => fields.blank)
          | none => fields.membersUpTo fields.blank cs
        let a ← fields.finished r.value
        return (r.map fun _ => a).cons c
      else .error (otherForm input)
    | [] => .error .incomplete

/-! ### Whole texts -/

/-- Reads a text that holds one value and gaps around it. -/
def readWhole {α : Type} (reader : Reader α) (input : String) : Except Fault α := do
  let r ← reader input.toList
  if (skipGaps r.rest).isEmpty then return r.value else .error .malformed

end Agenda.Json

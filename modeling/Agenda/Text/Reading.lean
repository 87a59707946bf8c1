/-
Agenda/Text/Reading.lean

What is read from the start of a text: a value, and the rest of the text with
the proof that something was read.  A reader that goes on with the rest comes
to an end, since the rest gets shorter.
-/

namespace Agenda.Text

/-- Something read from the start of `input`. -/
structure Reading (α : Type) (input : List Char) where
  /-- What was read. -/
  value : α
  /-- What follows it. -/
  rest : List Char
  /-- At least one character was read. -/
  rest_lt : rest.length < input.length

/-- The reading of one character more in front. -/
def Reading.cons {α : Type} {input : List Char} (c : Char) (r : Reading α input) :
    Reading α (c :: input) where
  value := r.value
  rest := r.rest
  rest_lt := Nat.lt_of_lt_of_le r.rest_lt (by simp)

/-- The same reading with another value. -/
def Reading.map {α β : Type} {input : List Char} (f : α → β) (r : Reading α input) :
    Reading β input where
  value := f r.value
  rest := r.rest
  rest_lt := r.rest_lt

/-- A reading after another one; the value is the later one. -/
def Reading.andThen {α β : Type} {input : List Char} (r : Reading α input)
    (s : Reading β r.rest) : Reading β input where
  value := s.value
  rest := s.rest
  rest_lt := Nat.lt_trans s.rest_lt r.rest_lt

/-- The reading with this value and this rest, if anything was read. -/
def Reading.of? {α : Type} {input : List Char} (value : α) (rest : List Char) :
    Option (Reading α input) :=
  if h : rest.length < input.length then some { value, rest, rest_lt := h } else none

end Agenda.Text

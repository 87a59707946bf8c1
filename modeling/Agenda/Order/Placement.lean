/-
Agenda/Order/Placement.lean

Placing an item in an ordered view.  The item gets the midpoint of its new
neighbours' precedences; only when the gap between them has become too small
is the whole view renumbered first.

Without a neighbour before it, an item is placed as if there were one with
precedence 0; without a neighbour after it, as if there were one two steps
beyond its place.  Values that would leave the 64-bit range stop at its ends.
-/
import Agenda.Order.Spacing
import Agenda.Order.Compare

namespace Agenda

/-! ### Arithmetic on precedences -/

/-- The precedence nearest to an integer. -/
def saturate (n : Int) : Int64 :=
  Int64.ofIntClamp n

/-- The mean of two precedences, rounded down. -/
def midpoint (low high : Int64) : Int64 :=
  saturate ((low.toInt + high.toInt) / 2)

/-! ### Results -/

/-- What became of an item that was to be placed. -/
inductive Placement where
  /-- The item was in its place already; nothing was written. -/
  | unchanged
  /-- The item got a new precedence. -/
  | placed (precedence : Int64) (renumbered : Bool)
deriving DecidableEq, Repr

/-- The rest of the view was renumbered to make room. -/
def Placement.renumbered : Placement → Bool
  | .unchanged => false
  | .placed _ renumbered => renumbered

/-! ### Places in a view

A view is seen here through its precedences, in display order.  The item that
is moved, if it is part of the view, stands at `origin`. -/

/-- The indices of the neighbours that an item put at `target` comes to lie between.  An item
moved down leaves its old slot, so the items after it close up. -/
def neighbours (origin : Option Nat) (target length : Nat) : Option Nat × Option Nat :=
  let within (i : Nat) : Option Nat := if i < length then some i else none
  let plain := (if target = 0 then none else some (target - 1), within target)
  match origin with
  | some i => if i < target then (some target, within (target + 1)) else plain
  | none => plain

/-- Numbers the slots from `index` on, starting with `value`: the slot `skip` is left alone, and
an extra step follows the slot `prev`. -/
def renumberFrom (spacing : Spacing) (skip prev : Option Nat) (index : Nat) (value : Int64) :
    List Int64 → List Int64
  | [] => []
  | rank :: ranks =>
    let next (value : Int64) : Int64 := saturate (value.toInt + spacing.step)
    if skip = some index then
      rank :: renumberFrom spacing skip prev (index + 1) (next value) ranks
    else
      value :: renumberFrom spacing skip prev (index + 1)
        (if prev = some index then next (next value) else next value) ranks

/-- Numbers a whole view in steps. -/
def renumber (spacing : Spacing) (skip prev : Option Nat) (ranks : List Int64) : List Int64 :=
  renumberFrom spacing skip prev 0 (saturate spacing.step) ranks

/-- The precedence at an index of the view, or `fallback` without an index. -/
def rankAt (ranks : List Int64) (index : Option Nat) (fallback : Int64) : Int64 :=
  match index with
  | some i => ranks.getD i fallback
  | none => fallback

/-- The outcome of looking for room in a view. -/
structure Room where
  /-- The precedence found for the item. -/
  precedence : Int64
  /-- The view had to be renumbered. -/
  renumbered : Bool
  /-- The precedences of the view afterwards. -/
  ranks : List Int64
deriving DecidableEq, Repr

/-- The precedence assumed after the end of a view for an item put at `target`. -/
def Spacing.beyond (spacing : Spacing) (target : Nat) : Int64 :=
  saturate ((saturate (target + 2)).toInt * spacing.step)

/-- The room at `target`: between its neighbours, after a renumber pass if they are too close. -/
def Spacing.roomAt (spacing : Spacing) (ranks : List Int64) (origin : Option Nat) (target : Nat) :
    Room :=
  let (prev, next) := neighbours origin target ranks.length
  let low := rankAt ranks prev 0
  let high := rankAt ranks next (spacing.beyond target)
  if (saturate (high.toInt - low.toInt)).toInt < spacing.minGap then
    let ranks := renumber spacing origin prev ranks
    { precedence := midpoint (rankAt ranks prev 0) (rankAt ranks next (spacing.beyond target))
      renumbered := true
      ranks }
  else
    { precedence := midpoint low high, renumbered := false, ranks }

/-! ### Items -/

/-- The items with these precedences, one for one. -/
def withRanks (items : List Item) (ranks : List Int64) : List Item :=
  items.zipWith (fun item rank => { item with precedence := rank }) ranks

/-- Moves the first item with this id to `target` of an ordered view.  A target past the end
means the last place.  The result keeps the order of the slots; it is `none` if no item of the
view has the id. -/
def Spacing.reorder (spacing : Spacing) (view : List Item) (id : String) (target : Nat) :
    Option (Placement × List Item) :=
  (view.findIdx? fun item => item.id = id).map fun origin =>
    let target := min target (view.length - 1)
    if origin = target then (.unchanged, view)
    else
      let room := spacing.roomAt (view.map Item.precedence) (some origin) target
      (.placed room.precedence room.renumbered,
        withRanks view (room.ranks.set origin room.precedence))

/-- Gives `item`, which is not part of the ordered view, the precedence that puts it at `target`.
A target past the end means the end.  Returns what was done, the item and the view. -/
def Spacing.insertAt (spacing : Spacing) (view : List Item) (item : Item) (target : Nat) :
    Placement × Item × List Item :=
  let room := spacing.roomAt (view.map Item.precedence) none (min target view.length)
  (.placed room.precedence room.renumbered, { item with precedence := room.precedence },
    withRanks view room.ranks)

end Agenda

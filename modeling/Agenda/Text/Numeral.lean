/-
Agenda/Text/Numeral.lean

Numbers as they are written in decimal: a sign, digits, perhaps a fraction
and an exponent.  A number may be too large for a double, and there are two
ways to tell:

* `overflows` goes by the value that is written, rounded once;
* `overflowsInSteps` goes by a quicker reckoning.  Only the leading digits
  that fit 64 bits count, and they and the power of ten are rounded each by
  itself before their product is.

Near the largest double the two do not agree.
-/
import Agenda.Text.Digits

namespace Agenda.Text

/-- A number as it is written. -/
structure Numeral where
  /-- A sign stands in front. -/
  negative : Bool
  /-- The digits before the point. -/
  whole : List Char
  /-- The digits after the point, if there is one. -/
  fraction : Option (List Char)
  /-- The sign and the digits of the exponent, if there is one. -/
  exponent : Option (Bool × List Char)
deriving DecidableEq, Repr

namespace Numeral

/-- The power of ten that the exponent asks for. -/
def power (n : Numeral) : Int :=
  match n.exponent with
  | some (true, ds) => -(decimalValue ds : Int)
  | some (false, ds) => decimalValue ds
  | none => 0

/-- The integer that a numeral without point and exponent stands for.  Zero with a sign is not
an integer. -/
def toInt? (n : Numeral) : Option Int :=
  match n.fraction, n.exponent with
  | none, none =>
    let magnitude := decimalValue n.whole
    if n.negative then
      if magnitude = 0 then none else some (-(magnitude : Int))
    else some magnitude
  | _, _ => none

end Numeral

/-! ### The range of doubles -/

/-- The least integer that is rounded beyond the largest finite double. -/
def doubleLimit : Nat := Nat.pow 2 1024 - Nat.pow 2 970

/-- The number lies beyond the range of doubles: its digits times a power of ten reach the limit.
Far from the limit the number of digits decides. -/
def Numeral.overflows (n : Numeral) : Bool :=
  let fraction := n.fraction.getD []
  let significand := decimalValue (n.whole ++ fraction)
  let exponent : Int := n.power - fraction.length
  let magnitude : Int := (Nat.toDigits 10 significand).length + exponent
  significand != 0 && (magnitude > 310 ||
    (magnitude ≥ 308 &&
      significand * Nat.pow 10 exponent.toNat ≥ doubleLimit * Nat.pow 10 (-exponent).toNat))

/-! ### Reckoning in steps -/

/-- The multiple of a power of two that is nearest to `n` and has 53 binary digits at most; of two
that are equally near, the one whose digits are even. -/
def nearestDouble (n : Nat) : Nat :=
  let unit := Nat.pow 2 (n.log2 - 52)
  let below := n / unit
  let rest := n % unit
  if unit < 2 * rest || (unit = 2 * rest && below % 2 = 1) then (below + 1) * unit
  else below * unit

/-- The number `n` with further digits written after it, as long as it fits 64 bits, and how many
digits it took. -/
def extended (n : Nat) : List Char → Nat × Nat
  | [] => (n, 0)
  | c :: cs =>
    let longer := 10 * n + (c.toNat - '0'.toNat)
    if longer < UInt64.size then
      let (value, taken) := extended longer cs
      (value, taken + 1)
    else (n, 0)

/-- The number leaves the range of doubles when it is reckoned in steps.  Digits before the point
that do not fit count as zeros, digits after it as nothing. -/
def Numeral.overflowsInSteps (n : Numeral) : Bool :=
  let (leading, taken) := extended 0 n.whole
  let (significand, more) := extended leading (n.fraction.getD [])
  let exponent : Int := n.power + n.whole.length - taken - more
  significand != 0 && exponent ≥ 0 && (exponent > 308 ||
    nearestDouble significand * nearestDouble (Nat.pow 10 exponent.toNat) ≥ doubleLimit)

end Agenda.Text

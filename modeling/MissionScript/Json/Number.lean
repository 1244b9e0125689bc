import MissionScript.Json.Basic
import MissionScript.Number.Arithmetic
import MissionScript.Number.Reading

/-!
Numbers in JSON. The digits are gathered into a significand of 64 bits, and what does not fit is
dropped; a number with a point or an exponent is the significand scaled by a power of ten, with one
rounding for each of the two steps.
-/

namespace MissionScript.Json

/-- The bound of a significand. -/
def significandBound : Nat := Nat.pow 2 64

/-- Gathers the digits before the point. A digit that does not fit ends the significand; it and the
    digits after it only raise the exponent. -/
def gatherWhole (significand : Nat) : List Char → Nat × Nat
  | [] => (significand, 0)
  | c :: rest =>
    let next := digitsValue significand [c]
    if next < significandBound then gatherWhole next rest else (significand, rest.length + 1)

/-- Gathers the digits after the point up to the first that does not fit, and counts them. -/
def gatherFraction (significand : Nat) (places : Nat) : List Char → Nat × Nat
  | [] => (significand, places)
  | c :: rest =>
    let next := digitsValue significand [c]
    if next < significandBound then gatherFraction next (places + 1) rest else (significand, places)

/-- A power of ten, rounded. -/
def powerOfTen (n : Nat) : Float :=
  Float.ofScientific 1 false n

/-- The greatest power of ten that a number can hold. -/
def maxPower : Nat := 308

/-- A significand scaled by a power of ten. There is none beyond all bounds. -/
def scale? (significand : Nat) (exponent : Int) : Option Float :=
  let x := Float.ofNat significand
  if significand = 0 then some x
  else if 0 ≤ exponent then
    if exponent ≤ maxPower then some (x * powerOfTen exponent.toNat) |>.filter Float.isFinite
    else none
  else
    let down := exponent.natAbs
    if down ≤ maxPower then some (x / powerOfTen down)
    else if down ≤ 2 * maxPower then some (x / powerOfTen maxPower / powerOfTen (down - maxPower))
    else some 0

/-- The value of a number from its sign, the digits before and after the point, and the exponent.
    `scaled` tells whether a point or an exponent is written. -/
def ofDigits (negative scaled : Bool) (whole fraction : List Char) (exponent : Int) : Json :=
  let (significand, raised) := gatherWhole 0 whole
  let (significand, places) := gatherFraction significand 0 fraction
  let size : Int := significand
  if !scaled && raised == 0 && !negative then .int size
  else if !scaled && raised == 0 && 0 < size && minInt64 ≤ -size then .int (-size)
  else
    match scale? significand (raised - places + exponent) with
    | some x => .float (if negative then -x else x)
    | none => .unreadable

end MissionScript.Json

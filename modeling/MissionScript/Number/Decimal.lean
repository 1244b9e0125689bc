/-!
Decimal numerals: what is written for a number before its layout is chosen, and the number that is
meant by what is written.
-/

namespace MissionScript

/-- The numeral `coefficient · 10 ^ exponent`, negated if `negative` is set. -/
structure Decimal where
  negative : Bool
  coefficient : Nat
  exponent : Int
  deriving DecidableEq

namespace Decimal

/-- The number nearest to a numeral, ties to even. A negated zero is the negative zero. -/
def toFloat (d : Decimal) : Float :=
  let magnitude := Float.ofScientific d.coefficient (decide (d.exponent < 0)) d.exponent.natAbs
  if d.negative then -magnitude else magnitude

/-- The same numeral without a positive exponent: its zeros are written out. -/
def spread (d : Decimal) : Decimal :=
  if 0 < d.exponent then
    { d with coefficient := d.coefficient * Nat.pow 10 d.exponent.toNat, exponent := 0 }
  else d

/-- The same numeral without the zeros at its end that come before the exponent; at most `fuel` of
    them are moved there. -/
def strip : (fuel : Nat) → Decimal → Decimal
  | 0, d => d
  | fuel + 1, d =>
    if d.coefficient ≠ 0 ∧ d.coefficient % 10 = 0 then
      strip fuel { d with coefficient := d.coefficient / 10, exponent := d.exponent + 1 }
    else d

theorem spread_exponent_nonpos (d : Decimal) : d.spread.exponent ≤ 0 := by
  unfold spread
  split <;> simp_all

/-- A numeral that is not spread any further has kept its value as a pair. -/
theorem spread_eq_self_iff {d : Decimal} : d.spread = d ↔ d.exponent ≤ 0 := by
  constructor
  · intro h
    exact h ▸ spread_exponent_nonpos d
  · intro h
    simp [spread, show ¬0 < d.exponent by omega]

end Decimal

end MissionScript

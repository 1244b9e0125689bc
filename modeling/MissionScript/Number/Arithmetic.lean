import MissionScript.Number.Shortest

/-!
Arithmetic that core does not offer: the remainder of a division toward zero, truncation to a
whole number, counts and whole numbers of 64 bits as numbers, and the smaller and larger of two numbers.
-/

namespace MissionScript

/-- The number nearest to `± mantissa · 2 ^ exponent`. -/
def floatOfParts (negative : Bool) (mantissa : Nat) (exponent : Int) : Float :=
  let sign : Float.Model.UnpackedFloat.Sign := if negative then .negative else .positive
  .ofModel (.pack (if mantissa = 0 then .zero sign else .round .binary64 sign mantissa exponent))

/-- The remainder of dividing toward zero. It has the sign of the dividend and is exact. -/
def remainder (a b : Float) : Float :=
  match floatParts a, floatParts b with
  | .finite negative m e, .finite _ n f =>
    if n = 0 then 0 / 0
    else
      let low := min e f
      floatOfParts negative ((m * Nat.pow 2 (e - low).toNat) % (n * Nat.pow 2 (f - low).toNat)) low
  | .finite .., .infinite _ => a
  | _, _ => 0 / 0

/-- The least and the greatest whole number of 64 bits. -/
def minInt64 : Int := -9223372036854775808

/-- The greatest whole number of 64 bits. -/
def maxInt64 : Int := 9223372036854775807

/-- A whole number moved into the range of 64 bits. -/
def clampInt64 (n : Int) : Int :=
  max minInt64 (min maxInt64 n)

/-- A number without its fraction, moved into the range of 64 bits. What is no number is zero. -/
def truncate (x : Float) : Int :=
  match floatParts x with
  | .notANumber => 0
  | .infinite negative => if negative then minInt64 else maxInt64
  | .finite negative m e =>
    let size : Int := (m * Nat.pow 2 e.toNat / Nat.pow 2 (-e).toNat : Nat)
    clampInt64 (if negative then -size else size)

/-- A count as a number. Counts are words of 64 bits. -/
def floatOfCount (n : Nat) : Float :=
  (UInt64.ofNat n).toFloat

/-- A whole number of 64 bits as a number. -/
def floatOfInt64 (n : Int64) : Float :=
  .ofModel (.ofInt64 n)

/-- The smaller of two numbers, the second if they are equal. One that is no number gives way. -/
def smaller (a b : Float) : Float :=
  if a < b || b.isNaN then a else b

/-- The larger of two numbers, the second if they are equal. One that is no number gives way. -/
def larger (a b : Float) : Float :=
  if b < a || b.isNaN then a else b

theorem minInt64_le_clampInt64 (n : Int) : minInt64 ≤ clampInt64 n :=
  Int.le_max_left ..

theorem clampInt64_le_maxInt64 (n : Int) : clampInt64 n ≤ maxInt64 := by
  simp only [clampInt64, minInt64, maxInt64]
  omega

end MissionScript

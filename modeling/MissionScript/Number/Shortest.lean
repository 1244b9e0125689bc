import MissionScript.Number.Decimal

/-!
The shortest numeral that reads back as a given number. For one digit, then two, and so on, the two
neighbours of the number among the numerals of that many digits are read back; the first that gives
the number again is taken, the nearer of the two if both do.
-/

namespace MissionScript

/-- Which of two neighbours is preferred when a number lies exactly between them. -/
inductive Tie where
  | up
  | toEven
  deriving DecidableEq

/-- A number taken apart. A finite number is `mantissa · 2 ^ exponent`. -/
inductive FloatParts where
  | notANumber
  | infinite (negative : Bool)
  | finite (negative : Bool) (mantissa : Nat) (exponent : Int)

/-- The parts of a number. -/
def floatParts (x : Float) : FloatParts :=
  match x.toModel.unpack with
  | .notANumber => .notANumber
  | .infinity s => .infinite (s == .negative)
  | .zero s => .finite (s == .negative) 0 0
  | .finite s m e _ => .finite (s == .negative) m e

namespace Decimal

/-- The decimal place of the first digit of the positive fraction `num / den`. -/
def leadingPlace (num den : Nat) : Int :=
  if den ≤ num then (Nat.toDigits 10 (num / den)).length - 1
  else
    let places := (Nat.toDigits 10 (den / num)).length
    if den ≤ num * Nat.pow 10 (places - 1) then -(places - 1 : Nat) else -places

/-- The multiples of `10 ^ place` on both sides of `num / den`, the preferred one first. -/
def neighbours (tie : Tie) (num den : Nat) (place : Int) : List Nat :=
  let num := num * Nat.pow 10 (-place).toNat
  let den := den * Nat.pow 10 place.toNat
  let below := num / den
  let twice := 2 * (num % den)
  if den < twice ∨ (twice = den ∧ (tie = .up ∨ below % 2 = 1)) then [below + 1, below]
  else [below, below + 1]

/-- The numeral with all digits of `mantissa · 2 ^ exponent`. -/
def exact (negative : Bool) (mantissa : Nat) (exponent : Int) : Decimal :=
  if 0 ≤ exponent then ⟨negative, mantissa * Nat.pow 2 exponent.toNat, 0⟩
  else ⟨negative, mantissa * Nat.pow 5 (-exponent).toNat, exponent⟩

/-- Whether a numeral, with its zeros written out, is read as this very number. -/
def readsAs (x : Float) (d : Decimal) : Bool :=
  d.spread.toFloat.toBits == x.toBits

/-- The shortest numeral for `x = ± mantissa · 2 ^ exponent`. A number never needs more than
    seventeen digits. -/
def shortest (tie : Tie) (x : Float) (negative : Bool) (mantissa : Nat) (exponent : Int) :
    Decimal :=
  if mantissa = 0 then ⟨negative, 0, 0⟩
  else
    let num := mantissa * Nat.pow 2 exponent.toNat
    let den := Nat.pow 2 (-exponent).toNat
    let first := leadingPlace num den
    let candidates := (List.range 17).flatMap fun (more : Nat) =>
      (neighbours tie num den (first - more)).map fun c => strip 17 ⟨negative, c, first - more⟩
    (candidates.find? (readsAs x)).getD (exact negative mantissa exponent)

/-- What is found among the candidates reads back. -/
theorem readsAs_of_find? {x : Float} {candidates : List Decimal} {d : Decimal}
    (h : candidates.find? (readsAs x) = some d) : readsAs x d = true :=
  List.find?_some h

end Decimal

end MissionScript

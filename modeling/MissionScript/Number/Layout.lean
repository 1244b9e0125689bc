import MissionScript.Number.Shortest

/-!
How a number is written. A style says where the notation with an exponent begins and how a whole
number ends; the digits are the shortest that read back.
-/

namespace MissionScript

/-- The decisions of a format for numbers. -/
structure NumberStyle where
  /-- which of two equally near numerals is written -/
  tie : Tie
  /-- whether the digits are written with a point, given the number of digits before the point -/
  positional : Int → Bool
  /-- what follows the digits of a whole number -/
  wholeEnd : List Char

namespace NumberStyle

/-- Numbers in formulas and in texts never have an exponent, and whole numbers have no point. -/
def plain : NumberStyle :=
  ⟨.up, fun _ => true, []⟩

/-- Numbers in JSON have a point or an exponent; the point stands within the first sixteen digits
    or at most four zeros before them. -/
def json : NumberStyle :=
  ⟨.toEven, fun point => -5 < point && point ≤ 16, ['.', '0']⟩

end NumberStyle

/-- The sign of a numeral. -/
def signText (negative : Bool) : List Char :=
  if negative then ['-'] else []

/-- The digits of a whole number. -/
def digitsOf (n : Nat) : List Char :=
  Nat.toDigits 10 n

namespace Decimal

/-- A numeral with a point: zeros are filled in on either side as needed. -/
def positionalText (wholeEnd : List Char) (d : Decimal) : List Char :=
  if 0 ≤ d.exponent then digitsOf (d.coefficient * Nat.pow 10 d.exponent.toNat) ++ wholeEnd
  else
    let places := d.exponent.natAbs
    let digits := digitsOf d.coefficient
    let padded := List.replicate (places + 1 - digits.length) '0' ++ digits
    padded.take (padded.length - places) ++ '.' :: padded.drop (padded.length - places)

/-- A numeral with one digit before the point and an exponent, which always has a sign. -/
def exponentText (d : Decimal) : List Char :=
  let digits := digitsOf d.coefficient
  let power := d.exponent + digits.length - 1
  digits.take 1 ++ (if digits.length = 1 then [] else '.' :: digits.drop 1) ++ 'e' ::
    (if power < 0 then '-' else '+') :: digitsOf power.natAbs

/-- The text of a numeral in a style. -/
def text (style : NumberStyle) (d : Decimal) : List Char :=
  signText d.negative ++
    if style.positional (d.exponent + (digitsOf d.coefficient).length) then
      d.positionalText style.wholeEnd
    else d.exponentText

end Decimal

/-- The text of a number in a style. -/
def numberText (style : NumberStyle) (x : Float) : List Char :=
  match floatParts x with
  | .notANumber => ['N', 'a', 'N']
  | .infinite negative => signText negative ++ ['i', 'n', 'f']
  | .finite negative mantissa exponent =>
    (Decimal.shortest style.tie x negative mantissa exponent).text style

/-- The text of a number in formulas, messages and saved variables. -/
def showNumber (x : Float) : String :=
  String.ofList (numberText .plain x)

end MissionScript

import MissionScript.Number.Decimal

/-!
Numbers as they are written: a sign, digits with a point among them, and an exponent. At least one
digit stands before the exponent, and at least one in it.
-/

namespace MissionScript

/-- Whether a character is one of the ten digits of ASCII. -/
def isDigit (c : Char) : Bool :=
  '0' ≤ c && c ≤ '9'

/-- The whole number that a row of digits stands for, after `start`. -/
def digitsValue (start : Nat) (digits : List Char) : Nat :=
  digits.foldl (fun n c => n * 10 + (c.toNat - '0'.toNat)) start

/-- A sign, if there is one, and the rest. -/
def readSign : List Char → Bool × List Char
  | '-' :: rest => (true, rest)
  | '+' :: rest => (false, rest)
  | rest => (false, rest)

/-- The exponent at the end of a numeral; an empty text is the exponent zero. -/
def readExponent : List Char → Option Int
  | [] => some 0
  | e :: rest =>
    let (negative, digits) := readSign rest
    if (e == 'e' || e == 'E') && !digits.isEmpty && digits.all isDigit then
      let size : Int := digitsValue 0 digits
      some (if negative then -size else size)
    else none

namespace Decimal

/-- The digits of a numeral on both sides of its point, and what follows them. -/
def readDigits (s : List Char) : List Char × List Char × List Char :=
  match s.dropWhile isDigit with
  | '.' :: rest => (s.takeWhile isDigit, rest.takeWhile isDigit, rest.dropWhile isDigit)
  | rest => (s.takeWhile isDigit, [], rest)

/-- Reads a whole text as a numeral. -/
def read? (s : List Char) : Option Decimal :=
  let (negative, s) := readSign s
  let (whole, fraction, rest) := readDigits s
  if whole.isEmpty && fraction.isEmpty then none
  else (readExponent rest).map fun exponent =>
    ⟨negative, digitsValue (digitsValue 0 whole) fraction, exponent - fraction.length⟩

end Decimal

/-- Reads a whole text as a finite number. -/
def readNumber? (s : List Char) : Option Float :=
  ((Decimal.read? s).map Decimal.toFloat).filter Float.isFinite

/-- Reads a whole text as a number. The words for infinity and for no number may have a sign and be
    in either case. -/
def readAnyNumber? (s : List Char) : Option Float :=
  let (negative, word) := readSign s
  let infinity : Float := if negative then -1 / 0 else 1 / 0
  match String.ofList (word.map Char.toLower) with
  | "inf" | "infinity" => some infinity
  | "nan" => some (0 / 0)
  | _ => (Decimal.read? s).map Decimal.toFloat

/-- What is read is finite. -/
theorem isFinite_of_readNumber? {s : List Char} {x : Float} (h : readNumber? s = some x) :
    x.isFinite = true :=
  (Option.filter_eq_some_iff.1 h).2

end MissionScript

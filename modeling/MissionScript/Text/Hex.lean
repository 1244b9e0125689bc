/-!
Bytes as pairs of hexadecimal digits.
-/

namespace MissionScript.Text

/-- The digit of a half byte. -/
def hexDigit (n : Nat) : Char :=
  Nat.digitChar (n % 16)

/-- The two digits of a byte. -/
def hexByte (b : UInt8) : List Char :=
  [hexDigit (b.toNat / 16), hexDigit b.toNat]

/-- The number that a digit stands for, in either case. -/
def hexValue? (c : Char) : Option Nat :=
  if '0' ≤ c ∧ c ≤ '9' then some (c.toNat - '0'.toNat)
  else if 'a' ≤ c ∧ c ≤ 'f' then some (c.toNat - 'a'.toNat + 10)
  else if 'A' ≤ c ∧ c ≤ 'F' then some (c.toNat - 'A'.toNat + 10)
  else none

/-- All bytes in a row. -/
def toHex (bytes : List UInt8) : String :=
  String.ofList (bytes.flatMap hexByte)

/-- Reads pairs of digits back; anything else is refused. -/
def ofHex? : List Char → Option (List UInt8)
  | [] => some []
  | [_] => none
  | a :: b :: rest => do
    let high ← hexValue? a
    let low ← hexValue? b
    let bytes ← ofHex? rest
    return UInt8.ofNat (high * 16 + low) :: bytes

end MissionScript.Text

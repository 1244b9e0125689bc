import MissionScript.Name
import MissionScript.Text.Hex

/-!
File names made from arbitrary names. A name is folded, and each byte of it that is not a small
letter, a digit, a hyphen or an underscore is written as a percent sign and two digits.
-/

namespace MissionScript.Text

/-- Whether a byte stands for itself in a file name. -/
def isPlainByte (b : UInt8) : Bool :=
  (0x61 ≤ b && b ≤ 0x7A) || (0x30 ≤ b && b ≤ 0x39) || b == 0x2D || b == 0x5F

/-- A byte in a file name. -/
def stemByte (b : UInt8) : List Char :=
  if isPlainByte b then [Char.ofNat b.toNat] else '%' :: hexByte b

/-- The part of a file name that stands for a name. -/
def fileStem (name : String) : String :=
  String.ofList ((foldName name).toUTF8.data.toList.flatMap stemByte)

end MissionScript.Text

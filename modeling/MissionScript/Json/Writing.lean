import MissionScript.Json.Basic
import MissionScript.Number.Layout
import MissionScript.Text.Hex

/-!
Writing JSON, on one line or with every item on a line of its own.
-/

namespace MissionScript.Json

/-- A character between quotes. Only what must not stand there is escaped. -/
def writeChar (c : Char) : List Char :=
  match c with
  | '"' => ['\\', '"']
  | '\\' => ['\\', '\\']
  | '\x08' => ['\\', 'b']
  | '\x0c' => ['\\', 'f']
  | '\n' => ['\\', 'n']
  | '\r' => ['\\', 'r']
  | '\t' => ['\\', 't']
  | c =>
    if c.toNat < 0x20 then
      ['\\', 'u', '0', '0', Text.hexDigit (c.toNat / 16), Text.hexDigit c.toNat]
    else [c]

/-- A text in quotes. -/
def writeText (s : String) : List Char :=
  '"' :: s.toList.flatMap writeChar ++ ['"']

/-- A whole number. -/
def writeInt (n : Int) : List Char :=
  signText (n < 0) ++ digitsOf n.natAbs

/-- A number. JSON has no word for one that is not finite. -/
def writeFloat (x : Float) : List Char :=
  if x.isFinite then numberText .json x else ['n', 'u', 'l', 'l']

/-- A value without parts. -/
def writeLeaf : Json → List Char
  | .bool true => ['t', 'r', 'u', 'e']
  | .bool false => ['f', 'a', 'l', 's', 'e']
  | .int n => writeInt n
  | .float x => writeFloat x
  | .str s => writeText s
  | _ => ['n', 'u', 'l', 'l']

/-- The white space of a layout. -/
structure Spacing where
  /-- what stands before an item at a depth -/
  line : Nat → List Char
  /-- what stands between the name and the value of a member -/
  colon : List Char

/-- Everything on one line, without any space. -/
def Spacing.compact : Spacing :=
  ⟨fun _ => [], [':']⟩

/-- Every item on its own line, two spaces further in than what holds it. -/
def Spacing.pretty : Spacing :=
  ⟨fun depth => '\n' :: List.replicate (2 * depth) ' ', [':', ' ']⟩

mutual

/-- A value at a depth. -/
def write (spacing : Spacing) (depth : Nat) : Json → List Char
  | .arr [] => ['[', ']']
  | .arr (item :: rest) =>
    '[' :: spacing.line (depth + 1) ++ write spacing (depth + 1) item ++
      writeItems spacing depth rest
  | .obj [] => ['\x7b', '\x7d']
  | .obj ((name, item) :: rest) =>
    '\x7b' :: spacing.line (depth + 1) ++ writeText name ++ spacing.colon ++
      write spacing (depth + 1) item ++ writeMembers spacing depth rest
  | value => writeLeaf value

/-- The items after the first, and the closing bracket. -/
def writeItems (spacing : Spacing) (depth : Nat) : List Json → List Char
  | [] => spacing.line depth ++ [']']
  | item :: rest =>
    ',' :: spacing.line (depth + 1) ++ write spacing (depth + 1) item ++
      writeItems spacing depth rest

/-- The members after the first, and the closing brace. -/
def writeMembers (spacing : Spacing) (depth : Nat) : List (String × Json) → List Char
  | [] => spacing.line depth ++ ['\x7d']
  | (name, item) :: rest =>
    ',' :: spacing.line (depth + 1) ++ writeText name ++ spacing.colon ++
      write spacing (depth + 1) item ++ writeMembers spacing depth rest

end

/-- A value on one line. -/
def compact (value : Json) : String :=
  String.ofList (value.write .compact 0)

/-- A value on many lines. -/
def pretty (value : Json) : String :=
  String.ofList (value.write .pretty 0)

end MissionScript.Json

import MissionScript.Json.Number
import MissionScript.Text.Hex
import MissionScript.Text.Utf8

/-!
Reading JSON. A reader takes a value off the front of a text and returns the rest; the number of
characters bounds how deep it can go. The text may have places where bytes form no character: they
can only stand between quotes, and what holds them denotes nothing.
-/

namespace MissionScript.Json

/-- Whether a character may stand between the parts of a JSON text. -/
def isSpace (c : Text.Symbol) : Bool :=
  c == some ' ' || c == some '\t' || c == some '\n' || c == some '\r'

/-- A text without the space before it. -/
def skipSpace (s : List Text.Symbol) : List Text.Symbol :=
  s.dropWhile isSpace

/-- A digit that is not zero starts a row of digits; zero stands alone. -/
def readWhole : List Char → Option (List Char × List Char)
  | '0' :: rest => if (rest.head?).any isDigit then none else some (['0'], rest)
  | s => if (s.head?).any isDigit then some (s.takeWhile isDigit, s.dropWhile isDigit) else none

/-- The digits after a point, if there is one. -/
def readFraction : List Char → Option (List Char × List Char)
  | '.' :: rest =>
    if (rest.head?).any isDigit then some (rest.takeWhile isDigit, rest.dropWhile isDigit) else none
  | s => some ([], s)

/-- The exponent, if there is one. -/
def readPower : List Char → Option (Option Int × List Char)
  | c :: rest =>
    if c == 'e' || c == 'E' then
      let (negative, digits) := readSign rest
      if (digits.head?).any isDigit then
        let size : Int := digitsValue 0 (digits.takeWhile isDigit)
        some (some (if negative then -size else size), digits.dropWhile isDigit)
      else none
    else some (none, c :: rest)
  | [] => some (none, [])

/-- A whole text as a number. -/
def numberOf? (s : List Char) : Option Json := do
  let (negative, s) := match s with
    | '-' :: rest => (true, rest)
    | s => (false, s)
  let (whole, s) ← readWhole s
  let (fraction, s) ← readFraction s
  let (power, s) ← readPower s
  guard s.isEmpty
  return ofDigits negative (!fraction.isEmpty || power.isSome) whole fraction (power.getD 0)

/-- Whether a character can be part of a number. -/
def isNumberChar (c : Char) : Bool :=
  isDigit c || c == '-' || c == '+' || c == '.' || c == 'e' || c == 'E'

/-- A number: all characters up to the first that is part of none. -/
def readNumber (s : List Text.Symbol) : Option (Json × List Text.Symbol) :=
  (numberOf? ((s.takeWhile (·.any isNumberChar)).filterMap id)).map
    (·, s.dropWhile (·.any isNumberChar))

/-- The number of hexadecimal digits. -/
def codeUnit? (digits : List Text.Symbol) : Option Nat :=
  digits.foldlM (fun n c => (c.bind Text.hexValue?).map (n * 16 + ·)) 0

/-- The character of an escape that is a single letter. -/
def simpleEscape? : Char → Option Char
  | '"' => some '"'
  | '\\' => some '\\'
  | '/' => some '/'
  | 'b' => some '\x08'
  | 'f' => some '\x0c'
  | 'n' => some '\n'
  | 'r' => some '\r'
  | 't' => some '\t'
  | _ => none

/-- One piece of a text between quotes. -/
inductive Piece where
  | char (c : Char)
  | lead (unit : Nat)
  | trail (unit : Nat)
  /-- bytes that form no character -/
  | stray

/-- A code unit as a piece: a character, or one half of one. -/
def Piece.ofUnit (unit : Nat) : Piece :=
  if 0xD800 ≤ unit ∧ unit < 0xDC00 then .lead unit
  else if 0xDC00 ≤ unit ∧ unit < 0xE000 then .trail unit
  else .char (Char.ofNat unit)

/-- The pieces of a text up to the closing quote, and what follows it. -/
def readPieces : List Text.Symbol → Option (List Piece × List Text.Symbol)
  | [] => none
  | some '"' :: rest => some ([], rest)
  | some '\\' :: some 'u' :: a :: b :: c :: d :: rest => do
    let unit ← codeUnit? [a, b, c, d]
    let (pieces, rest) ← readPieces rest
    return (.ofUnit unit :: pieces, rest)
  | some '\\' :: e :: rest => do
    let c ← e.bind simpleEscape?
    let (pieces, rest) ← readPieces rest
    return (.char c :: pieces, rest)
  | some c :: rest =>
    if c.toNat < 0x20 then none
    else (readPieces rest).map fun (pieces, rest) => (.char c :: pieces, rest)
  | none :: rest => (readPieces rest).map fun (pieces, rest) => (.stray :: pieces, rest)

/-- The characters of a row of pieces, if every half has its other half after it. -/
def joinPieces : List Piece → Option (List Char)
  | [] => some []
  | .char c :: rest => (joinPieces rest).map (c :: ·)
  | .lead high :: .trail low :: rest =>
    (joinPieces rest).map
      (Char.ofNat (0x10000 + (high - 0xD800) * 0x400 + (low - 0xDC00)) :: ·)
  | _ => none

/-- A text after its opening quote; `none` inside stands for a text that denotes nothing. -/
def readText (s : List Text.Symbol) : Option (Option String × List Text.Symbol) :=
  (readPieces s).map fun (pieces, rest) => ((joinPieces pieces).map String.ofList, rest)

/-- A word at the front of a text. -/
def readWord (word : List Char) (meaning : Json) (s : List Text.Symbol) :
    Option (Json × List Text.Symbol) :=
  if (word.map some).isPrefixOf s then some (meaning, s.drop word.length) else none

/-- The members of an object whose names have been read; one nameless member spoils all. -/
def ofMembers (members : List (Option String × Json)) : Json :=
  match members.mapM fun (name, item) => name.map (·, item) with
  | some members => .obj members
  | none => .unreadable

mutual

/-- A value, without the space before it. -/
def readValue : (fuel : Nat) → List Text.Symbol → Option (Json × List Text.Symbol)
  | 0, _ => none
  | fuel + 1, s =>
    match s with
    | some '[' :: rest =>
      match skipSpace rest with
      | some ']' :: rest => some (.arr [], rest)
      | rest => (readItems fuel rest).map fun (items, rest) => (.arr items, rest)
    | some '\x7b' :: rest =>
      match skipSpace rest with
      | some '\x7d' :: rest => some (.obj [], rest)
      | rest => (readMembers fuel rest).map fun (members, rest) => (ofMembers members, rest)
    | some '"' :: rest => (readText rest).map fun (text, rest) => (text.elim .unreadable .str, rest)
    | some 'n' :: _ => readWord ['n', 'u', 'l', 'l'] .null s
    | some 't' :: _ => readWord ['t', 'r', 'u', 'e'] (.bool true) s
    | some 'f' :: _ => readWord ['f', 'a', 'l', 's', 'e'] (.bool false) s
    | _ => readNumber s

/-- The items of an array up to its closing bracket; there is at least one. -/
def readItems : (fuel : Nat) → List Text.Symbol → Option (List Json × List Text.Symbol)
  | 0, _ => none
  | fuel + 1, s => do
    let (item, rest) ← readValue fuel s
    match skipSpace rest with
    | some ',' :: rest =>
      let (items, rest) ← readItems fuel (skipSpace rest)
      return (item :: items, rest)
    | some ']' :: rest => return ([item], rest)
    | _ => none

/-- The members of an object up to its closing brace; there is at least one. -/
def readMembers : (fuel : Nat) → List Text.Symbol →
    Option (List (Option String × Json) × List Text.Symbol)
  | 0, _ => none
  | fuel + 1, s => do
    let some '"' :: rest := s | none
    let (name, rest) ← readText rest
    let some ':' :: rest := skipSpace rest | none
    let (item, rest) ← readValue fuel (skipSpace rest)
    match skipSpace rest with
    | some ',' :: rest =>
      let (members, rest) ← readMembers fuel (skipSpace rest)
      return ((name, item) :: members, rest)
    | some '\x7d' :: rest => return ([(name, item)], rest)
    | _ => none

end

/-- Reads a whole text, with or without places that are no character, as one value. -/
def readSymbols? (s : List Text.Symbol) : Option Json := do
  let (value, rest) ← readValue (2 * s.length + 2) (skipSpace s)
  guard (skipSpace rest).isEmpty
  return value

/-- Reads a whole text as one value. -/
def read? (text : String) : Option Json :=
  readSymbols? (Text.symbols text)

/-- Reads the contents of a file as one value. -/
def readBytes? (bytes : Bytes) : Option Json :=
  readSymbols? (Text.symbolsOfBytes bytes)

end MissionScript.Json

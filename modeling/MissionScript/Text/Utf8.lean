/-!
Texts as bytes, in the encoding UTF-8. Not all bytes are a text: where they form no character, a
reader may pass over them, and what is shown has a replacement for them.
-/

namespace MissionScript

/-- The contents of a file. -/
abbrev Bytes := List UInt8

/-- The bytes of a text. -/
def bytesOfText (text : String) : Bytes :=
  text.toUTF8.data.toList

/-- The text that bytes stand for, if they stand for one. -/
def textOfBytes? (bytes : Bytes) : Option String :=
  String.fromUTF8? ⟨bytes.toArray⟩

namespace Text

/-- A character, or nothing where bytes form none. -/
abbrev Symbol := Option Char

/-- The characters of a text. -/
def symbols (text : String) : List Symbol :=
  text.toList.map some

/-- A character of which the first bytes have been read. -/
structure Begun where
  /-- how many bytes it lacks -/
  owed : Nat
  /-- the least and the greatest byte that can come next -/
  low : Nat
  high : Nat
  /-- the code point as far as it is known -/
  point : Nat

/-- The least byte that goes on with a character. -/
def lowTail : Nat := 0x80

/-- The greatest byte that goes on with a character. -/
def highTail : Nat := 0xBF

/-- What comes of the first byte of a character: the whole of it, or its beginning. There is neither
    where no character begins so. Bounds on the second byte keep out spellings that are too long,
    halves of characters and points that are too large. -/
def beginSymbol (b : Nat) : List Symbol × Option Begun :=
  if b < 0x80 then ([some (Char.ofNat b)], none)
  else if 0xC2 ≤ b ∧ b ≤ 0xDF then ([], some ⟨1, lowTail, highTail, b - 0xC0⟩)
  else if 0xE0 ≤ b ∧ b ≤ 0xEF then
    let low := if b = 0xE0 then 0xA0 else lowTail
    let high := if b = 0xED then 0x9F else highTail
    ([], some ⟨2, low, high, b - 0xE0⟩)
  else if 0xF0 ≤ b ∧ b ≤ 0xF4 then
    let low := if b = 0xF0 then 0x90 else lowTail
    let high := if b = 0xF4 then 0x8F else highTail
    ([], some ⟨3, low, high, b - 0xF0⟩)
  else ([none], none)

/-- What comes of the next byte. A byte that cannot go on with a character breaks it off and begins
    another one. -/
def stepSymbol (begun : Option Begun) (b : Nat) : List Symbol × Option Begun :=
  match begun with
  | none => beginSymbol b
  | some p =>
    if p.low ≤ b ∧ b ≤ p.high then
      let point := p.point * 64 + (b - lowTail)
      if p.owed = 1 then ([some (Char.ofNat point)], none)
      else ([], some ⟨p.owed - 1, lowTail, highTail, point⟩)
    else
      let (others, next) := beginSymbol b
      (none :: others, next)

/-- The characters of the bytes after what has been begun. Each beginning that leads to no character
    counts once. -/
def symbolsFrom (begun : Option Begun) : Bytes → List Symbol
  | [] => if begun.isSome then [none] else []
  | b :: rest =>
    let (done, next) := stepSymbol begun b.toNat
    done ++ symbolsFrom next rest

/-- The characters of bytes. A text stands for itself. -/
def symbolsOfBytes (bytes : Bytes) : List Symbol :=
  match textOfBytes? bytes with
  | some text => symbols text
  | none => symbolsFrom none bytes

/-- What is shown where bytes form no character. -/
def replacement : Char := Char.ofNat 0xFFFD

/-- Bytes as a text in any case. -/
def lossy (bytes : Bytes) : String :=
  String.ofList ((symbolsOfBytes bytes).map (·.getD replacement))

end Text

end MissionScript

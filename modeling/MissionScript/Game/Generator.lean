/-!
The random numbers of a game. The generator mixes four words of 64 bits; a word is brought into a
range by a multiplication, and a word that would favour some of the numbers is drawn again.
-/

namespace MissionScript

/-- The state of a generator. -/
structure Generator where
  s0 : UInt64
  s1 : UInt64
  s2 : UInt64
  s3 : UInt64
  deriving DecidableEq

namespace Generator

/-- A word turned to the left; what falls out comes in at the other end. -/
def rotate (x n : UInt64) : UInt64 :=
  (x <<< n) ||| (x >>> (64 - n))

/-- One step of the sequence that a seed is spread with. -/
def nextSeed (s : UInt64) : UInt64 :=
  s * 6364136223846793005 + 11634580027462260723

/-- The half word that a step of that sequence gives: its upper bits, turned to the right by the
    topmost ones. -/
def seedHalf (s : UInt64) : UInt32 :=
  let x := (((s >>> 18) ^^^ s) >>> 27).toUInt32
  let turn := (s >>> 59).toUInt32
  (x >>> turn) ||| (x <<< (32 - turn))

/-- The word of two steps, and where the sequence goes on. -/
def seedWord (s : UInt64) : UInt64 × UInt64 :=
  let first := nextSeed s
  let second := nextSeed first
  ((seedHalf first).toUInt64 ||| ((seedHalf second).toUInt64 <<< 32), second)

/-- The generator of a seed. -/
def ofSeed (seed : UInt64) : Generator :=
  let (s0, s) := seedWord seed
  let (s1, s) := seedWord s
  let (s2, s) := seedWord s
  let (s3, _) := seedWord s
  ⟨s0, s1, s2, s3⟩

/-- The next word. -/
def draw (g : Generator) : UInt64 × Generator :=
  let s2 := g.s2 ^^^ g.s0
  let s3 := g.s3 ^^^ g.s1
  (rotate (g.s0 + g.s3) 23 + g.s0,
    ⟨g.s0 ^^^ s3, g.s1 ^^^ s2, s2 ^^^ (g.s1 <<< 17), rotate s3 45⟩)

/-- The upper word of a product. -/
def upperProduct (x y : UInt64) : UInt64 :=
  UInt64.ofNat (x.toNat * y.toNat / UInt64.size)

/-- The greatest lower word of a product with which a word is not drawn again: the range is used as
    often as it fits after its leading zeros. -/
def zone (range : UInt64) : UInt64 :=
  (range <<< (63 - range.log2)) - 1

/-- How often a word is drawn again at most. Each time it is more likely taken than not. -/
def maxRedraws : Nat := 4096

/-- A number below `range`. -/
def below (range : UInt64) : (redraws : Nat) → Generator → UInt64 × Generator
  | 0, g =>
    let (x, g) := g.draw
    (upperProduct x range, g)
  | redraws + 1, g =>
    let (x, g) := g.draw
    if x * range ≤ zone range then (upperProduct x range, g) else below range redraws g

/-- A whole number between two bounds, both included. Nothing is drawn if there is no choice. -/
def between (g : Generator) (low high : Int64) : Int64 × Generator :=
  if high ≤ low then (low, g)
  else
    let range := (high - low).toUInt64 + 1
    if range = 0 then
      let (x, g) := g.draw
      (x.toInt64, g)
    else
      let (x, g) := below range maxRedraws g
      (low + x.toInt64, g)

end Generator

end MissionScript

import MissionScript.Json.Fields

/-!
Reading values that have to be held as a whole before it is known what they are, such as records of
several kinds with a tag that tells the kind.
-/

namespace MissionScript.Json

/-- How deep a value may be nested that is held as a whole. -/
def maxHeldDepth : Nat := 127

/-- A value that lies `outer` levels deep and is held as a whole: all of it must denote something,
    and it must not be nested too deeply. -/
def held? (outer : Nat) (value : Json) : Option Json :=
  if value.readable && outer + value.depth ≤ maxHeldDepth then some value else none

/-- The tag of a record and its other fields. The tag is a member of a given name, or the first item
    of an array. -/
def tagged? (name : String) : Json → Option (String × Json)
  | .obj members =>
    match members.filter fun member => member.1 == name with
    | [(_, .str tag)] => some (tag, .obj (members.filter fun member => member.1 != name))
    | _ => none
  | .arr (.str tag :: items) => some (tag, .arr items)
  | _ => none

/-- The word of a choice within a value that is held. An empty object is nothing, too. -/
def heldWord? : Json → Option String
  | .obj [(word, .obj [])] => some word
  | value => value.word?

/-- One of several choices by its word, within a value that is held. -/
def heldChoice? {α : Type} (word : α → String) (choices : List α) (value : Json) : Option α :=
  value.heldWord?.bind fun w => choices.find? (word · == w)

end MissionScript.Json

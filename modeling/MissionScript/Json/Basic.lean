/-!
JSON values. Missions, scenarios, configurations and saves are exchanged in this format.
-/

namespace MissionScript

/-- A JSON value. Members keep their order, and a name may occur twice. -/
inductive Json where
  | null
  | bool (b : Bool)
  /-- a whole number of at most 64 bits, with or without a sign -/
  | int (n : Int)
  | float (x : Float)
  | str (s : String)
  | arr (items : List Json)
  | obj (members : List (String × Json))
  /-- what is written correctly but denotes nothing: a number beyond all bounds, or a text with one
      half of a character. It does no harm where it is skipped, and no reader accepts it. -/
  | unreadable
  deriving Inhabited

namespace Json

mutual

/-- How deep arrays and objects are nested. -/
def depth : Json → Nat
  | .arr items => depthItems items + 1
  | .obj members => depthMembers members + 1
  | _ => 0

/-- The greatest depth among the items of an array. -/
def depthItems : List Json → Nat
  | [] => 0
  | item :: rest => max item.depth (depthItems rest)

/-- The greatest depth among the members of an object. -/
def depthMembers : List (String × Json) → Nat
  | [] => 0
  | (_, item) :: rest => max item.depth (depthMembers rest)

end

mutual

/-- Whether every part of a value denotes something. -/
def readable : Json → Bool
  | .unreadable => false
  | .arr items => readableItems items
  | .obj members => readableMembers members
  | _ => true

/-- Whether every item of an array is readable. -/
def readableItems : List Json → Bool
  | [] => true
  | item :: rest => item.readable && readableItems rest

/-- Whether every member of an object is readable. -/
def readableMembers : List (String × Json) → Bool
  | [] => true
  | (_, item) :: rest => item.readable && readableMembers rest

end

/-- A value that may be missing. -/
def ofOption {α : Type} (toJson : α → Json) : Option α → Json
  | none => .null
  | some a => toJson a

/-- The value of the first member of a name. -/
def member? (name : String) : Json → Option Json
  | .obj members => members.lookup name
  | _ => none

end Json

end MissionScript

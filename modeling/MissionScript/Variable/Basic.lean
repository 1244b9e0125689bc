import MissionScript.Value
import MissionScript.Number.Reading
import MissionScript.Text.Blank
import MissionScript.Name
import MissionScript.Json.Fields

/-!
Variables of a mission. A variable holds values of one type; its scope says who keeps the value
when the mission is over.
-/

namespace MissionScript

/-- The type of a variable. -/
inductive VariableType where
  | number
  | string
  deriving DecidableEq

/-- Who keeps the value of a variable. -/
inductive Scope where
  /-- nobody: it is forgotten with the mission -/
  | mission
  /-- the pilot, from mission to mission -/
  | player
  /-- the campaign, from mission to mission -/
  | campaign
  deriving DecidableEq

/-- What a variable holds. -/
inductive Stored where
  | number (x : Float)
  | string (s : String)
  deriving DecidableEq

def VariableType.word : VariableType → String
  | .number => "number"
  | .string => "string"

def Scope.word : Scope → String
  | .mission => "local"
  | .player => "player_persistent"
  | .campaign => "campaign_persistent"

/-- Whether a value outlives the mission. -/
def Scope.isPersistent : Scope → Bool
  | .mission => false
  | .player | .campaign => true

namespace Stored

/-- The type of a stored value. -/
def type : Stored → VariableType
  | .number _ => .number
  | .string _ => .string

/-- A stored value as formulas see it. -/
def toValue : Stored → Value
  | .number x => .number x
  | .string s => .text s

/-- What can be stored of a value; an unknown value cannot. -/
def ofValue? : Value → Option Stored
  | .number x => some (.number x)
  | .text s => some (.string s)
  | .unknown => none

/-- The text that a value is saved as. -/
def text : Stored → String
  | .number x => showNumber x
  | .string s => s

/-- Reads a saved text as a value of a type. A number must be finite, and may have white space
    around it. -/
def ofText? : VariableType → String → Option Stored
  | .number, s => (readNumber? (Text.trim s.toList)).map .number
  | .string, s => some (.string s)

/-- Equality of stored values, where numbers are compared as numbers. -/
def equals : Stored → Stored → Bool
  | .number x, .number y => x == y
  | .string s, .string t => s == t
  | _, _ => false

theorem ofValue?_toValue (v : Stored) : ofValue? v.toValue = some v := by
  cases v <;> rfl

/-- What is read back has the type that was asked for. -/
theorem type_of_ofText? {t : VariableType} {s : String} {v : Stored} (h : ofText? t s = some v) :
    v.type = t := by
  cases t with
  | number =>
    obtain ⟨x, _, rfl⟩ := Option.map_eq_some_iff.1 h
    rfl
  | string =>
    cases h
    rfl

end Stored

/-- A variable. -/
structure Variable where
  /-- the name as it was first declared -/
  name : String
  type : VariableType
  value : Stored
  /-- the value at the start of the mission -/
  initial : Stored
  scope : Scope
  deriving DecidableEq

/-- A value as it is saved. -/
structure Saved where
  name : String
  type : VariableType
  text : String
  deriving DecidableEq

/-- What a mission leaves to the pilot and to the campaign. -/
structure Snapshot where
  player : List Saved
  campaign : List Saved
  deriving DecidableEq

def VariableType.all : List VariableType :=
  [.number, .string]

def Scope.all : List Scope :=
  [.mission, .player, .campaign]

namespace Saved

def ofJson? (value : Json) : Option Saved := do
  let f ← value.fields? ["name", "type", "value"]
  let name ← f.required "name" Json.str?
  let type ← f.required "type" (Json.choice? VariableType.word VariableType.all)
  let text ← f.required "value" Json.str?
  return ⟨name, type, text⟩

def toJson (s : Saved) : Json :=
  .obj [("name", .str s.name), ("type", .str s.type.word), ("value", .str s.text)]

end Saved

namespace Snapshot

def ofJson? (value : Json) : Option Snapshot := do
  let f ← value.fields? ["player", "campaign"]
  let player ← f.required "player" (Json.list? Saved.ofJson?)
  let campaign ← f.required "campaign" (Json.list? Saved.ofJson?)
  return ⟨player, campaign⟩

def toJson (s : Snapshot) : Json :=
  .obj [("player", .arr (s.player.map Saved.toJson)),
    ("campaign", .arr (s.campaign.map Saved.toJson))]

end Snapshot

/-- The snapshot without any value. -/
def Snapshot.empty : Snapshot :=
  ⟨[], []⟩

/-- Why a variable cannot be declared or set. -/
inductive VariableError where
  | undeclared (name : String)
  | typeMismatch (name : String) (expected : VariableType) (found : String)
  | redeclared (name : String) (existing : VariableType)
  deriving DecidableEq

def VariableError.message : VariableError → String
  | .undeclared name => s!"variable '{name}' is not declared"
  | .typeMismatch name expected found =>
    s!"variable '{name}' holds {expected.word} values, got {found}"
  | .redeclared name existing => s!"variable '{name}' already declared as {existing.word}"

end MissionScript

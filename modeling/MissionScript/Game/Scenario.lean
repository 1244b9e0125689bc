import MissionScript.Json.Reading
import MissionScript.Json.Fields

/-!
Scenarios: when the ships of a game come and go, as it is written down before a mission starts.
-/

namespace MissionScript

/-- When a ship comes and goes, in seconds of the mission clock. -/
structure ShipPlan where
  name : String
  /-- none if the ship waits until its wing is called -/
  arriveAt : Option Float
  destroyAt : Option Float
  departAt : Option Float
  hull : Float
  deriving DecidableEq

/-- A wing and the names of its ships. -/
structure WingPlan where
  name : String
  ships : List String
  deriving DecidableEq

/-- The ships and wings of a game. -/
structure Scenario where
  ships : List ShipPlan
  wings : List WingPlan
  deriving DecidableEq

/-- The scenario without ships. -/
def Scenario.empty : Scenario :=
  ⟨[], []⟩

namespace ShipPlan

def ofJson? (value : Json) : Option ShipPlan := do
  let f ← value.fields? ["name", "arrive_at", "destroy_at", "depart_at", "hull"]
  let name ← f.required "name" Json.str?
  let arriveAt ← f.optional "arrive_at" (some 0) (Json.Fields.orNull Json.float?)
  let destroyAt ← f.optional "destroy_at" none (Json.Fields.orNull Json.float?)
  let departAt ← f.optional "depart_at" none (Json.Fields.orNull Json.float?)
  let hull ← f.optional "hull" 100 Json.float?
  return ⟨name, arriveAt, destroyAt, departAt, hull⟩

def toJson (s : ShipPlan) : Json :=
  .obj [("name", .str s.name), ("arrive_at", .ofOption .float s.arriveAt),
    ("destroy_at", .ofOption .float s.destroyAt), ("depart_at", .ofOption .float s.departAt),
    ("hull", .float s.hull)]

end ShipPlan

namespace WingPlan

def ofJson? (value : Json) : Option WingPlan := do
  let f ← value.fields? ["name", "ships"]
  let name ← f.required "name" Json.str?
  let ships ← f.required "ships" (Json.list? Json.str?)
  return ⟨name, ships⟩

def toJson (w : WingPlan) : Json :=
  .obj [("name", .str w.name), ("ships", .arr (w.ships.map .str))]

end WingPlan

namespace Scenario

def ofJson? (value : Json) : Option Scenario := do
  let f ← value.fields? ["ships", "wings"]
  let ships ← f.optional "ships" [] (Json.list? ShipPlan.ofJson?)
  let wings ← f.optional "wings" [] (Json.list? WingPlan.ofJson?)
  return ⟨ships, wings⟩

/-- Reads a text as a scenario. -/
def ofText? (text : String) : Option Scenario :=
  (Json.read? text).bind ofJson?

def toJson (s : Scenario) : Json :=
  .obj [("ships", .arr (s.ships.map ShipPlan.toJson)),
    ("wings", .arr (s.wings.map WingPlan.toJson))]

end Scenario

end MissionScript

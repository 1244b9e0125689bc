import MissionScript.Goal.Basic
import MissionScript.Json.Reading
import MissionScript.Json.Fields
import MissionScript.Variable.Basic

/-!
Definitions of missions, as they are written down: variables, events and goals, with the texts of
their formulas.
-/

namespace MissionScript

def Stored.ofJson? (value : Json) : Option Stored :=
  match value with
  | .str s => some (.string s)
  | value => value.float?.map .number

def Stored.toJson : Stored → Json
  | .number x => .float x
  | .string s => .str s

/-- A variable in a definition. -/
structure VariableEntry where
  name : String
  type : VariableType
  initial : Stored
  scope : Scope
  deriving DecidableEq

/-- An event in a definition. -/
structure EventEntry where
  name : String
  formula : String
  repeats : Int
  interval : Float
  chainDelay : Float
  /-- the name of the event that it waits for -/
  chainAfter : Option String
  score : Int
  objective : Option String
  deriving DecidableEq

/-- A goal in a definition. -/
structure GoalEntry where
  name : String
  formula : String
  type : GoalType
  score : Int
  team : Nat
  invalid : Bool
  deriving DecidableEq

/-- The definition of a mission. -/
structure Definition where
  name : String
  vars : List VariableEntry
  events : List EventEntry
  goals : List GoalEntry
  deriving DecidableEq

namespace VariableEntry

def ofJson? (value : Json) : Option VariableEntry := do
  let f ← value.fields? ["name", "type", "default", "scope"]
  let name ← f.required "name" Json.str?
  let type ← f.required "type" (Json.choice? VariableType.word VariableType.all)
  let initial ← f.required "default" Stored.ofJson?
  let scope ← f.optional "scope" .mission (Json.choice? Scope.word Scope.all)
  return ⟨name, type, initial, scope⟩

def toJson (v : VariableEntry) : Json :=
  .obj [("name", .str v.name), ("type", .str v.type.word), ("default", v.initial.toJson),
    ("scope", .str v.scope.word)]

end VariableEntry

namespace EventEntry

def ofJson? (value : Json) : Option EventEntry := do
  let f ← value.fields? ["name", "formula", "repeat_count", "interval", "chain_delay",
    "chain_after", "score", "objective_text"]
  let name ← f.required "name" Json.str?
  let formula ← f.required "formula" Json.str?
  let repeats ← f.optional "repeat_count" 1 (Json.signed? 32)
  let interval ← f.optional "interval" 0 Json.float?
  let chainDelay ← f.optional "chain_delay" 0 Json.float?
  let chainAfter ← f.optional "chain_after" none (Json.Fields.orNull Json.str?)
  let score ← f.optional "score" 0 (Json.signed? 32)
  let objective ← f.optional "objective_text" none (Json.Fields.orNull Json.str?)
  return ⟨name, formula, repeats, interval, chainDelay, chainAfter, score, objective⟩

def toJson (e : EventEntry) : Json :=
  .obj [("name", .str e.name), ("formula", .str e.formula), ("repeat_count", .int e.repeats),
    ("interval", .float e.interval), ("chain_delay", .float e.chainDelay),
    ("chain_after", .ofOption .str e.chainAfter), ("score", .int e.score),
    ("objective_text", .ofOption .str e.objective)]

end EventEntry

namespace GoalEntry

def ofJson? (value : Json) : Option GoalEntry := do
  let f ← value.fields? ["name", "formula", "goal_type", "score", "team", "invalid"]
  let name ← f.required "name" Json.str?
  let formula ← f.required "formula" Json.str?
  let type ← f.optional "goal_type" .primary (Json.choice? GoalType.word GoalType.all)
  let score ← f.optional "score" 0 (Json.signed? 32)
  let team ← f.optional "team" 0 (Json.nat? 32)
  let invalid ← f.optional "invalid" false Json.bool?
  return ⟨name, formula, type, score, team, invalid⟩

def toJson (g : GoalEntry) : Json :=
  .obj [("name", .str g.name), ("formula", .str g.formula), ("goal_type", .str g.type.word),
    ("score", .int g.score), ("team", .int g.team), ("invalid", .bool g.invalid)]

end GoalEntry

namespace Definition

def ofJson? (value : Json) : Option Definition := do
  let f ← value.fields? ["name", "variables", "events", "goals"]
  let name ← f.required "name" Json.str?
  let vars ← f.optional "variables" [] (Json.list? VariableEntry.ofJson?)
  let events ← f.optional "events" [] (Json.list? EventEntry.ofJson?)
  let goals ← f.optional "goals" [] (Json.list? GoalEntry.ofJson?)
  return ⟨name, vars, events, goals⟩

/-- Reads a text as a definition. -/
def ofText? (text : String) : Option Definition :=
  (Json.read? text).bind ofJson?

def toJson (d : Definition) : Json :=
  .obj [("name", .str d.name), ("variables", .arr (d.vars.map VariableEntry.toJson)),
    ("events", .arr (d.events.map EventEntry.toJson)),
    ("goals", .arr (d.goals.map GoalEntry.toJson))]

end Definition

end MissionScript

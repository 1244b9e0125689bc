import MissionScript.Goal.Basic
import MissionScript.Json.Tagged

/-!
Notifications: what a mission tells the world about its events and goals. Each one carries the time
of the tick that raised it.
-/

namespace MissionScript

/-- A notification. -/
inductive Notification where
  | eventFired (event : String) (score : Int) (objective : Option String) (triggers : Nat)
      (time : Float)
  | goalChanged (goal : String) (status : GoalStatus) (score : Int) (time : Float)
  | goalValidity (goal : String) (invalid : Bool) (time : Float)
  | outcomeChanged (outcome : Outcome) (time : Float)
  deriving DecidableEq

def GoalStatus.all : List GoalStatus :=
  [.incomplete, .complete, .failed]

namespace Notification

/-- The event or goal that a notification is about. -/
def subject? : Notification → Option String
  | .eventFired event .. => some event
  | .goalChanged goal .. | .goalValidity goal .. => some goal
  | .outcomeChanged .. => none

/-- What a notification adds to the score. -/
def score : Notification → Int
  | .eventFired _ score .. => score
  | .goalChanged _ _ score _ => score
  | .goalValidity .. | .outcomeChanged .. => 0

/-- What a row of notifications adds to the score. -/
def totalScore (ns : List Notification) : Int :=
  ns.foldr (fun n total => n.score + total) 0

def toJson : Notification → Json
  | .eventFired event score objective triggers time =>
    .obj [("kind", .str "event_fired"), ("id", .str event), ("score_delta", .int score),
      ("objective_text", .ofOption .str objective), ("trigger_count", .int triggers),
      ("at", .float time)]
  | .goalChanged goal status score time =>
    .obj [("kind", .str "goal_status_changed"), ("id", .str goal), ("new_status", .str status.word),
      ("score", .int score), ("at", .float time)]
  | .goalValidity goal invalid time =>
    .obj [("kind", .str "goal_validity_changed"), ("id", .str goal), ("invalid", .bool invalid),
      ("at", .float time)]
  | .outcomeChanged outcome time =>
    .obj [("kind", .str "mission_outcome"), ("outcome", .str outcome.word), ("at", .float time)]

/-- Reads the fields of a notification of a kind. -/
def ofFields? (kind : String) (value : Json) : Option Notification :=
  match kind with
  | "event_fired" => do
    let f ← value.fields? ["id", "score_delta", "objective_text", "trigger_count", "at"]
    let event ← f.required "id" Json.str?
    let score ← f.required "score_delta" (Json.signed? 32)
    let objective ← f.nullable "objective_text" Json.str?
    let triggers ← f.required "trigger_count" (Json.nat? 32)
    let time ← f.required "at" Json.float?
    return .eventFired event score objective triggers time
  | "goal_status_changed" => do
    let f ← value.fields? ["id", "new_status", "score", "at"]
    let goal ← f.required "id" Json.str?
    let status ← f.required "new_status" (Json.heldChoice? GoalStatus.word GoalStatus.all)
    let score ← f.required "score" (Json.signed? 32)
    let time ← f.required "at" Json.float?
    return .goalChanged goal status score time
  | "goal_validity_changed" => do
    let f ← value.fields? ["id", "invalid", "at"]
    let goal ← f.required "id" Json.str?
    let invalid ← f.required "invalid" Json.bool?
    let time ← f.required "at" Json.float?
    return .goalValidity goal invalid time
  | "mission_outcome" => do
    let f ← value.fields? ["outcome", "at"]
    let outcome ← f.required "outcome" (Json.heldChoice? Outcome.word Outcome.all)
    let time ← f.required "at" Json.float?
    return .outcomeChanged outcome time
  | _ => none

def ofJson? (outer : Nat) (value : Json) : Option Notification := do
  let (kind, fields) ← (← value.held? outer).tagged? "kind"
  ofFields? kind fields

end Notification

end MissionScript

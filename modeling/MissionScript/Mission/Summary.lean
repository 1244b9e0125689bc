import MissionScript.Notification
import MissionScript.Variable.Basic

/-!
What is told of a mission: a report of every tick, and a summary when it is over.
-/

namespace MissionScript

/-- What a tick did. -/
structure TickReport where
  time : Float
  notifications : List Notification
  /-- what it added to the score -/
  score : Int
  outcome : Outcome
  deriving DecidableEq

/-- What became of a goal. -/
structure GoalSummary where
  name : String
  type : GoalType
  status : GoalStatus
  invalid : Bool
  deriving DecidableEq

/-- What became of an event. -/
structure EventSummary where
  name : String
  triggers : Nat
  exhausted : Bool
  deriving DecidableEq

/-- What became of a mission. -/
structure Summary where
  mission : String
  outcome : Outcome
  score : Int
  endedAt : Float
  ticks : Nat
  goals : List GoalSummary
  events : List EventSummary
  /-- the notifications that the end of the mission raised -/
  notifications : List Notification
  saved : Snapshot
  /-- how many errors of evaluation there were -/
  errors : Nat
  deriving DecidableEq

namespace TickReport

def ofJson? (value : Json) : Option TickReport := do
  let f ← value.fields? ["time", "notifications", "score_delta", "outcome"]
  let time ← f.required "time" Json.float?
  let notifications ← f.required "notifications" (Json.list? (Notification.ofJson? 2))
  let score ← f.required "score_delta" (Json.signed? 64)
  let outcome ← f.required "outcome" (Json.choice? Outcome.word Outcome.all)
  return ⟨time, notifications, score, outcome⟩

def toJson (r : TickReport) : Json :=
  .obj [("time", .float r.time), ("notifications", .arr (r.notifications.map Notification.toJson)),
    ("score_delta", .int r.score), ("outcome", .str r.outcome.word)]

end TickReport

namespace GoalSummary

def ofJson? (value : Json) : Option GoalSummary := do
  let f ← value.fields? ["name", "goal_type", "status", "invalid"]
  let name ← f.required "name" Json.str?
  let type ← f.required "goal_type" (Json.choice? GoalType.word GoalType.all)
  let status ← f.required "status" (Json.choice? GoalStatus.word GoalStatus.all)
  let invalid ← f.required "invalid" Json.bool?
  return ⟨name, type, status, invalid⟩

def toJson (g : GoalSummary) : Json :=
  .obj [("name", .str g.name), ("goal_type", .str g.type.word), ("status", .str g.status.word),
    ("invalid", .bool g.invalid)]

end GoalSummary

namespace EventSummary

def ofJson? (value : Json) : Option EventSummary := do
  let f ← value.fields? ["name", "trigger_count", "exhausted"]
  let name ← f.required "name" Json.str?
  let triggers ← f.required "trigger_count" (Json.nat? 32)
  let exhausted ← f.required "exhausted" Json.bool?
  return ⟨name, triggers, exhausted⟩

def toJson (e : EventSummary) : Json :=
  .obj [("name", .str e.name), ("trigger_count", .int e.triggers), ("exhausted", .bool e.exhausted)]

end EventSummary

namespace Summary

def ofJson? (value : Json) : Option Summary := do
  let f ← value.fields? ["mission", "outcome", "score", "ended_at", "ticks", "goals", "events",
    "final_notifications", "persistence", "swallowed_errors"]
  let mission ← f.required "mission" Json.str?
  let outcome ← f.required "outcome" (Json.choice? Outcome.word Outcome.all)
  let score ← f.required "score" (Json.signed? 64)
  let endedAt ← f.required "ended_at" Json.float?
  let ticks ← f.required "ticks" (Json.nat? 64)
  let goals ← f.required "goals" (Json.list? GoalSummary.ofJson?)
  let events ← f.required "events" (Json.list? EventSummary.ofJson?)
  let notifications ← f.required "final_notifications" (Json.list? (Notification.ofJson? 2))
  let saved ← f.required "persistence" Snapshot.ofJson?
  let errors ← f.required "swallowed_errors" (Json.nat? 64)
  return ⟨mission, outcome, score, endedAt, ticks, goals, events, notifications, saved, errors⟩

def toJson (s : Summary) : Json :=
  .obj [("mission", .str s.mission), ("outcome", .str s.outcome.word), ("score", .int s.score),
    ("ended_at", .float s.endedAt), ("ticks", .int s.ticks),
    ("goals", .arr (s.goals.map GoalSummary.toJson)),
    ("events", .arr (s.events.map EventSummary.toJson)),
    ("final_notifications", .arr (s.notifications.map Notification.toJson)),
    ("persistence", s.saved.toJson), ("swallowed_errors", .int s.errors)]

end Summary

end MissionScript

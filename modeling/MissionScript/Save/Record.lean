import MissionScript.Mission.Summary
import MissionScript.Name

/-!
What is saved between missions: one record for each pilot and one for each campaign. A finished
mission is entered into both.
-/

namespace MissionScript

/-- What is saved of a pilot. -/
structure PilotSave where
  /-- the name as it was first spelled -/
  pilot : String
  missionsFlown : UInt32
  vars : List Saved
  deriving DecidableEq

/-- What is saved of a campaign. -/
structure CampaignSave where
  /-- the name as it was first spelled -/
  campaign : String
  /-- the missions that succeeded, each once -/
  completed : List String
  vars : List Saved
  deriving DecidableEq

/-- Puts a saved value in place of the one of its name, or at the end. -/
def mergeOne (update : Saved) : List Saved → List Saved
  | [] => [update]
  | old :: rest =>
    if sameName old.name update.name then update :: rest else old :: mergeOne update rest

/-- Puts saved values in, one after the other. -/
def mergeSaved (old updates : List Saved) : List Saved :=
  updates.foldl (fun saved update => mergeOne update saved) old

namespace PilotSave

/-- The record of a pilot who has not flown. -/
def fresh (pilot : String) : PilotSave :=
  ⟨pilot, 0, []⟩

/-- The record after a mission. -/
def enter (s : PilotSave) (summary : Summary) : PilotSave :=
  { s with
    missionsFlown := s.missionsFlown + 1
    vars := mergeSaved s.vars summary.saved.player }

def ofJson? (value : Json) : Option PilotSave := do
  let f ← value.fields? ["pilot", "missions_flown", "variables"]
  let pilot ← f.required "pilot" Json.str?
  let missionsFlown ← f.required "missions_flown" (Json.nat? 32)
  let vars ← f.required "variables" (Json.list? Saved.ofJson?)
  return ⟨pilot, UInt32.ofNat missionsFlown, vars⟩

def toJson (s : PilotSave) : Json :=
  .obj [("pilot", .str s.pilot), ("missions_flown", .int s.missionsFlown.toNat),
    ("variables", .arr (s.vars.map Saved.toJson))]

end PilotSave

namespace CampaignSave

/-- The record of a campaign without missions. -/
def fresh (campaign : String) : CampaignSave :=
  ⟨campaign, [], []⟩

/-- The missions that succeeded, after one more mission. -/
def completedAfter (completed : List String) (summary : Summary) : List String :=
  if summary.outcome = .success && !completed.any (sameName · summary.mission) then
    completed ++ [summary.mission]
  else completed

/-- The record after a mission. -/
def enter (s : CampaignSave) (summary : Summary) : CampaignSave :=
  { s with
    completed := completedAfter s.completed summary
    vars := mergeSaved s.vars summary.saved.campaign }

def ofJson? (value : Json) : Option CampaignSave := do
  let f ← value.fields? ["campaign", "completed_missions", "variables"]
  let campaign ← f.required "campaign" Json.str?
  let completed ← f.required "completed_missions" (Json.list? Json.str?)
  let vars ← f.required "variables" (Json.list? Saved.ofJson?)
  return ⟨campaign, completed, vars⟩

def toJson (s : CampaignSave) : Json :=
  .obj [("campaign", .str s.campaign), ("completed_missions", .arr (s.completed.map .str)),
    ("variables", .arr (s.vars.map Saved.toJson))]

end CampaignSave

end MissionScript

import MissionScript.Formula.Node
import MissionScript.Value
import MissionScript.Ledger

/-!
Goals of a mission. The status of a goal only moves forward, and a goal that is invalid does not
count.
-/

namespace MissionScript

/-- How much a goal matters. -/
inductive GoalType where
  /-- the outcome of the mission depends on it -/
  | primary
  | secondary
  | bonus
  deriving DecidableEq

/-- How a mission stands. -/
inductive Outcome where
  | inProgress
  | success
  | failure
  deriving DecidableEq

def GoalType.word : GoalType → String
  | .primary => "primary"
  | .secondary => "secondary"
  | .bonus => "bonus"

def Outcome.word : Outcome → String
  | .inProgress => "in_progress"
  | .success => "success"
  | .failure => "failure"

def GoalType.all : List GoalType :=
  [.primary, .secondary, .bonus]

def Outcome.all : List Outcome :=
  [.inProgress, .success, .failure]

/-- A goal. -/
structure Goal where
  name : String
  formula : Formula
  type : GoalType
  /-- what completing it adds to the score -/
  score : Int
  team : Nat
  invalid : Bool
  status : GoalStatus

namespace Goal

/-- Whether a goal is still to be decided. -/
def isOpen (g : Goal) : Bool :=
  !g.invalid && !g.status.isTerminal

/-- Whether the outcome of the mission depends on a goal. -/
def isCounted (g : Goal) : Bool :=
  g.type == .primary && !g.invalid

/-- The status that a goal moves to when its formula reads so: a condition that is false for good
    fails it, and one that may still change leaves it open. -/
def decision? : Truth → Option GoalStatus
  | .trueNow | .knownTrue => some .complete
  | .knownFalse => some .failed
  | .falseNow | .unknown => none

/-- What a goal adds to the score when it moves to a status. -/
def scoreOf (g : Goal) (status : GoalStatus) : Int :=
  if status = .complete then g.score else 0

end Goal

/-- How a mission with these goals stands. While it runs, it succeeds only if there is a goal that
    counts; once it is finished, all goals that count must be complete, and it does not matter
    whether there are any. -/
def outcomeOf (goals : List Goal) (failsEarly finished : Bool) : Outcome :=
  let counted := goals.filter (·.isCounted)
  if failsEarly && counted.any (·.status == .failed) then .failure
  else if counted.all (·.status == .complete) && (!counted.isEmpty || finished) then .success
  else if finished then .failure
  else .inProgress

/-- The outcome of a finished mission is never open. -/
theorem outcomeOf_finished_ne_inProgress (goals : List Goal) (failsEarly : Bool) :
    outcomeOf goals failsEarly true ≠ .inProgress := by
  simp only [outcomeOf]
  split
  · simp
  · split <;> simp

end MissionScript

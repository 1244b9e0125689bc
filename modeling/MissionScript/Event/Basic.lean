import MissionScript.Formula.Node
import MissionScript.Notification

/-!
Events of a mission. An event fires when its formula holds; then it waits out its interval, until it
has fired as often as it may or can never fire again.
-/

namespace MissionScript

/-- Where an event is in its cycle. -/
inductive EventState where
  | armed
  /-- it fired when it was last evaluated -/
  | fired
  /-- it is never evaluated again -/
  | exhausted
  deriving DecidableEq

/-- The event that another one waits for. -/
structure ChainLink where
  /-- its name, as it is spelled there -/
  predecessor : String
  /-- its place among the events -/
  index : Nat
  deriving DecidableEq

/-- An event. -/
structure Event where
  name : String
  formula : Formula
  /-- how often it fires; without limit if negative -/
  repeats : Int
  /-- the least number of seconds between two times that it fires -/
  interval : Float
  /-- how many seconds after it has fired an event that waits for it may fire -/
  chainDelay : Float
  /-- what it adds to the score each time it fires -/
  score : Int
  objective : Option String
  chain : Option ChainLink
  /-- how often it has fired -/
  triggers : Nat
  /-- when it fired last -/
  last : Option Float
  state : EventState

/-- What a tick does with an event. -/
inductive EventPlan where
  /-- nothing: it is exhausted, or it has to wait -/
  | rest
  /-- it is exhausted without being evaluated -/
  | retire
  | evaluate
  deriving DecidableEq

namespace Event

/-- An event that fires once, adds nothing to the score and waits for nothing. -/
def simple (name : String) (formula : Formula) : Event :=
  ⟨name, formula, 1, 0, 0, 0, none, none, 0, none, .armed⟩

/-- Whether an event has fired as often as it may. -/
def isSpent (e : Event) : Bool :=
  0 ≤ e.repeats && e.repeats ≤ e.triggers

/-- Whether an event has waited out its interval. -/
def hasWaited (e : Event) (now : Float) : Bool :=
  e.last.all fun last => now - last ≥ e.interval

/-- Whether an event lets the events after it fire. -/
def opens (e : Event) (now : Float) : Bool :=
  e.last.any fun last => now ≥ last + e.chainDelay

/-- What a tick does with an event, given whether the event that it waits for lets it fire. -/
def plan (e : Event) (isOpened : Bool) (now : Float) : EventPlan :=
  if e.state = .exhausted then .rest
  else if e.isSpent then .retire
  else if e.hasWaited now && isOpened then .evaluate
  else .rest

/-- An event that is never evaluated again. -/
def exhaust (e : Event) : Event :=
  { e with state := .exhausted }

/-- An event after it has fired. -/
def fire (e : Event) (now : Float) : Event :=
  let e := { e with triggers := e.triggers + 1, last := some now, state := .fired }
  if e.isSpent then e.exhaust else e

/-- An event after its formula has been read. It fires if the formula holds, and it is exhausted if
    the formula can never hold. -/
def settle (e : Event) (now : Float) (reading : Truth) : Event :=
  match reading with
  | .trueNow | .knownTrue => e.fire now
  | .knownFalse => e.exhaust
  | .falseNow | .unknown => { e with state := .armed }

/-- What the ledger learns from that. -/
def book (e : Event) (now : Float) (reading : Truth) (ledger : Ledger) : Ledger :=
  match reading with
  | .trueNow | .knownTrue => ledger.eventFired e.name now
  | .knownFalse => ledger.eventNeverFires e.name
  | .falseNow | .unknown => ledger

/-- What is notified of that. -/
def announce (e : Event) (now : Float) (reading : Truth) : List Notification :=
  if reading.isTrue then [.eventFired e.name e.score e.objective (e.triggers + 1) now] else []

/-- An exhausted event is left alone. -/
theorem plan_of_exhausted {e : Event} (h : e.state = .exhausted) (isOpened : Bool) (now : Float) :
    e.plan isOpened now = .rest := by
  simp [plan, h]

end Event

end MissionScript

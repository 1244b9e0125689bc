import MissionScript.Table
import MissionScript.Name
import MissionScript.Formula.Path

/-!
The ledger of a mission: what has become of its events and goals. Formulas read it; what they want
changed about goals waits in it as directives until the next pass over the goals.
-/

namespace MissionScript

/-- What has become of an event. -/
structure EventRecord where
  /-- how often it has fired -/
  triggers : Nat
  first : Option Float
  last : Option Float
  /-- whether its formula is settled false -/
  neverFires : Bool
  deriving DecidableEq

/-- The record of an event that has not been evaluated. -/
def EventRecord.fresh : EventRecord :=
  ⟨0, none, none, false⟩

/-- The status of a goal. -/
inductive GoalStatus where
  | incomplete
  | complete
  | failed
  deriving DecidableEq

def GoalStatus.word : GoalStatus → String
  | .incomplete => "incomplete"
  | .complete => "complete"
  | .failed => "failed"

/-- Whether a goal is decided for good. -/
def GoalStatus.isTerminal : GoalStatus → Bool
  | .incomplete => false
  | .complete | .failed => true

/-- What has become of a goal. -/
structure GoalRecord where
  status : GoalStatus
  changedAt : Option Float
  deriving DecidableEq

/-- A change to a goal that a formula asks for: whether it shall count or not. -/
structure Directive where
  goal : String
  invalid : Bool
  deriving DecidableEq

/-- The ledger of a mission. -/
structure Ledger where
  /-- under folded names -/
  events : Table String EventRecord
  /-- under folded names -/
  goals : Table String GoalRecord
  /-- the changes asked for, in order -/
  directives : List Directive
  /-- when an argument of a sequence was first true, under its formula and its path -/
  latches : Table (String × Path) Float
  /-- the folded names of unknown variables that have been reported -/
  warned : List String
  /-- how many errors were replaced by unknown values -/
  errors : Nat

namespace Ledger

/-- The ledger of a mission that has not begun. -/
def empty : Ledger :=
  ⟨.empty, .empty, [], .empty, [], 0⟩

/-- The record of an event. -/
def event? (l : Ledger) (name : String) : Option EventRecord :=
  l.events.find? (foldName name)

/-- The record of a goal. -/
def goal? (l : Ledger) (name : String) : Option GoalRecord :=
  l.goals.find? (foldName name)

/-- Opens a record for an event that has none. -/
def registerEvent (l : Ledger) (name : String) : Ledger :=
  { l with events := l.events.insertNew (foldName name) .fresh }

/-- Opens a record for a goal that has none. -/
def registerGoal (l : Ledger) (name : String) : Ledger :=
  { l with goals := l.goals.insertNew (foldName name) ⟨.incomplete, none⟩ }

/-- An event fires. -/
def eventFired (l : Ledger) (name : String) (now : Float) : Ledger :=
  { l with
    events := l.events.update (foldName name) .fresh fun r =>
      { r with triggers := r.triggers + 1, first := some (r.first.getD now), last := some now } }

/-- An event can fire no more. -/
def eventNeverFires (l : Ledger) (name : String) : Ledger :=
  { l with events := l.events.update (foldName name) .fresh fun r => { r with neverFires := true } }

/-- A goal changes its status. -/
def goalChanged (l : Ledger) (name : String) (status : GoalStatus) (now : Float) : Ledger :=
  { l with goals := l.goals.insert (foldName name) ⟨status, some now⟩ }

/-- The key of a latch. -/
def latchKey (formula : String) (path : Path) : String × Path :=
  (foldName formula, path)

/-- When an argument was first true, if it ever was. -/
def latchedAt? (l : Ledger) (formula : String) (path : Path) : Option Float :=
  l.latches.find? (latchKey formula path)

/-- An argument is true now: the time when it first was, and the ledger that remembers it. -/
def latch (l : Ledger) (formula : String) (path : Path) (now : Float) : Float × Ledger :=
  ((l.latchedAt? formula path).getD now,
    { l with latches := l.latches.insertNew (latchKey formula path) now })

/-- Asks for a change to a goal. -/
def pushDirective (l : Ledger) (d : Directive) : Ledger :=
  { l with directives := l.directives ++ [d] }

/-- Hands out the changes asked for. -/
def takeDirectives (l : Ledger) : List Directive × Ledger :=
  (l.directives, { l with directives := [] })

/-- Whether an unknown variable is met for the first time, and the ledger that remembers it. -/
def warnOnce (l : Ledger) (name : String) : Bool × Ledger :=
  let key := foldName name
  if l.warned.contains key then (false, l) else (true, { l with warned := key :: l.warned })

/-- One error more. -/
def countError (l : Ledger) : Ledger :=
  { l with errors := l.errors + 1 }

/-- The latched time is the one that is found from then on. -/
theorem latchedAt?_latch (l : Ledger) (formula : String) (path : Path) (now : Float) :
    (l.latch formula path now).2.latchedAt? formula path = some (l.latch formula path now).1 := by
  simp [latch, latchedAt?]

end Ledger

end MissionScript

import MissionScript.Event.Basic
import MissionScript.Evaluation.Warning

/-!
The events of a mission in the order in which they are evaluated, and which of them wait for which.
An event waits for at most one other, and the links never form a cycle.
-/

namespace MissionScript

/-- The events of a mission. -/
structure Schedule where
  events : List Event

/-- Why an event cannot be added or made to wait. -/
inductive ScheduleError where
  | unknownPredecessor (event predecessor : String)
  | selfChain (event : String)
  | chainCycle (event predecessor : String)
  | duplicateEvent (event : String)
  deriving DecidableEq

namespace ScheduleError

def message : ScheduleError → String
  | .unknownPredecessor event predecessor =>
    s!"event '{event}' chains after unknown event '{predecessor}'"
  | .selfChain event => s!"event '{event}' chains after itself"
  | .chainCycle event predecessor =>
    s!"event '{event}' chaining after '{predecessor}' would form a cycle"
  | .duplicateEvent event => s!"event '{event}' is already scheduled"

/-- What the author of a mission is told about an error, besides the error itself. -/
def warnings : ScheduleError → List Warning
  | .chainCycle event predecessor => [.chainCycle event predecessor]
  | _ => []

end ScheduleError

namespace Schedule

/-- The schedule without events. -/
def empty : Schedule :=
  ⟨[]⟩

/-- The place of an event. -/
def index? (s : Schedule) (name : String) : Option Nat :=
  s.events.findIdx? fun e => sameName e.name name

/-- The event of a name. -/
def event? (s : Schedule) (name : String) : Option Event :=
  s.events.find? fun e => sameName e.name name

/-- Adds an event at the end. No two events have the same name. -/
def add (s : Schedule) (e : Event) : Except ScheduleError Schedule :=
  if (s.index? e.name).isSome then .error (.duplicateEvent e.name) else .ok ⟨s.events ++ [e]⟩

/-- The place of the event that the event at a place waits for. -/
def predecessor? (s : Schedule) (i : Nat) : Option Nat :=
  (s.events[i]?).bind fun e => e.chain.map (·.index)

/-- Whether one place is reached from another along the links, in at most `steps` of them. -/
def reaches (s : Schedule) (target : Nat) : (steps : Nat) → Nat → Bool
  | 0, _ => false
  | steps + 1, i => (s.predecessor? i).any fun next => next == target || s.reaches target steps next

/-- Makes an event wait for another one. As the links form no cycle, a way along them is shorter
    than the row of events. -/
def chainAfter (s : Schedule) (event predecessor : String) : Except ScheduleError Schedule :=
  match s.index? event, s.index? predecessor with
  | some i, some j =>
    if i = j then .error (.selfChain event)
    else if s.reaches i s.events.length j then .error (.chainCycle event predecessor)
    else
      let link := (s.events[j]?).map fun e => ⟨e.name, j⟩
      .ok ⟨s.events.modify i fun e => { e with chain := link }⟩
  | _, _ => .error (.unknownPredecessor event predecessor)

/-- Opens a record for every event. -/
def registerIn (s : Schedule) (ledger : Ledger) : Ledger :=
  s.events.foldl (fun ledger e => ledger.registerEvent e.name) ledger

/-- Whether no event can fire any more. -/
def allExhausted (s : Schedule) : Bool :=
  s.events.all (·.state == .exhausted)

/-- Whether the event that an event waits for lets it fire. -/
def isOpened (s : Schedule) (e : Event) (now : Float) : Bool :=
  e.chain.all fun link => (s.events[link.index]?).any (·.opens now)

end Schedule

end MissionScript

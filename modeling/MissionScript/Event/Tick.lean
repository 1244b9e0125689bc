import MissionScript.Event.Schedule
import MissionScript.Evaluation.Basic

/-!
A tick of a schedule: every event gets its turn, in order. The ledger learns of each event at once,
so the formulas of later events see it in the same tick.
-/

namespace MissionScript.Schedule

variable {H : Type} [Host H]

/-- The turn of the event at a place. -/
def turn (registry : Registry) (now : Float) (s : Schedule) (i : Nat) :
    EvalM H (Schedule × List Notification) :=
  match s.events[i]? with
  | none => return (s, [])
  | some e =>
    match e.plan (s.isOpened e now) now with
    | .rest => return (s, [])
    | .retire => return (⟨s.events.set i e.exhaust⟩, [])
    | .evaluate => do
      let value ← evaluate registry e.name e.formula.root
      let reading := value.truth
      modify fun env => { env with ledger := e.book now reading env.ledger }
      return (⟨s.events.set i (e.settle now reading)⟩, e.announce now reading)

/-- The turns of the events at several places. -/
def turns (registry : Registry) (now : Float) (s : Schedule) :
    List Nat → EvalM H (Schedule × List Notification)
  | [] => return (s, [])
  | i :: rest => do
    let (s, first) ← s.turn registry now i
    let (s, others) ← s.turns registry now rest
    return (s, first ++ others)

/-- The turns of all events at the time of the game. -/
def tick (registry : Registry) (s : Schedule) : EvalM H (Schedule × List Notification) := do
  let now := Host.time (← get).host
  s.turns registry now (List.range s.events.length)

end MissionScript.Schedule

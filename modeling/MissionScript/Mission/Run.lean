import MissionScript.Event.Tick
import MissionScript.Mission.Loading
import MissionScript.Mission.Summary

/-!
Running a mission: tick by tick, first its events and then its goals, until it is finished. The
score is what the notifications add up to.
-/

namespace MissionScript

/-- A mission that is being run. -/
structure Run where
  mission : Mission
  registry : Registry
  /-- whether goals that are still open fail when the mission ends -/
  failsOpen : Bool
  score : Int
  /-- the time of the last tick -/
  time : Float
  ticks : Nat
  /-- the notifications so far, if somebody listens -/
  outbox : Option (List Notification)

/-- What comes of a tick. -/
structure Ticked (H : Type) where
  report : TickReport
  run : Run
  host : H
  warnings : List Warning

namespace Run

/-- A mission before its first tick. -/
def start (mission : Mission) (registry : Registry) (settings : Settings) : Run :=
  ⟨mission, registry, settings.failsOpen, 0, 0, 0, none⟩

/-- The same run with somebody who listens from now on. -/
def listen (r : Run) : Run :=
  { r with outbox := some [] }

/-- Counts the score of notifications and passes them on. -/
def deliver (r : Run) (ns : List Notification) : Run :=
  { r with
    score := r.score + Notification.totalScore ns
    outbox := r.outbox.map (· ++ ns) }

/-- The mission after a tick. -/
def advance (m : Mission) (schedule : Schedule) (tracker : Tracker) (vars : Variables)
    (ledger : Ledger) : Mission :=
  { m with schedule, tracker, vars, ledger }

/-- One tick at the time of the game. -/
def tick {H : Type} [Host H] (r : Run) (host : H) : Ticked H :=
  let now := Host.time host
  let env := Env.start host r.mission.vars r.mission.ledger #[]
  let ((schedule, fired), env) := r.mission.schedule.tick r.registry env
  let ((tracker, moved), env) := r.mission.tracker.tick r.registry env
  let ns := fired ++ moved
  let mission := advance r.mission schedule tracker env.vars env.ledger
  let run := { r with mission, time := now, ticks := r.ticks + 1 }.deliver ns
  ⟨⟨now, ns, Notification.totalScore ns, tracker.outcome⟩, run, env.host, env.log.toList⟩

/-- The end of a mission: its outcome is settled, at the time of the last tick. -/
def resolve (r : Run) : Run × List Notification :=
  let (tracker, failed, ledger) :=
    if r.failsOpen then r.mission.tracker.failIncomplete r.time r.mission.ledger
    else (r.mission.tracker, [], r.mission.ledger)
  let (tracker, ends) := tracker.conclude r.time
  let ns := failed ++ ends
  ({ r with mission := { r.mission with tracker, ledger } }.deliver ns, ns)

/-- What became of a goal. -/
def goalSummary (g : Goal) : GoalSummary :=
  ⟨g.name, g.type, g.status, g.invalid⟩

/-- What became of an event. -/
def eventSummary (e : Event) : EventSummary :=
  ⟨e.name, e.triggers, e.state == .exhausted⟩

/-- What became of a mission whose end raised these notifications. -/
def summary (r : Run) (ns : List Notification) : Summary :=
  let m := r.mission
  ⟨m.name, m.tracker.outcome, r.score, r.time, r.ticks, m.tracker.goals.map goalSummary,
    m.schedule.events.map eventSummary, ns, m.vars.endMission.1, m.ledger.errors⟩

/-- Ends a mission. -/
def finish (r : Run) : Summary :=
  let (r, ns) := r.resolve
  r.summary ns

end Run

end MissionScript

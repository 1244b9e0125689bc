import MissionScript.Game.Simulation
import MissionScript.Mission.Run

/-!
Flights: a mission run against a simulation, with a clock that advances by the same step every time.
The first tick is at time zero.
-/

namespace MissionScript

/-- The clock of a flight. -/
structure Clock where
  time : Float
  step : Float
  ticks : Nat
  deriving DecidableEq

/-- The clock at the next tick. The steps are added up one by one. -/
def Clock.next (c : Clock) : Clock :=
  ⟨if c.ticks = 0 then c.time else c.time + c.step, c.step, c.ticks + 1⟩

/-- A mission, its game and its clock. -/
structure Flight where
  clock : Clock
  game : Simulation
  /-- nothing once the mission is finished -/
  run : Option Run
  lastReport : Option TickReport

namespace Flight

/-- A flight before its first tick. -/
def start (run : Run) (game : Simulation) (settings : Settings) : Flight :=
  ⟨⟨0, settings.tickSeconds, 0⟩, game, some run, none⟩

/-- Advances the clock, and runs a tick if the mission is not finished. -/
def tick (f : Flight) : Flight × List Warning :=
  let clock := f.clock.next
  let game := f.game.setTime clock.time
  match f.run with
  | none => ({ f with clock, game }, [])
  | some run =>
    let t := run.tick game
    (⟨clock, t.host, some t.run, some t.report⟩, t.warnings)

/-- Finishes the mission, unless it is finished. -/
def finish (f : Flight) : Option Summary × Flight :=
  (f.run.map Run.finish, { f with run := none })

end Flight

end MissionScript

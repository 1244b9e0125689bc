import MissionScript.Game.Generator
import MissionScript.Game.Host
import MissionScript.Game.Scenario
import MissionScript.Name
import MissionScript.Number.Arithmetic

/-!
A game that follows a scenario. Where a ship is depends only on the clock, its plan and what the
mission has done to it.
-/

namespace MissionScript

/-- A ship of a simulation. -/
structure Ship where
  plan : ShipPlan
  /-- when the mission destroyed it -/
  killedAt : Option Float
  deriving DecidableEq

namespace Ship

/-- Whether a moment has come. -/
def reached (now : Float) (moment : Option Float) : Bool :=
  moment.any (· ≤ now)

/-- When a ship is destroyed, by the plan or by the mission, whichever is first. -/
def destroyedAt (s : Ship) : Option Float :=
  match s.plan.destroyAt, s.killedAt with
  | some planned, some killed => some (smaller planned killed)
  | planned, killed => planned <|> killed

/-- Where a ship is. Of two ends that have come, the earlier one counts, and destruction if both
    came at the same time. -/
def status (s : Ship) (now : Float) : ShipStatus :=
  if !reached now s.plan.arriveAt then .notArrived
  else
    match s.destroyedAt.filter (· ≤ now), s.plan.departAt.filter (· ≤ now) with
    | some destroyed, some departed => if departed < destroyed then .departed else .destroyed
    | some _, none => .destroyed
    | none, some _ => .departed
    | none, none => .present

end Ship

/-- A message that a mission has sent. -/
structure Message where
  time : Float
  persona : String
  text : String
  deriving DecidableEq

/-- Where random numbers come from. -/
inductive Dice where
  | generator (g : Generator)
  /-- the numbers of a list, one after the other, and zeros when it is used up -/
  | rolls (rest : List Int64)
  deriving DecidableEq

/-- A number moved between two bounds. -/
def clampBetween (low high n : Int64) : Int64 :=
  if n < low then low else if high < n then high else n

/-- The next number between two bounds. -/
def Dice.next (d : Dice) (low high : Int64) : Int64 × Dice :=
  match d with
  | .generator g =>
    let (n, g) := g.between low high
    (n, .generator g)
  | .rolls rest => (clampBetween low high (rest.head?.getD 0), .rolls rest.tail)

/-- A game that follows a scenario. -/
structure Simulation where
  time : Float
  ships : List Ship
  wings : List WingPlan
  dice : Dice
  /-- the messages sent so far -/
  messages : List Message
  /-- the wings called so far -/
  spawned : List String
  deriving DecidableEq

namespace Simulation

/-- A scenario at time zero. -/
def start (scenario : Scenario) (dice : Dice) : Simulation :=
  ⟨0, scenario.ships.map (⟨·, none⟩), scenario.wings, dice, [], []⟩

/-- The same game at another time. -/
def setTime (g : Simulation) (time : Float) : Simulation :=
  { g with time }

/-- The ship of a name. -/
def ship? (g : Simulation) (name : String) : Option Ship :=
  g.ships.find? fun s => sameName s.plan.name name

/-- The wing of a name. -/
def wing? (g : Simulation) (name : String) : Option WingPlan :=
  g.wings.find? fun w => sameName w.name name

/-- Where a ship is now. -/
def shipStatus? (g : Simulation) (name : String) : Option ShipStatus :=
  (g.ship? name).map (·.status g.time)

/-- The hull of a ship that is in play. -/
def shipHull? (g : Simulation) (name : String) : Option Float :=
  (g.ship? name).bind fun s => if s.status g.time = .present then some s.plan.hull else none

/-- Where the ships of a wing are now. A ship that there is not has not arrived. -/
def wingStatuses? (g : Simulation) (name : String) : Option (List ShipStatus) :=
  (g.wing? name).map fun w => w.ships.map fun ship => (g.shipStatus? ship).getD .notArrived

/-- The part of a wing that is destroyed. Of a wing without ships nothing is destroyed. -/
def wingDestroyed? (g : Simulation) (name : String) : Option Float :=
  (g.wingStatuses? name).map fun statuses =>
    if statuses.isEmpty then 0
    else
      Float.ofNat (statuses.countP fun status => status = .destroyed) / Float.ofNat statuses.length

/-- Sends a message. -/
def send (g : Simulation) (persona text : String) : Simulation :=
  { g with messages := g.messages ++ [⟨g.time, persona, text⟩] }

/-- Whether a ship waits for a wing to be called. -/
def waitsFor (now : Float) (w : WingPlan) (s : Ship) : Bool :=
  w.ships.any (sameName · s.plan.name) && s.status now == .notArrived

/-- Calls a wing: every ship of it that has not arrived arrives now. It fails if there is no such
    ship. -/
def spawn (g : Simulation) (name : String) : Bool × Simulation :=
  match g.wing? name with
  | none => (false, g)
  | some w =>
    if g.ships.any (waitsFor g.time w) then
      let ships := g.ships.map fun s =>
        if waitsFor g.time w s then { s with plan := { s.plan with arriveAt := some g.time } }
        else s
      (true, { g with ships, spawned := g.spawned ++ [w.name] })
    else (false, g)

/-- Destroys the first ship of a name, if it is in play. -/
def destroyIn (now : Float) (name : String) : List Ship → Bool × List Ship
  | [] => (false, [])
  | s :: rest =>
    if sameName s.plan.name name then
      if s.status now = .present then (true, { s with killedAt := some now } :: rest)
      else (false, s :: rest)
    else
      let (done, rest) := destroyIn now name rest
      (done, s :: rest)

/-- Destroys a ship. It fails if the ship is not in play. -/
def destroy (g : Simulation) (name : String) : Bool × Simulation :=
  let (done, ships) := destroyIn g.time name g.ships
  (done, { g with ships })

/-- A random number between two bounds. -/
def random (g : Simulation) (low high : Int64) : Int64 × Simulation :=
  let (n, dice) := g.dice.next low high
  (n, { g with dice })

instance : Host Simulation where
  time := time
  shipStatus := shipStatus?
  shipHull := shipHull?
  wingArrived g name := (g.wingStatuses? name).map fun statuses => statuses.any (·.hasArrived)
  wingDestroyed := wingDestroyed?
  sendMessage := send
  spawnWing := spawn
  destroyShip := destroy
  randomInt := random

end Simulation

end MissionScript

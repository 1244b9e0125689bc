/-!
The game that a mission runs in. Formulas see it through a few questions about ships and wings, and
change it through a few commands.
-/

namespace MissionScript

/-- Where a ship is in its life. -/
inductive ShipStatus where
  /-- part of the mission, but not yet in play -/
  | notArrived
  | present
  | destroyed
  | departed
  deriving DecidableEq

/-- Whether a ship has come into play. -/
def ShipStatus.hasArrived : ShipStatus → Bool
  | .notArrived => false
  | .present | .destroyed | .departed => true

def ShipStatus.word : ShipStatus → String
  | .notArrived => "not_arrived"
  | .present => "present"
  | .destroyed => "destroyed"
  | .departed => "departed"

/-- A game. A question about an unknown ship or wing has no answer. -/
class Host (H : Type) where
  /-- the mission clock in seconds -/
  time : H → Float
  shipStatus : H → String → Option ShipStatus
  /-- the hull of a ship in play, in percent -/
  shipHull : H → String → Option Float
  /-- whether a ship of the wing has come into play -/
  wingArrived : H → String → Option Bool
  /-- the part of the wing's ships that is destroyed, from zero to one -/
  wingDestroyed : H → String → Option Float
  sendMessage : H → (persona text : String) → H
  /-- brings a wing into play; not if it is unknown or already there -/
  spawnWing : H → String → Bool × H
  /-- destroys a ship; not if it is not in play -/
  destroyShip : H → String → Bool × H
  /-- a whole number between two bounds, both included -/
  randomInt : H → (low high : Int64) → Int64 × H

/-- Whether a ship is in play. -/
def Host.shipExists {H : Type} [Host H] (h : H) (ship : String) : Bool :=
  Host.shipStatus h ship == some .present

end MissionScript

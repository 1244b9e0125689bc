import MissionScript.Game.Simulation
import MissionScript.Proofs.Evaluation.Frame
import MissionScript.Proofs.Evaluation.Repetition
import MissionScript.Proofs.Number.Finite

/-!
Actions that fail. An action looks at the values of all its arguments before it touches anything, so
where it comes to nothing, nothing has been done but what evaluating its arguments does.
-/

namespace MissionScript

variable {H : Type}

namespace Env

end Env

variable [Host H]

namespace Evaluation

variable {registry : Registry} {formula : String} {path : Path} {n : Node} {args : List (Arg H)}

end Evaluation

namespace Scuttle

/-- A formula that destroys two ships, and by mistake also what a random number names. -/
def node : Node :=
  let apply (name : String) (args : List Node) : Node := .list (.atom (.operator name) 0 :: args) 0
  apply "self-destruct" [.atom (.text "Ranger") 0,
    apply "rand" [.atom (.number 1) 0, .atom (.number 6) 0], .atom (.text "Scout") 0]

/-- A game in which both ships are there, and the next random numbers are known. -/
def env : Env Simulation :=
  let ships : List ShipPlan := [⟨"Ranger", some 0, none, none, 100⟩, ⟨"Scout", some 0, none, none, 100⟩]
  .start (.start ⟨ships, []⟩ (.rolls [4, 2])) .empty .empty #[]

end Scuttle

end MissionScript

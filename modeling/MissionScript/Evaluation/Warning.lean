import MissionScript.Evaluation.Error
import MissionScript.Validation

/-!
Warnings: what the author of a mission is told about while it is loaded and runs.
-/

namespace MissionScript

/-- A warning. -/
inductive Warning where
  | unknownVariable (formula : String) (path : Path) (name : String)
  /-- an argument that is missing, superfluous or of the wrong kind -/
  | argumentMismatch (formula : String) (path : Path) (offset : Nat) (error : EvalError)
  /-- any other error of evaluation -/
  | subtreeUnknown (formula : String) (path : Path) (offset : Nat) (error : EvalError)
  | spawnWingRejected (wing : String)
  | chainCycle (event predecessor : String)
  | directiveUnknownGoal (goal : String)
  | overlay (fault : OverlayFault)
  | issue (i : Issue)
  deriving DecidableEq

namespace Warning

/-- The key of a warning. -/
def key : Warning → String
  | .unknownVariable .. => "eval.unknown_variable"
  | .argumentMismatch .. => "eval.argument_mismatch"
  | .subtreeUnknown .. => "eval.subtree_unknown"
  | .spawnWingRejected _ => "action.spawn_wing_rejected"
  | .chainCycle .. => "event.chain_cycle"
  | .directiveUnknownGoal _ => "goal.directive_unknown_goal"
  | .overlay (.typeMismatch ..) => "variables.persisted_type_mismatch"
  | .overlay (.invalidText ..) => "variables.persisted_value_invalid"
  | .issue _ => "validate.issue"

/-- The fields of a warning and their texts. -/
def fields : Warning → List (String × String)
  | .unknownVariable formula path name =>
    [("formula", formula), ("path", path.shown), ("variable", name)]
  | .argumentMismatch formula path offset error | .subtreeUnknown formula path offset error =>
    [("formula", formula), ("path", path.shown), ("offset", toString offset),
      ("error", error.message)]
  | .spawnWingRejected wing => [("wing", wing)]
  | .chainCycle event predecessor => [("event", event), ("predecessor", predecessor)]
  | .directiveUnknownGoal goal => [("goal", goal)]
  | .overlay (.typeMismatch name declared saved) =>
    [("name", name), ("declared", declared.word), ("saved", saved.word)]
  | .overlay (.invalidText name text) => [("name", name), ("value", text)]
  | .issue i => [("formula", i.formula), ("path", i.path.shown), ("issue", i.kind.message)]

end Warning

end MissionScript

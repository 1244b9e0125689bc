import MissionScript.Evaluation.Warning
import MissionScript.Game.Host
import MissionScript.Ledger

/-!
What a formula is evaluated in, and what is remembered of the evaluation.
-/

namespace MissionScript

/-- A step of an evaluation. The steps of a node lie between those that enter and leave it. -/
inductive Visit where
  | enter (path : Path) (node : Node)
  | leave (path : Path) (outcome : Except EvalError Value)

/-- The game, the variables and the ledger of a mission, the warnings so far, and the steps of the
    formula that is being evaluated. -/
structure Env (H : Type) where
  host : H
  vars : Variables
  ledger : Ledger
  log : Array Warning
  trace : Array Visit

/-- A computation in an environment. -/
abbrev EvalM (H : Type) := StateM (Env H)

/-- An argument of an operator that has not been evaluated. -/
structure Arg (H : Type) where
  node : Node
  path : Path
  eval : EvalM H Value

namespace Env

variable {H : Type}

/-- An environment at the start of a formula. -/
def start (host : H) (vars : Variables) (ledger : Ledger) (log : Array Warning) : Env H :=
  ⟨host, vars, ledger, log, #[]⟩

/-- Adds a warning. -/
def warn (env : Env H) (w : Warning) : Env H :=
  { env with log := env.log.push w }

/-- Adds a step. -/
def record (env : Env H) (v : Visit) : Env H :=
  { env with trace := env.trace.push v }

/-- An error at a node. An unknown variable is reported once in a mission. -/
def report (env : Env H) (formula : String) (path : Path) (offset : Nat) (e : EvalError) : Env H :=
  let env := match e with
    | .unknownVariable name =>
      let (isNew, ledger) := env.ledger.warnOnce name
      let env := { env with ledger }
      if isNew then env.warn (.unknownVariable formula path name) else env
    | .argumentMismatch .. | .arityMismatch .. => env.warn (.argumentMismatch formula path offset e)
    | e => env.warn (.subtreeUnknown formula path offset e)
  { env with ledger := env.ledger.countError }

end Env

end MissionScript

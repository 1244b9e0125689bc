import MissionScript.Evaluation.Action
import MissionScript.Evaluation.Control
import MissionScript.Operator.Registry

/-!
Evaluating formulas. Every node has a value: a node that fails is reported and is unknown, and the
formula around it goes on.
-/

namespace MissionScript

/-- How many steps below the root a node may still be evaluated. -/
def maxEvalDepth : Nat := 512

namespace Evaluation

variable {H : Type}

/-- What a scripted operator answers. -/
def scriptedAnswer (formula : String) (path : Path) (count : Nat) : Reply → Except EvalError Value
  | .fail reason => .error (.failed "custom" (.scripted reason))
  | .count => .ok (.number (floatOfCount count))
  | .place => .ok (.text s!"{formula}@{path.shown}")
  | .give v => .ok v

/-- The first value that an operator does not accept. -/
def mismatch? (operator : Operator) (values : List Value) : Option EvalError :=
  values.zipIdx.findSome? fun (v, i) =>
    let expected := operator.signature.constraintAt i
    if expected.acceptsValue v then none
    else some (.argumentMismatch operator.name i expected.word v.kind)

/-- The number of arguments is one that the operator does not take. -/
def arityError (operator : Operator) (found : Nat) : EvalError :=
  .arityMismatch operator.name operator.signature.arity found

/-- Evaluates arguments from the first to the last. -/
def evalAll : List (Arg H) → EvalM H (List Value)
  | [] => return []
  | arg :: rest => do
    let v ← arg.eval
    let values ← evalAll rest
    return v :: values

/-- Applies an operator to the values of its arguments. -/
def applyEager [Host H] (operator : Operator) (formula : String) (path : Path) (values : List Value)
    (env : Env H) : Except EvalError Value × Env H :=
  if !operator.signature.acceptsCount values.length then
    (.error (arityError operator values.length), env)
  else
    match mismatch? operator values with
    | some e => (.error e, env)
    | none =>
      if !operator.signature.flags.acceptsUnknown && values.any Value.isUnknown then
        (.ok .unknown, env)
      else
        match operator.behaviour with
        | .builtin (.query q) => (q.answer env.host env.ledger values, env)
        | .builtin (.action a) => a.perform values env
        | .builtin (.control _) => (.error .notAnOperator, env)
        | .scripted _ reply => (scriptedAnswer formula path values.length reply, env)

/-- Applies an operator to arguments that it evaluates itself. -/
def applyLazy [Host H] (operator : Operator) (formula : String) (path : Path)
    (args : List (Arg H)) : EvalM H (Except EvalError Value) :=
  if !operator.signature.acceptsCount args.length then
    return .error (arityError operator args.length)
  else
    match operator.behaviour with
    | .builtin (.control c) => c.run formula args
    | .builtin _ => return .error .notAnOperator
    | .scripted _ reply => do
      Control.runAll args
      return scriptedAnswer formula path args.length reply

/-- Applies the operator of a list. `name` is the name at its head. -/
def apply [Host H] (registry : Registry) (formula : String) (path : Path) (name : Option String)
    (args : List (Arg H)) : EvalM H (Except EvalError Value) :=
  match name with
  | none => return .error .notAnOperator
  | some name =>
    match registry.get? name with
    | none => return .error (.unknownOperator name)
    | some operator =>
      if operator.behaviour.isLazy then applyLazy operator formula path args
      else do
        let values ← evalAll args
        modifyGet (applyEager operator formula path values)

/-- The value of an atom. -/
def atomValue (vars : Variables) : Atom → Except EvalError Value
  | .number x => .ok (.number x)
  | .text s => .ok (.text s)
  | .variable name =>
    match vars.get? name with
    | some v => .ok v.value.toValue
    | none => .error (.unknownVariable name)
  | .operator _ => .error .notAnOperator

/-- Evaluates a node by `attempt`, between the two steps that the trace has of it. Nothing is
    attempted too far below the root. -/
def visit (formula : String) (path : Path) (node : Node)
    (attempt : EvalM H (Except EvalError Value)) : EvalM H Value := do
  modify (·.record (.enter path node))
  let outcome ← if maxEvalDepth ≤ path.length then pure (.error (.depthExceeded maxEvalDepth))
    else attempt
  match outcome with
  | .ok v =>
    modify (·.record (.leave path (.ok v)))
    return v
  | .error e =>
    modify fun env => (env.report formula path node.offset e).record (.leave path (.error e))
    return .unknown

mutual

/-- Evaluates a node of a formula at its path. -/
def evalNode [Host H] (registry : Registry) (formula : String) (path : Path) : Node → EvalM H Value
  | .atom a offset =>
    visit formula path (.atom a offset) do return atomValue (← get).vars a
  | .list children offset =>
    visit formula path (.list children offset)
      (apply registry formula path (Node.headName? children)
        (childArgs registry formula path 0 children).tail)

/-- The children of a node, to be evaluated later, from the child of an index on. -/
def childArgs [Host H] (registry : Registry) (formula : String) (path : Path) (index : Nat) :
    List Node → List (Arg H)
  | [] => []
  | n :: rest =>
    ⟨n, path.child index, evalNode registry formula (path.child index) n⟩ ::
      childArgs registry formula path (index + 1) rest

end

end Evaluation

/-- Evaluates a formula from its root, under the name that its errors are reported with. -/
def evaluate {H : Type} [Host H] (registry : Registry) (formula : String) (root : Node) :
    EvalM H Value := do
  modify fun env => { env with trace := #[] }
  Evaluation.evalNode registry formula [] root

end MissionScript

import MissionScript.Evaluation.Query

/-!
What controls do with their arguments. An argument is evaluated when its value is needed, in the
order of the arguments, and never twice.
-/

namespace MissionScript

namespace Control

variable {H : Type}

/-- Stops at the first argument that is not true. -/
def conjunction (settled : Bool) : List (Arg H) → EvalM H Truth
  | [] => return if settled then .knownTrue else .trueNow
  | arg :: rest => do
    match (← arg.eval).truth with
    | .knownTrue => conjunction settled rest
    | .trueNow => conjunction false rest
    | t => return t

/-- Stops at the first argument that is true. `sofar` is what the arguments before said. -/
def disjunction (sofar : Truth) : List (Arg H) → EvalM H Truth
  | [] => return sofar
  | arg :: rest => do
    match (← arg.eval).truth with
    | .knownTrue => return .knownTrue
    | .trueNow => return .trueNow
    | .knownFalse => disjunction sofar rest
    | .falseNow => disjunction (if sofar = .knownFalse then .falseNow else sofar) rest
    | .unknown => disjunction .unknown rest

/-- Evaluates arguments for what they do. -/
def runAll : List (Arg H) → EvalM H Unit
  | [] => return ()
  | arg :: rest => do
    let _ ← arg.eval
    runAll rest

/-- Evaluates an argument of a sequence, and remembers when it was first true. -/
def latchArg (formula : String) (now : Float) (arg : Arg H) : EvalM H (Truth × Option Float) := do
  let truth := (← arg.eval).truth
  if truth.isTrue then
    modifyGet fun env =>
      let (time, ledger) := env.ledger.latch formula arg.path now
      ((truth, some time), { env with ledger })
  else
    return (truth, (← get).ledger.latchedAt? formula arg.path)

/-- Evaluates all arguments of a sequence. -/
def latchAll (formula : String) (now : Float) : List (Arg H) → EvalM H (List (Truth × Option Float))
  | [] => return []
  | arg :: rest => do
    let reading ← latchArg formula now arg
    let readings ← latchAll formula now rest
    return reading :: readings

/-- Whether times never go back. -/
def ascending : List Float → Bool
  | a :: b :: rest => a ≤ b && ascending (b :: rest)
  | _ => true

/-- What the arguments of a sequence say, and when each was first true. All must have been true,
    one not before the other; out of order they will never be in order again. -/
def sequenceTruth (readings : List (Truth × Option Float)) : Truth :=
  match readings.mapM (·.2) with
  | some times =>
    if ascending times then
      if readings.all (·.1 == .knownTrue) then .knownTrue else .trueNow
    else .knownFalse
  | none => if readings.any (·.1 == .knownFalse) then .knownFalse else .falseNow

/-- The name of the variable that an argument is. -/
def target (operator : String) (node : Node) : Except EvalError String :=
  match node.variableName? with
  | some name => .ok name
  | none => .error (.argumentMismatch operator 0 Constraint.variable.word node.kind)

/-- Gives a variable a value; an unknown value leaves it as it is. -/
def store (operator name : String) (value : Value) (env : Env H) :
    Except EvalError Value × Env H :=
  if value.isUnknown then (.ok .unknown, env)
  else
    match env.vars.setValue name value with
    | .ok vars => (.ok Truth.trueNow.toValue, { env with vars })
    | .error (.undeclared name) => (.error (.unknownVariable name), env)
    | .error (.typeMismatch _ expected _) | .error (.redeclared _ expected) =>
      (.error (.argumentMismatch operator 1 expected.word value.kind), env)

/-- Whether a variable has another value than at the start. -/
def isSet (vars : Variables) (name : String) : Except EvalError Value :=
  match vars.get? name with
  | some v => .ok (.bool (!v.value.equals v.initial))
  | none => .error (.unknownVariable name)

/-- What a control does with its arguments in a formula. -/
def run [Host H] (c : Control) (formula : String) (args : List (Arg H)) :
    EvalM H (Except EvalError Value) :=
  let operator := c.definition.name
  let missing : EvalM H (Except EvalError Value) :=
    return .error (.failed operator (.missingArgument args.length))
  match c with
  | .and => do return .ok (← conjunction true args).toValue
  | .or => do return .ok (← disjunction .knownFalse args).toValue
  | .andInSequence => do
    let now := Host.time (← get).host
    return .ok (sequenceTruth (← latchAll formula now args)).toValue
  | .when =>
    match args with
    | condition :: actions => do
      let truth := (← condition.eval).truth
      if truth.isTrue then runAll actions
      return .ok truth.toValue
    | [] => missing
  | .everyTime =>
    match args with
    | condition :: actions => do
      if (← condition.eval).isTrue then runAll actions
      return .ok Truth.falseNow.toValue
    | [] => missing
  | .ifThenElse =>
    match args with
    | condition :: yes :: no :: _ => do
      let truth := (← condition.eval).truth
      if truth = .unknown then return .ok .unknown
      else if truth.isTrue then return .ok (← yes.eval)
      else return .ok (← no.eval)
    | _ => missing
  | .modifyVariable =>
    match args with
    | ref :: value :: _ =>
      match target operator ref.node with
      | .error e => return .error e
      | .ok name => do
        let v ← value.eval
        modifyGet (store operator name v)
    | _ => missing
  | .variableIsSet =>
    match args with
    | ref :: _ =>
      match target operator ref.node with
      | .error e => return .error e
      | .ok name => do return isSet (← get).vars name
    | [] => missing

end Control

end MissionScript

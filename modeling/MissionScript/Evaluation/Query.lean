import MissionScript.Evaluation.Env
import MissionScript.Number.Arithmetic
import MissionScript.Operator.Builtin

/-!
What queries answer. They read the game and the ledger, and nothing else.
-/

namespace MissionScript

/-- Whether conditions hold together: the first that does not decides, and the answer is settled
    only if all of them are. -/
def Truth.all (settled : Bool) : List Truth → Truth
  | [] => if settled then .knownTrue else .trueNow
  | .knownTrue :: rest => Truth.all settled rest
  | .trueNow :: rest => Truth.all false rest
  | t :: _ => t

/-- Whether a ship has been destroyed. A ship that departed never will be. -/
def destroyedTruth : Option ShipStatus → Truth
  | some .destroyed => .knownTrue
  | some .departed => .knownFalse
  | some .present | some .notArrived => .falseNow
  | none => .unknown

/-- Whether a ship has departed. A ship that was destroyed never will. -/
def departedTruth : Option ShipStatus → Truth
  | some .departed => .knownTrue
  | some .destroyed => .knownFalse
  | some .present | some .notArrived => .falseNow
  | none => .unknown

/-- Whether a ship has arrived. -/
def arrivedTruth : Option ShipStatus → Truth
  | some status => if status.hasArrived then .knownTrue else .falseNow
  | none => .unknown

/-- Whether an event has fired. -/
def EventRecord.hasFired (r : EventRecord) : Truth :=
  if 0 < r.triggers then .knownTrue else if r.neverFires then .knownFalse else .falseNow

/-- Whether an event can fire no more. -/
def EventRecord.isOver (r : EventRecord) : Truth :=
  if r.neverFires then .knownTrue else if 0 < r.triggers then .knownFalse else .falseNow

/-- Whether an event first fired so many seconds ago. -/
def EventRecord.hasFiredSince (r : EventRecord) (now delay : Float) : Truth :=
  match r.first with
  | some first => if first + delay ≤ now then .knownTrue else .falseNow
  | none => if r.neverFires then .knownFalse else .falseNow

/-- Whether a goal has reached one of the two ends. -/
def GoalStatus.hasBecome (s target : GoalStatus) : Truth :=
  if s = target then .knownTrue else if s.isTerminal then .knownFalse else .falseNow

namespace Query

/-- The number of an argument. -/
def numberArg (operator : String) (index : Nat) : Value → Except EvalError Float
  | .number x => .ok x
  | v => .error (.argumentMismatch operator index "number" v.kind)

/-- The text of an argument. -/
def textArg (operator : String) (index : Nat) : Value → Except EvalError String
  | .text s => .ok s
  | v => .error (.argumentMismatch operator index "string" v.kind)

/-- The numbers of arguments from an index on. -/
def numbersFrom (operator : String) (index : Nat) : List Value → Except EvalError (List Float)
  | [] => .ok []
  | v :: rest => do
    let x ← numberArg operator index v
    let xs ← numbersFrom operator (index + 1) rest
    return x :: xs

/-- The texts of arguments from an index on. -/
def textsFrom (operator : String) (index : Nat) : List Value → Except EvalError (List String)
  | [] => .ok []
  | v :: rest => do
    let s ← textArg operator index v
    let texts ← textsFrom operator (index + 1) rest
    return s :: texts

/-- The argument of an index. -/
def argAt (operator : String) (args : List Value) (index : Nat) : Except EvalError Value :=
  match args[index]? with
  | some v => .ok v
  | none => .error (.failed operator (.missingArgument index))

/-- The number of the argument of an index. -/
def numberAt (operator : String) (args : List Value) (index : Nat) : Except EvalError Float := do
  numberArg operator index (← argAt operator args index)

/-- The text of the argument of an index. -/
def textAt (operator : String) (args : List Value) (index : Nat) : Except EvalError String := do
  textArg operator index (← argAt operator args index)

/-- Combines numbers from the left. The result must be finite, the steps to it need not. -/
def combine (operator : String) (args : List Value) (step : Float → Float → Except Failure Float) :
    Except EvalError Value := do
  match ← numbersFrom operator 0 args with
  | [] => .error (.failed operator .noOperands)
  | x :: rest =>
    match rest.foldlM step x with
    | .error reason => .error (.failed operator reason)
    | .ok total =>
      if total.isFinite then .ok (.number total) else .error (.failed operator .notFinite)

/-- Compares the first number with each of the others. -/
def compareFirst (operator : String) (args : List Value) (holds : Float → Float → Bool) :
    Except EvalError Value := do
  match ← numbersFrom operator 0 args with
  | [] => .error (.failed operator (.missingArgument 0))
  | x :: rest => .ok (.bool (rest.all (holds x)))

/-- Asks for every named ship. -/
def everyShip {H : Type} [Host H] (operator : String) (host : H) (args : List Value)
    (reading : Option ShipStatus → Truth) : Except EvalError Value := do
  let ships ← textsFrom operator 0 args
  return (Truth.all true (ships.map fun ship => reading (Host.shipStatus host ship))).toValue

/-- The record of the event that the first argument names. -/
def eventArg (operator : String) (ledger : Ledger) (args : List Value) :
    Except EvalError EventRecord := do
  let name ← textAt operator args 0
  match ledger.event? name with
  | some r => .ok r
  | none => .error (.failed operator (.noEvent name))

/-- The status of the goal that the first argument names. -/
def goalArg (operator : String) (ledger : Ledger) (args : List Value) :
    Except EvalError GoalStatus := do
  let name ← textAt operator args 0
  match ledger.goal? name with
  | some r => .ok r.status
  | none => .error (.failed operator (.noGoal name))

/-- The hull of a ship; a destroyed ship has none left. -/
def hull {H : Type} [Host H] (host : H) (ship : String) : Value :=
  match Host.shipHull host ship with
  | some hull => .number hull
  | none => if Host.shipStatus host ship = some .destroyed then .number 0 else .unknown

/-- What a query answers to the values of its arguments. -/
def answer {H : Type} [Host H] (q : Query) (host : H) (ledger : Ledger) (args : List Value) :
    Except EvalError Value :=
  let operator := q.definition.name
  match q with
  | .always => .ok Truth.knownTrue.toValue
  | .never => .ok Truth.knownFalse.toValue
  | .not => do return (← argAt operator args 0).truth.negate.toValue
  | .xor => do
    let a ← argAt operator args 0
    let b ← argAt operator args 1
    return .bool (a.isTrue != b.isTrue)
  | .isIndeterminate => do return .bool (← argAt operator args 0).isUnknown
  | .add => combine operator args fun a b => .ok (a + b)
  | .subtract =>
    match args with
    | [v] => do return .number (-(← numberArg operator 0 v))
    | args => combine operator args fun a b => .ok (a - b)
  | .multiply => combine operator args fun a b => .ok (a * b)
  | .divide =>
    combine operator args fun a b => if b == 0 then .error .divisionByZero else .ok (a / b)
  | .modulo =>
    combine operator args fun a b => if b == 0 then .error .moduloByZero else .ok (remainder a b)
  | .least => combine operator args fun a b => .ok (smaller a b)
  | .greatest => combine operator args fun a b => .ok (larger a b)
  | .absolute => do return .number (← numberAt operator args 0).abs
  | .equal => compareFirst operator args (· == ·)
  | .less => compareFirst operator args fun a b => decide (a < b)
  | .greater => compareFirst operator args fun a b => decide (b < a)
  | .atMost => compareFirst operator args fun a b => decide (a ≤ b)
  | .atLeast => compareFirst operator args fun a b => decide (b ≤ a)
  | .notEqual => compareFirst operator args (· != ·)
  | .stringEquals => do
    match ← textsFrom operator 0 args with
    | [] => .error (.failed operator (.missingArgument 0))
    | s :: rest => .ok (.bool (rest.all (· == s)))
  | .stringConcatenate => do return .text (String.join (← textsFrom operator 0 args))
  | .stringLength => do return .number (floatOfCount (← textAt operator args 0).length)
  | .numberToString => do return .text (showNumber (← numberAt operator args 0))
  | .stringToNumber => do
    let text ← textAt operator args 0
    match readNumber? (Text.trim text.toList) with
    | some x => .ok (.number x)
    | none => .error (.failed operator (.notANumber text))
  | .missionTime => .ok (.number (Host.time host))
  | .hasTimeElapsed => do
    let seconds ← numberAt operator args 0
    return (if seconds ≤ Host.time host then Truth.knownTrue else .falseNow).toValue
  | .isDestroyed => everyShip operator host args destroyedTruth
  | .hasDeparted => everyShip operator host args departedTruth
  | .hasArrived => everyShip operator host args arrivedTruth
  | .hitsLeft => do return hull host (← textAt operator args 0)
  | .shipExists => do return .bool (Host.shipExists host (← textAt operator args 0))
  | .wingHasArrived => do
    let wing ← textAt operator args 0
    let truth : Truth := match Host.wingArrived host wing with
      | some true => .knownTrue
      | some false => .falseNow
      | none => .unknown
    return truth.toValue
  | .percentWingDestroyed => do
    let wing ← textAt operator args 0
    return match Host.wingDestroyed host wing with
      | some part => .number (part * 100)
      | none => .unknown
  | .doNothing => .ok Truth.trueNow.toValue
  | .isEventTrue => do return (← eventArg operator ledger args).hasFired.toValue
  | .isEventFalse => do return (← eventArg operator ledger args).isOver.toValue
  | .isEventTrueDelay => do
    let delay ← numberAt operator args 1
    let record ← eventArg operator ledger args
    return (record.hasFiredSince (Host.time host) delay).toValue
  | .isGoalTrue => do return ((← goalArg operator ledger args).hasBecome .complete).toValue
  | .isGoalFalse => do return ((← goalArg operator ledger args).hasBecome .failed).toValue

end Query

end MissionScript

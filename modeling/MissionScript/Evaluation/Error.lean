/-!
Errors of evaluation. None of them leaves a formula: what raises an error becomes unknown.
-/

namespace MissionScript

/-- Why an operator fails on arguments of the right kind. -/
inductive Failure where
  | divisionByZero
  | moduloByZero
  | notFinite
  | emptyRange (low high : Int)
  | notANumber (text : String)
  | noEvent (name : String)
  | noGoal (name : String)
  | noOperands
  | missingArgument (index : Nat)
  /-- the answer of a scripted operator -/
  | scripted (reason : String)
  deriving DecidableEq

/-- Why evaluating a node fails. -/
inductive EvalError where
  | unknownOperator (name : String)
  | arityMismatch (operator expected : String) (found : Nat)
  | argumentMismatch (operator : String) (index : Nat) (expected found : String)
  | unknownVariable (name : String)
  | failed (operator : String) (reason : Failure)
  | notAnOperator
  | depthExceeded (limit : Nat)
  deriving DecidableEq

def Failure.message : Failure → String
  | .divisionByZero => "division by zero"
  | .moduloByZero => "modulo by zero"
  | .notFinite => "result is not finite"
  | .emptyRange low high => s!"empty range {low}..={high}"
  | .notANumber text => s!"'{text}' is not a number"
  | .noEvent name => s!"no event named '{name}'"
  | .noGoal name => s!"no goal named '{name}'"
  | .noOperands => "no operands"
  | .missingArgument index => s!"missing argument {index}"
  | .scripted reason => reason

def EvalError.message : EvalError → String
  | .unknownOperator name => s!"unknown operator '{name}'"
  | .arityMismatch operator expected found =>
    s!"'{operator}' expects {expected} arguments, got {found}"
  | .argumentMismatch operator index expected found =>
    s!"'{operator}' argument {index} expects {expected}, got {found}"
  | .unknownVariable name => s!"variable '{name}' is not declared"
  | .failed operator reason => s!"'{operator}' failed: {reason.message}"
  | .notAnOperator => "node is not an operator application"
  | .depthExceeded limit => s!"evaluation exceeded depth {limit}"

end MissionScript

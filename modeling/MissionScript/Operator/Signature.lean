import MissionScript.Value

/-!
Signatures of operators: how many arguments an operator takes, what each of them must be, and what
it gives.
-/

namespace MissionScript

/-- What an operator gives. -/
inductive ReturnType where
  | number
  | string
  | boolean
  /-- an effect; its value is a truth value -/
  | action
  /-- it depends on the arguments -/
  | any
  deriving DecidableEq

/-- What an argument must be. -/
inductive Constraint where
  | number
  | string
  | boolean
  | ship
  | wing
  /-- a variable by its name, which is not evaluated -/
  | variable
  | any
  deriving DecidableEq

def ReturnType.word : ReturnType → String
  | .number => "number"
  | .string => "string"
  | .boolean => "boolean"
  | .action => "action"
  | .any => "any"

namespace Constraint

def word : Constraint → String
  | .number => "number"
  | .string => "string"
  | .boolean => "boolean"
  | .ship => "ship"
  | .wing => "wing"
  | .variable => "variable"
  | .any => "any"

/-- Whether an argument may be an application of an operator that gives this. -/
def acceptsReturn : Constraint → ReturnType → Bool
  | .any, _ | _, .any => true
  | .number, .number => true
  | .string, .string | .ship, .string | .wing, .string => true
  | .boolean, .boolean | .boolean, .action | .boolean, .number => true
  | _, _ => false

/-- Whether an argument may have this value. -/
def acceptsValue : Constraint → Value → Bool
  | _, .unknown => true
  | .any, _ => true
  | .number, .number _ | .boolean, .number _ => true
  | .string, .text _ | .ship, .text _ | .wing, .text _ => true
  | _, _ => false

end Constraint

/-- Further properties of an operator. -/
structure Flags where
  /-- whether applying it changes the game or the mission -/
  sideEffect : Bool
  /-- whether it is applied although an argument is unknown -/
  acceptsUnknown : Bool
  /-- whether it evaluates its arguments itself -/
  isLazy : Bool
  deriving DecidableEq

/-- What is known of an operator before it is applied. -/
structure Signature where
  minArgs : Nat
  /-- the greatest number of arguments, if there is one -/
  maxArgs : Option Nat
  /-- the constraint of each argument; the last one holds for all that follow -/
  args : List Constraint
  returns : ReturnType
  flags : Flags
  deriving DecidableEq

namespace Signature

/-- The constraint of the argument of an index. -/
def constraintAt (s : Signature) (i : Nat) : Constraint :=
  (s.args[i]?).getD (s.args.getLast?.getD .any)

/-- Whether an operator takes so many arguments. -/
def acceptsCount (s : Signature) (n : Nat) : Bool :=
  s.minArgs ≤ n && s.maxArgs.all (n ≤ ·)

/-- The numbers of arguments in words. -/
def arity (s : Signature) : String :=
  match s.maxArgs with
  | some most => if most = s.minArgs then toString most else s!"{s.minArgs}..{most}"
  | none => s!"{s.minArgs}+"

end Signature

end MissionScript

import MissionScript.Operator.Registry
import MissionScript.Formula.Node
import MissionScript.Variable.Store

/-!
Checking formulas before they are evaluated: whether their operators are registered and take the
arguments that they are given, and whether their variables are declared.
-/

namespace MissionScript

/-- What is wrong at a node of a formula. -/
inductive IssueKind where
  | unknownOperator (name : String)
  | tooFewArguments (operator : String) (least found : Nat)
  | tooManyArguments (operator : String) (most found : Nat)
  | argumentType (operator : String) (index : Nat) (expected : Constraint) (found : String)
  | undeclaredVariable (name : String)
  | variableType (name : String) (expected : Constraint) (found : VariableType)
  deriving DecidableEq

/-- Something wrong, and where. -/
structure Issue where
  formula : String
  path : Path
  offset : Nat
  kind : IssueKind
  deriving DecidableEq

def IssueKind.message : IssueKind → String
  | .unknownOperator name => s!"unknown operator '{name}'"
  | .tooFewArguments operator least found =>
    s!"'{operator}' needs at least {least} arguments, got {found}"
  | .tooManyArguments operator most found =>
    s!"'{operator}' takes at most {most} arguments, got {found}"
  | .argumentType operator index expected found =>
    s!"'{operator}' argument {index} expects {expected.word}, got {found}"
  | .undeclaredVariable name => s!"variable '@{name}' is not declared"
  | .variableType name expected found =>
    s!"variable '@{name}' holds {found.word} values where {expected.word} is expected"

def Issue.message (i : Issue) : String :=
  s!"{i.formula} at {i.path.shown} (byte {i.offset}): {i.kind.message}"

namespace Validation

/-- A variable that must be declared. Where no variables are known, nothing is asked. -/
def undeclared (vars : Option Variables) (name : String) : List IssueKind :=
  match vars with
  | some vs => if vs.declares name then [] else [.undeclaredVariable name]
  | none => []

/-- A variable whose value is an argument. -/
def variableArgument (vars : Option Variables) (expected : Constraint) (name : String) :
    List IssueKind :=
  match vars with
  | none => []
  | some vs =>
    match vs.get? name with
    | none => [.undeclaredVariable name]
    | some v =>
      let sample : Value := match v.type with
        | .number => .number 0
        | .string => .text ""
      if expected.acceptsValue sample then [] else [.variableType name expected v.type]

/-- What an application gives that an argument must not be, if its operator is registered. -/
def wrongReturn (registry : Registry) (expected : Constraint) (arg : Node) : Option String :=
  (arg.operator?.bind registry.get?).bind fun nested =>
    if expected.acceptsReturn nested.signature.returns then none
    else some nested.signature.returns.word

/-- The argument of an index, against its constraint. -/
def argument (registry : Registry) (vars : Option Variables) (operator : String) (index : Nat)
    (expected : Constraint) (arg : Node) : List IssueKind :=
  let wrong (found : String) : List IssueKind := [.argumentType operator index expected found]
  match arg, expected with
  | .atom (.variable name) _, .variable => undeclared vars name
  | arg, .variable => wrong arg.kind
  | .atom (.number x) _, expected =>
    if expected.acceptsValue (.number x) then [] else wrong "number"
  | .atom (.text s) _, expected =>
    if expected.acceptsValue (.text s) then [] else wrong "string"
  | .atom (.variable name) _, expected => variableArgument vars expected name
  | .atom (.operator _) _, _ => wrong "operator"
  | .list children offset, expected =>
    (wrongReturn registry expected (.list children offset)).elim [] wrong

/-- How many arguments an operator is given. -/
def count (operator : Operator) (found : Nat) : List IssueKind :=
  let few := if found < operator.signature.minArgs then
      [IssueKind.tooFewArguments operator.name operator.signature.minArgs found] else []
  let many := match operator.signature.maxArgs with
    | some most =>
      if most < found then [IssueKind.tooManyArguments operator.name most found] else []
    | none => []
  few ++ many

/-- One application of an operator with its arguments. -/
def application (formula : String) (registry : Registry) (vars : Option Variables)
    (path : Path) (node : Node) : List Issue :=
  match node.operator? with
  | none => []
  | some name =>
    match registry.get? name with
    | none => [⟨formula, path, node.offset, .unknownOperator name⟩]
    | some operator =>
      (count operator node.args.length).map (⟨formula, path, node.offset, ·⟩) ++
        node.args.zipIdx.flatMap fun (arg, i) =>
          (argument registry vars operator.name i (operator.signature.constraintAt i) arg).map
            (⟨formula, path.child (i + 1), arg.offset, ·⟩)

/-- One node. A variable is looked up here only if it is the whole formula. -/
def node (formula : String) (registry : Registry) (vars : Option Variables)
    (place : Path × Node) : List Issue :=
  match place with
  | ([], .atom (.variable name) offset) =>
    (undeclared vars name).map (⟨formula, [], offset, ·⟩)
  | (path, n) => application formula registry vars path n

end Validation

/-- All that is wrong with a formula, each node before its children. Without variables, nothing is
    said about them. -/
def validate (formula : String) (registry : Registry) (vars : Option Variables)
    (f : Formula) : List Issue :=
  f.root.walk.flatMap (Validation.node formula registry vars)

end MissionScript

import MissionScript.Operator.Signature

/-!
The built-in operators, by what they do with their arguments: a query answers from their values and
changes nothing, an action changes something, and a control decides which arguments are evaluated.
-/

namespace MissionScript

/-- Operators that answer from the values of their arguments and change nothing. -/
inductive Query where
  | always
  | never
  | not
  | xor
  | isIndeterminate
  | add
  | subtract
  | multiply
  | divide
  | modulo
  | least
  | greatest
  | absolute
  | equal
  | less
  | greater
  | atMost
  | atLeast
  | notEqual
  | stringEquals
  | stringConcatenate
  | stringLength
  | numberToString
  | stringToNumber
  | missionTime
  | hasTimeElapsed
  | isDestroyed
  | hasDeparted
  | hasArrived
  | hitsLeft
  | shipExists
  | wingHasArrived
  | percentWingDestroyed
  | doNothing
  | isEventTrue
  | isEventFalse
  | isEventTrueDelay
  | isGoalTrue
  | isGoalFalse
  deriving DecidableEq

/-- Operators that change the game, or ask for a change to a goal. -/
inductive Action where
  | random
  | sendMessage
  | spawnWing
  | selfDestruct
  | invalidateGoal
  | validateGoal
  deriving DecidableEq

/-- Operators that evaluate their arguments themselves. -/
inductive Control where
  | and
  | andInSequence
  | or
  | when
  | everyTime
  | ifThenElse
  | modifyVariable
  | variableIsSet
  deriving DecidableEq

/-- The built-in operators. -/
inductive Builtin where
  | query (q : Query)
  | action (a : Action)
  | control (c : Control)
  deriving DecidableEq

/-- What an operator is called, what it takes and gives, and what it is good for. -/
structure OperatorInfo where
  name : String
  signature : Signature
  description : String

/-- The signature of an operator without effects. -/
private def pureSignature (least : Nat) (most : Option Nat) (args : List Constraint)
    (returns : ReturnType) : Signature :=
  ⟨least, most, args, returns, ⟨false, false, false⟩⟩

/-- The definition of a query. -/
def Query.definition : Query → OperatorInfo
  | .always => ⟨"true", pureSignature 0 (some 0) [] .boolean, "Always true."⟩
  | .never => ⟨"false", pureSignature 0 (some 0) [] .boolean, "Always false."⟩
  | .not => ⟨"not", pureSignature 1 (some 1) [.boolean] .boolean,
      "Logical negation; settled inputs stay settled."⟩
  | .xor => ⟨"xor", pureSignature 2 (some 2) [.boolean] .boolean,
      "True when exactly one argument is true."⟩
  | .isIndeterminate => ⟨"is-indeterminate", ⟨1, some 1, [.any], .boolean, ⟨false, true, false⟩⟩,
      "True when the argument could not be resolved."⟩
  | .add => ⟨"+", pureSignature 1 none [.number] .number, "Sum of the arguments."⟩
  | .subtract => ⟨"-", pureSignature 1 none [.number] .number,
      "First argument minus the rest; negation with one argument."⟩
  | .multiply => ⟨"*", pureSignature 1 none [.number] .number, "Product of the arguments."⟩
  | .divide => ⟨"/", pureSignature 2 none [.number] .number,
      "First argument divided by each of the rest."⟩
  | .modulo => ⟨"mod", pureSignature 2 (some 2) [.number] .number,
      "Remainder of the first argument divided by the second."⟩
  | .least => ⟨"min", pureSignature 1 none [.number] .number, "Smallest argument."⟩
  | .greatest => ⟨"max", pureSignature 1 none [.number] .number, "Largest argument."⟩
  | .absolute => ⟨"abs", pureSignature 1 (some 1) [.number] .number, "Absolute value."⟩
  | .equal => ⟨"=", pureSignature 2 none [.number] .boolean,
      "True when the first argument equals every other."⟩
  | .less => ⟨"<", pureSignature 2 none [.number] .boolean,
      "True when the first argument is less than every other."⟩
  | .greater => ⟨">", pureSignature 2 none [.number] .boolean,
      "True when the first argument is greater than every other."⟩
  | .atMost => ⟨"<=", pureSignature 2 none [.number] .boolean,
      "True when the first argument is at most every other."⟩
  | .atLeast => ⟨">=", pureSignature 2 none [.number] .boolean,
      "True when the first argument is at least every other."⟩
  | .notEqual => ⟨"!=", pureSignature 2 none [.number] .boolean,
      "True when the first argument differs from every other."⟩
  | .stringEquals => ⟨"string-equals", pureSignature 2 none [.string] .boolean,
      "True when every argument equals the first, case-sensitively."⟩
  | .stringConcatenate => ⟨"string-concatenate", pureSignature 2 none [.string] .string,
      "Arguments joined in order."⟩
  | .stringLength => ⟨"string-length", pureSignature 1 (some 1) [.string] .number,
      "Length in characters."⟩
  | .numberToString => ⟨"number-to-string", pureSignature 1 (some 1) [.number] .string,
      "Decimal text of a number."⟩
  | .stringToNumber => ⟨"string-to-number", pureSignature 1 (some 1) [.string] .number,
      "Parses decimal text; unparsable text is unknown."⟩
  | .missionTime => ⟨"mission-time", pureSignature 0 (some 0) [] .number,
      "Seconds since the mission started."⟩
  | .hasTimeElapsed => ⟨"has-time-elapsed", pureSignature 1 (some 1) [.number] .boolean,
      "True once the mission clock reaches the argument."⟩
  | .isDestroyed => ⟨"is-destroyed", pureSignature 1 none [.ship] .boolean,
      "True when every named ship was destroyed; settled false if one departed."⟩
  | .hasDeparted => ⟨"has-departed", pureSignature 1 none [.ship] .boolean,
      "True when every named ship departed; settled false if one was destroyed."⟩
  | .hasArrived => ⟨"has-arrived", pureSignature 1 none [.ship] .boolean,
      "True once every named ship has entered the mission."⟩
  | .hitsLeft => ⟨"hits-left", pureSignature 1 (some 1) [.ship] .number,
      "Remaining hull percentage of a ship in the mission."⟩
  | .shipExists => ⟨"ship-exists", pureSignature 1 (some 1) [.ship] .boolean,
      "True while the ship is present in the mission."⟩
  | .wingHasArrived => ⟨"wing-has-arrived", pureSignature 1 (some 1) [.wing] .boolean,
      "True once any ship of the wing has arrived."⟩
  | .percentWingDestroyed => ⟨"percent-wing-destroyed", pureSignature 1 (some 1) [.wing] .number,
      "Percentage of the wing's ships destroyed so far."⟩
  | .doNothing => ⟨"do-nothing", pureSignature 0 (some 0) [] .action, "Placeholder action."⟩
  | .isEventTrue => ⟨"is-event-true", pureSignature 1 (some 1) [.string] .boolean,
      "True once the named event has fired."⟩
  | .isEventFalse => ⟨"is-event-false", pureSignature 1 (some 1) [.string] .boolean,
      "True once the named event can no longer fire."⟩
  | .isEventTrueDelay =>
    ⟨"is-event-true-delay", pureSignature 2 (some 2) [.string, .number] .boolean,
      "True once the named event fired at least the given seconds ago."⟩
  | .isGoalTrue => ⟨"is-goal-true", pureSignature 1 (some 1) [.string] .boolean,
      "True once the named goal is complete."⟩
  | .isGoalFalse => ⟨"is-goal-false", pureSignature 1 (some 1) [.string] .boolean,
      "True once the named goal has failed."⟩

/-- The definition of an action. -/
def Action.definition : Action → OperatorInfo
  | .random => ⟨"rand", ⟨2, some 2, [.number], .number, ⟨true, false, false⟩⟩,
      "Random integer between the two bounds, inclusive."⟩
  | .sendMessage => ⟨"send-message", ⟨2, some 2, [.string], .action, ⟨true, false, false⟩⟩,
      "Delivers a message from the named persona."⟩
  | .spawnWing => ⟨"spawn-wing", ⟨1, none, [.wing], .action, ⟨true, false, false⟩⟩,
      "Brings the named wings into the mission."⟩
  | .selfDestruct => ⟨"self-destruct", ⟨1, none, [.ship], .action, ⟨true, false, false⟩⟩,
      "Destroys the named ships that are present."⟩
  | .invalidateGoal => ⟨"invalidate-goal", ⟨1, none, [.string], .action, ⟨true, false, false⟩⟩,
      "Marks goals invalid from the next goal pass on."⟩
  | .validateGoal => ⟨"validate-goal", ⟨1, none, [.string], .action, ⟨true, false, false⟩⟩,
      "Marks goals valid again from the next goal pass on."⟩

/-- The definition of a control. -/
def Control.definition : Control → OperatorInfo
  | .and => ⟨"and", pureSignature 1 none [.boolean] .boolean,
      "True when every argument is true. Stops at the first false argument."⟩
  | .andInSequence => ⟨"and-in-sequence", pureSignature 1 none [.boolean] .boolean,
      "True once every argument has become true, in the order listed."⟩
  | .or => ⟨"or", pureSignature 1 none [.boolean] .boolean,
      "True when any argument is true. Stops at the first true argument."⟩
  | .when => ⟨"when", ⟨2, none, [.boolean, .any], .boolean, ⟨true, false, false⟩⟩,
      "Runs the remaining arguments when the first is true; returns the condition."⟩
  | .everyTime => ⟨"every-time", ⟨2, none, [.boolean, .any], .boolean, ⟨true, false, false⟩⟩,
      "Like when, but always returns false so the owning event keeps evaluating."⟩
  | .ifThenElse => ⟨"if-then-else", pureSignature 3 (some 3) [.boolean, .any, .any] .any,
      "Evaluates the second argument when the first is true, else the third."⟩
  | .modifyVariable =>
    ⟨"modify-variable", ⟨2, some 2, [.variable, .any], .action, ⟨true, false, false⟩⟩,
      "Stores the second argument into the variable named by the first."⟩
  | .variableIsSet => ⟨"variable-is-set", pureSignature 1 (some 1) [.variable] .boolean,
      "True when the variable no longer holds its default value."⟩

/-- The definition of a built-in operator. -/
def Builtin.definition : Builtin → OperatorInfo
  | .query q => q.definition
  | .action a => a.definition
  | .control c => c.definition

def Builtin.all : List Builtin :=
  [.query .always, .query .never, .control .and, .control .andInSequence, .control .or, .query .not,
    .query .xor, .control .when, .control .everyTime, .control .ifThenElse, .query .isIndeterminate,
    .query .add, .query .subtract, .query .multiply, .query .divide, .query .modulo, .query .least,
    .query .greatest, .query .absolute, .action .random,
    .query .equal, .query .less, .query .greater, .query .atMost, .query .atLeast, .query .notEqual,
    .query .stringEquals, .query .stringConcatenate, .query .stringLength, .query .numberToString,
    .query .stringToNumber,
    .query .missionTime, .query .hasTimeElapsed, .query .isDestroyed, .query .hasDeparted,
    .query .hasArrived, .query .hitsLeft, .query .shipExists, .query .wingHasArrived,
    .query .percentWingDestroyed, .action .sendMessage, .action .spawnWing, .action .selfDestruct,
    .action .invalidateGoal, .action .validateGoal, .query .doNothing,
    .query .isEventTrue, .query .isEventFalse, .query .isEventTrueDelay, .query .isGoalTrue,
    .query .isGoalFalse,
    .control .modifyVariable, .control .variableIsSet]

/-- No built-in operator is left out of the list. -/
theorem Builtin.mem_all (b : Builtin) : b ∈ all := by
  cases b with
  | query q => cases q <;> decide
  | action a => cases a <;> decide
  | control c => cases c <;> decide

end MissionScript

import MissionScript.Number.Layout
import MissionScript.Text.Quoted

/-!
What formulas evaluate to. A truth value is a number as well: two numbers stand for truths that
are settled for the rest of the mission.
-/

namespace MissionScript

/-- The reading of a value where a condition is expected. -/
inductive Truth where
  | trueNow
  | falseNow
  /-- true, and it stays true for the rest of the mission -/
  | knownTrue
  /-- false, and it stays false for the rest of the mission -/
  | knownFalse
  | unknown
  deriving DecidableEq, Repr

/-- The result of evaluating a formula or a part of it. -/
inductive Value where
  | number (x : Float)
  | text (s : String)
  /-- what is asked for could not be found, or evaluating it failed -/
  | unknown
  deriving DecidableEq

namespace Truth

/-- Whether a condition holds. -/
def isTrue : Truth → Bool
  | .trueNow | .knownTrue => true
  | _ => false

/-- Whether a condition can never change again. -/
def isSettled : Truth → Bool
  | .knownTrue | .knownFalse => true
  | _ => false

/-- The opposite of a condition, settled if the condition is. -/
def negate : Truth → Truth
  | .trueNow => .falseNow
  | .falseNow => .trueNow
  | .knownTrue => .knownFalse
  | .knownFalse => .knownTrue
  | .unknown => .unknown

/-- The truth value of an answer that may still change. -/
def ofBool (b : Bool) : Truth :=
  if b then .trueNow else .falseNow

/-- The value that stands for a condition. -/
def toValue : Truth → Value
  | .trueNow => .number 1
  | .falseNow => .number 0
  | .knownTrue => .number (-32766)
  | .knownFalse => .number (-32767)
  | .unknown => .unknown

@[simp] theorem negate_negate (t : Truth) : t.negate.negate = t := by
  cases t <;> rfl

@[simp] theorem isSettled_negate (t : Truth) : t.negate.isSettled = t.isSettled := by
  cases t <;> rfl

end Truth

namespace Value

/-- The value of an answer that may still change. -/
def bool (b : Bool) : Value :=
  (Truth.ofBool b).toValue

/-- A value as a condition: zero is false, any other number is true, and a text is false. -/
def truth : Value → Truth
  | .number x =>
    if x.isNaN then .unknown
    else if x == 0 then .falseNow
    else if x == -32767 then .knownFalse
    else if x == -32766 then .knownTrue
    else .trueNow
  | .text _ => .falseNow
  | .unknown => .unknown

/-- Whether a value holds as a condition. -/
def isTrue (v : Value) : Bool :=
  v.truth.isTrue

/-- Whether a value says nothing. -/
def isUnknown (v : Value) : Bool :=
  v.truth == .unknown

/-- The number of a value. -/
def number? : Value → Option Float
  | .number x => some x
  | _ => none

/-- The text of a value. -/
def text? : Value → Option String
  | .text s => some s
  | _ => none

/-- The word for the kind of a value. -/
def kind : Value → String
  | .number _ => "number"
  | .text _ => "string"
  | .unknown => "unknown"

/-- Equality of values, where numbers are compared as numbers: the two zeros are equal, and what is
    no number differs from itself. -/
def equals : Value → Value → Bool
  | .number x, .number y => x == y
  | .text s, .text t => s == t
  | .unknown, .unknown => true
  | _, _ => false

/-- A value as it is shown to a reader. -/
def shown : Value → String
  | .number x => showNumber x
  | .text s => Text.showQuoted s
  | .unknown => "<unknown>"

@[simp] theorem isUnknown_unknown : Value.unknown.isUnknown = true := rfl

@[simp] theorem isUnknown_text (s : String) : (Value.text s).isUnknown = false := rfl

/-- The value of a condition reads back as the condition. -/
@[simp] theorem truth_toValue (t : Truth) : t.toValue.truth = t := by
  cases t <;> decide +kernel

@[simp] theorem truth_bool (b : Bool) : (bool b).truth = Truth.ofBool b :=
  truth_toValue _

theorem isUnknown_number {x : Float} (hx : x.isNaN = false) : (number x).isUnknown = false := by
  have htruth : (number x).truth ≠ .unknown := by
    rw [truth, hx]
    split
    · simp_all
    · split
      · simp
      · split
        · simp
        · split <;> simp
  simpa [isUnknown] using htruth

theorem isUnknown_toValue {t : Truth} (h : t ≠ .unknown) : t.toValue.isUnknown = false := by
  rw [isUnknown, truth_toValue]
  simpa using h

end Value

end MissionScript

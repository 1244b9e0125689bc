import MissionScript.Variable.Basic
import MissionScript.Table

/-!
The variables of a mission, filed under their folded names. An operation that fails changes
nothing: it gives no new store.
-/

namespace MissionScript

/-- Variables under their folded names. -/
abbrev Variables := Table String Variable

namespace Variables

/-- The variable of a name. -/
def get? (vs : Variables) (name : String) : Option Variable :=
  vs.find? (foldName name)

/-- Whether a name is declared. -/
def declares (vs : Variables) (name : String) : Bool :=
  vs.contains (foldName name)

/-- Declares a variable. A second declaration of the same type only changes the initial value and
    the scope. -/
def declare (vs : Variables) (name : String) (type : VariableType) (initial : Stored)
    (scope : Scope) : Except VariableError Variables :=
  if initial.type ≠ type then .error (.typeMismatch name type initial.type.word)
  else
    match vs.get? name with
    | none => .ok (vs.insert (foldName name) ⟨name, type, initial, initial, scope⟩)
    | some v =>
      if v.type ≠ type then .error (.redeclared name v.type)
      else .ok (vs.modify (foldName name) fun v => { v with initial, scope })

/-- Gives a declared variable a value of its type. -/
def set (vs : Variables) (name : String) (value : Stored) : Except VariableError Variables :=
  match vs.get? name with
  | none => .error (.undeclared name)
  | some v =>
    if v.type ≠ value.type then .error (.typeMismatch v.name v.type value.type.word)
    else .ok (vs.modify (foldName name) fun v => { v with value })

/-- Gives a declared variable the value that a formula evaluated to. -/
def setValue (vs : Variables) (name : String) (value : Value) : Except VariableError Variables :=
  match Stored.ofValue? value with
  | some stored => vs.set name stored
  | none =>
    match vs.get? name with
    | none => .error (.undeclared name)
    | some v => .error (.typeMismatch v.name v.type value.kind)

/-- Gives every variable its initial value. -/
def reset (vs : Variables) : Variables :=
  vs.map fun v => { v with value := v.initial }

end Variables

/-- What becomes of a saved value when a mission starts. -/
inductive Overlay where
  /-- there is no variable for it, or none that outlives a mission -/
  | skipped
  | typeMismatch (declared : VariableType)
  | invalidText
  | applied (value : Stored)

/-- A saved value that could not be used. -/
inductive OverlayFault where
  | typeMismatch (name : String) (declared saved : VariableType)
  | invalidText (name text : String)
  deriving DecidableEq

namespace Variables

/-- What becomes of a saved value. -/
def overlay (vs : Variables) (saved : Saved) : Overlay :=
  match vs.get? saved.name with
  | none => .skipped
  | some v =>
    if !v.scope.isPersistent then .skipped
    else if v.type ≠ saved.type then .typeMismatch v.type
    else
      match Stored.ofText? saved.type saved.text with
      | none => .invalidText
      | some value => .applied value

/-- Starts variables from saved values, one after the other. Counts those that were used, and
    reports those that were not although there is a variable for them. -/
def applySaved (vs : Variables) : List Saved → Variables × Nat × List OverlayFault
  | [] => (vs, 0, [])
  | saved :: rest =>
    match vs.overlay saved with
    | .skipped => vs.applySaved rest
    | .typeMismatch declared =>
      let (vs, count, faults) := vs.applySaved rest
      (vs, count, .typeMismatch saved.name declared saved.type :: faults)
    | .invalidText =>
      let (vs, count, faults) := vs.applySaved rest
      (vs, count, .invalidText saved.name saved.text :: faults)
    | .applied value =>
      let (vs, count, faults) :=
        Variables.applySaved
          (vs.modify (foldName saved.name) fun v => { v with value, initial := value }) rest
      (vs, count + 1, faults)

/-- What is saved of a variable. -/
def save (v : Variable) : Saved :=
  ⟨v.name, v.type, v.value.text⟩

/-- What is saved of the variables of a scope, sorted by name. -/
def saved (vs : Variables) (scope : Scope) : List Saved :=
  ((vs.values.filter fun v => v.scope == scope && scope.isPersistent).map save).mergeSort
    fun a b => decide (a.name ≤ b.name)

/-- The end of a mission: what is saved, and the variables that stay. -/
def endMission (vs : Variables) : Snapshot × Variables :=
  (⟨vs.saved .player, vs.saved .campaign⟩, vs.filter fun v => v.scope.isPersistent)

end Variables

end MissionScript

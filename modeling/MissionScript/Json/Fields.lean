import MissionScript.Json.Basic

/-!
Reading records out of JSON. A record is an object whose members are its fields, in any order and
among others, or an array of its fields in their order.
-/

namespace MissionScript.Json

/-- The number of a value. -/
def float? : Json → Option Float
  | .int n => some (Float.ofInt n)
  | .float x => some x
  | _ => none

/-- The whole number of a value, from `low` to `high`. -/
def int? (low high : Int) : Json → Option Int
  | .int n => if low ≤ n ∧ n ≤ high then some n else none
  | _ => none

/-- The whole number of a value, without a sign and of so many bits. -/
def nat? (bits : Nat) (value : Json) : Option Nat :=
  (value.int? 0 (Nat.pow 2 bits - 1 : Nat)).map Int.toNat

/-- The whole number of a value, with a sign and of so many bits. -/
def signed? (bits : Nat) (value : Json) : Option Int :=
  value.int? (-Nat.pow 2 (bits - 1)) (Nat.pow 2 (bits - 1) - 1 : Nat)

/-- The text of a value. -/
def str? : Json → Option String
  | .str s => some s
  | _ => none

/-- The truth value of a value. -/
def bool? : Json → Option Bool
  | .bool b => some b
  | _ => none

/-- The items of an array, each read in the same way. -/
def list? {α : Type} (item? : Json → Option α) : Json → Option (List α)
  | .arr items => items.mapM item?
  | _ => none

def word? : Json → Option String
  | .str s => some s
  | .obj [(word, .null)] => some word
  | _ => none

/-- One of several choices by its word. -/
def choice? {α : Type} (word : α → String) (choices : List α) (value : Json) : Option α :=
  value.word?.bind fun w => choices.find? (word · == w)

/-- The fields of a record that are present. -/
structure Fields where
  /-- whether they are given by name -/
  named : Bool
  present : List (String × Json)

/-- The fields of a record. A field given twice is refused, and so is an item too many. -/
def fields? (names : List String) : Json → Option Fields
  | .obj members =>
    let known := members.filter fun member => names.contains member.1
    if (known.map (·.1)).Nodup then some ⟨true, known⟩ else none
  | .arr items => if items.length ≤ names.length then some ⟨false, names.zip items⟩ else none
  | _ => none

namespace Fields

/-- A field that must be present. -/
def required {α : Type} (f : Fields) (name : String) (value? : Json → Option α) : Option α :=
  (f.present.lookup name).bind value?

/-- A field that may be absent. -/
def optional {α : Type} (f : Fields) (name : String) (default : α) (value? : Json → Option α) :
    Option α :=
  match f.present.lookup name with
  | none => some default
  | some value => value? value

/-- A value that may be null. -/
def orNull {α : Type} (value? : Json → Option α) : Json → Option (Option α)
  | .null => some none
  | value => (value? value).map some

/-- A field that may be null; given by name, it may also be absent. -/
def nullable {α : Type} (f : Fields) (name : String) (value? : Json → Option α) :
    Option (Option α) :=
  match f.present.lookup name with
  | none => if f.named then some none else none
  | some value => orNull value? value

end Fields

end MissionScript.Json

import MissionScript.Operator.Builtin
import MissionScript.Formula.Lexeme
import MissionScript.Table
import MissionScript.Name

/-!
The operators that formulas may use. Operators can be added and never removed or replaced, and two
spellings of a name cannot stand for two operators. They are found through an index of their places.
-/

namespace MissionScript

/-- What a scripted operator answers, whatever its arguments are. -/
inductive Reply where
  | fail (reason : String)
  /-- the number of its arguments -/
  | count
  /-- the formula and the path where it is applied -/
  | place
  | give (v : Value)

/-- How an operator is applied. -/
inductive Behaviour where
  | builtin (b : Builtin)
  /-- a fixed answer, after the arguments have been evaluated -/
  | scripted (isLazy : Bool) (reply : Reply)

/-- Whether an operator evaluates its arguments itself. -/
def Behaviour.isLazy : Behaviour → Bool
  | .builtin (.control _) => true
  | .builtin _ => false
  | .scripted isLazy _ => isLazy

/-- A registered operator. -/
structure Operator where
  name : String
  signature : Signature
  behaviour : Behaviour
  description : String

/-- The operator of what is given for it. Whether it is lazy is told by how it is applied, whatever the
    signature says. -/
def Operator.define (name : String) (signature : Signature) (behaviour : Behaviour)
    (description : String) : Operator :=
  ⟨name, { signature with flags := { signature.flags with isLazy := behaviour.isLazy } }, behaviour,
    description⟩

/-- Why an operator cannot be registered. -/
inductive RegistryError where
  | duplicate (name : String)
  | invalidName (name : String)
  deriving DecidableEq

def RegistryError.message : RegistryError → String
  | .duplicate name => s!"operator '{name}' is already registered"
  | .invalidName name => s!"operator name '{name}' is not a valid bare token"

/-- Whether a name can stand at the head of a list. -/
def isOperatorName (name : List Char) : Bool :=
  !name.isEmpty && name.head? != some '@' && name.all isBareChar

/-- Operators in the order in which they were registered, beside an index of the place of each in that
    order under its folded name. -/
structure OperatorTable where
  values : List Operator
  index : Table String Nat

namespace OperatorTable

/-- The table without operators. -/
def empty : OperatorTable :=
  ⟨[], .empty⟩

/-- The folded names of the operators, in order. -/
def names (t : OperatorTable) : List String :=
  t.values.map fun o => foldName o.name

/-- The operator at the place that the index has for a name. -/
def get? (t : OperatorTable) (name : String) : Option Operator :=
  (t.index.find? (foldName name)).bind fun place => t.values[place]?

/-- Whether the index has a place for a name. -/
def has (t : OperatorTable) (name : String) : Bool :=
  t.index.contains (foldName name)

/-- Puts an operator at the end, and its place into the index. -/
def add (t : OperatorTable) (o : Operator) : OperatorTable :=
  ⟨t.values ++ [o], t.index.insert (foldName o.name) t.values.length⟩

/-- Registers an operator: what comes of it, and the table that is left. -/
def register (t : OperatorTable) (name : String) (signature : Signature) (behaviour : Behaviour)
    (description : String) : Except RegistryError Unit × OperatorTable :=
  if !isOperatorName name.toList then (.error (.invalidName name), t)
  else if t.has name then (.error (.duplicate name), t)
  else (.ok (), t.add (.define name signature behaviour description))

/-- Whether the index has every operator's folded name with its place, and no other name. -/
def IsIndexed (t : OperatorTable) : Prop :=
  ∀ key place, t.index.find? key = some place ↔ t.names[place]? = some key

theorem isIndexed_empty : IsIndexed .empty := by
  intro key place
  simp [empty, names]

theorem names_add (t : OperatorTable) (o : Operator) :
    (t.add o).names = t.names ++ [foldName o.name] := by
  simp [add, names]

theorem getElem?_names_add (t : OperatorTable) (o : Operator) (key : String) (place : Nat) :
    (t.add o).names[place]? = some key ↔
      t.names[place]? = some key ∨ place = t.values.length ∧ foldName o.name = key := by
  have hlength : t.names.length = t.values.length := List.length_map _
  rw [names_add, ← hlength]
  rcases Nat.lt_trichotomy place t.names.length with hlt | rfl | hgt
  · rw [List.getElem?_append_left hlt]
    exact ⟨Or.inl, fun h => h.resolve_right fun h => Nat.ne_of_lt hlt h.1⟩
  · simp
  · have hnone : t.names[place]? = none := List.getElem?_eq_none (Nat.le_of_lt hgt)
    have hnone' : (t.names ++ [foldName o.name])[place]? = none := by
      apply List.getElem?_eq_none
      rw [List.length_append]
      exact hgt
    simp [hnone, hnone', Nat.ne_of_gt hgt]

theorem IsIndexed.add {t : OperatorTable} (h : t.IsIndexed) {o : Operator}
    (hnew : t.has o.name = false) : (t.add o).IsIndexed := by
  intro key place
  have hfind : (t.add o).index.find? key =
      if key = foldName o.name then some t.values.length else t.index.find? key :=
    Table.find?_insert ..
  rw [hfind, getElem?_names_add, ← h key place]
  by_cases hkey : key = foldName o.name
  · -- the name is nowhere yet, so that no other place of it is lost
    subst hkey
    have hnone : t.index.find? (foldName o.name) = none := by
      simpa [has, Table.contains] using hnew
    simp [hnone, eq_comm]
  · simp [hkey, Ne.symm hkey]

/-- All that can come of registering an operator. -/
theorem register_cases (t : OperatorTable) (name : String) (signature : Signature)
    (behaviour : Behaviour) (description : String) :
    (isOperatorName name.toList = false ∧
      t.register name signature behaviour description = (.error (.invalidName name), t)) ∨
    (isOperatorName name.toList = true ∧ t.has name = true ∧
      t.register name signature behaviour description = (.error (.duplicate name), t)) ∨
    (isOperatorName name.toList = true ∧ t.has name = false ∧
      t.register name signature behaviour description =
        (.ok (), t.add (.define name signature behaviour description))) := by
  unfold register
  cases isOperatorName name.toList with
  | false => exact Or.inl ⟨rfl, rfl⟩
  | true =>
    cases hhas : t.has name with
    | true => exact Or.inr (Or.inl ⟨rfl, rfl, rfl⟩)
    | false => exact Or.inr (Or.inr ⟨rfl, rfl, rfl⟩)

theorem IsIndexed.register {t : OperatorTable} (h : t.IsIndexed) (name : String)
    (signature : Signature) (behaviour : Behaviour) (description : String) :
    (t.register name signature behaviour description).2.IsIndexed := by
  rcases t.register_cases name signature behaviour description with
    ⟨-, hmade⟩ | ⟨-, -, hmade⟩ | ⟨-, hnew, hmade⟩
  · rw [hmade]
    exact h
  · rw [hmade]
    exact h
  · rw [hmade]
    exact h.add hnew

end OperatorTable

/-- A table of operators whose index is in step with them. -/
structure Registry extends OperatorTable where
  indexed : toOperatorTable.IsIndexed

namespace Registry

/-- The registry without operators. -/
def empty : Registry :=
  ⟨.empty, OperatorTable.isIndexed_empty⟩

/-- Registers an operator. -/
def register (r : Registry) (name : String) (signature : Signature) (behaviour : Behaviour)
    (description : String) : Except RegistryError Registry :=
  let made := r.toOperatorTable.register name signature behaviour description
  made.1.map fun () => ⟨made.2, r.indexed.register name signature behaviour description⟩

/-- Registers a built-in operator, unless its name is taken. -/
def registerBuiltin (r : Registry) (b : Builtin) : Registry :=
  let d := b.definition
  match r.register d.name d.signature (.builtin b) d.description with
  | .ok r => r
  | .error _ => r

/-- The registry of all built-in operators. -/
def builtin : Registry :=
  Builtin.all.foldl registerBuiltin .empty

end Registry

end MissionScript

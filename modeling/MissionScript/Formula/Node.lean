import MissionScript.Formula.Path

/-!
Formulas as trees. A list applies the operator at its head to the arguments after it. Each node
knows where its first character stands in the text that it was read from.
-/

namespace MissionScript

/-- A node without children. -/
inductive Atom where
  /-- the name of an operator, at the head of a list -/
  | operator (name : String)
  | number (x : Float)
  | text (s : String)
  /-- a variable, without the sign before its name -/
  | variable (name : String)
  deriving DecidableEq

/-- A node of a formula. An offset counts the bytes before the node. -/
inductive Node where
  | atom (a : Atom) (offset : Nat)
  | list (children : List Node) (offset : Nat)
  deriving Inhabited

/-- The word for the kind of an atom. -/
def Atom.kind : Atom → String
  | .operator _ => "operator"
  | .number _ => "number"
  | .text _ => "string"
  | .variable _ => "variable"

/-- Equality of atoms, where numbers are compared as numbers. -/
def Atom.equals : Atom → Atom → Bool
  | .operator a, .operator b => a == b
  | .number x, .number y => x == y
  | .text s, .text t => s == t
  | .variable a, .variable b => a == b
  | _, _ => false

namespace Node

/-- Where a node begins. -/
def offset : Node → Nat
  | .atom _ offset => offset
  | .list _ offset => offset

/-- The children of a node; the head of a list is the first of them. -/
def children : Node → List Node
  | .atom .. => []
  | .list children _ => children

/-- The name of the operator that a row of nodes begins with. -/
def headName? : List Node → Option String
  | .atom (.operator name) _ :: _ => some name
  | _ => none

/-- The name of the operator that a node applies. -/
def operator? (n : Node) : Option String :=
  headName? n.children

/-- The arguments that a node applies its operator to. -/
def args (n : Node) : List Node :=
  n.children.tail

/-- The name of the variable that a node is. -/
def variableName? : Node → Option String
  | .atom (.variable name) _ => some name
  | _ => none

/-- The word for the kind of a node. -/
def kind : Node → String
  | .atom a _ => a.kind
  | .list .. => "list"

/-- The node at the end of a path. -/
def at? (n : Node) : Path → Option Node
  | [] => some n
  | i :: rest => (n.children[i]?).bind (·.at? rest)

/-- The deepest application on a path, and its operator. Steps that lead nowhere are left out. -/
def enclosing? (n : Node) : Path → Option (Path × String)
  | [] => n.operator?.map ([], ·)
  | i :: rest =>
    match (n.children[i]?).bind (·.enclosing? rest) with
    | some (path, name) => some (i :: path, name)
    | none => n.operator?.map ([], ·)

mutual

/-- Whether two nodes are the same but for their offsets. -/
def equivalent : Node → Node → Bool
  | .atom a _, .atom b _ => a.equals b
  | .list xs _, .list ys _ => equivalentAll xs ys
  | _, _ => false

/-- Whether two rows of nodes are the same but for their offsets. -/
def equivalentAll : List Node → List Node → Bool
  | [], [] => true
  | x :: xs, y :: ys => x.equivalent y && equivalentAll xs ys
  | _, _ => false

end

mutual

/-- The number of nodes on the longest way down. -/
def depth : Node → Nat
  | .atom .. => 1
  | .list children _ => depthAll children + 1

/-- The greatest depth in a row of nodes. -/
def depthAll : List Node → Nat
  | [] => 0
  | n :: rest => max n.depth (depthAll rest)

end

mutual

/-- All nodes with their paths, each before its children. -/
def walkFrom (path : Path) : Node → List (Path × Node)
  | .atom a offset => [(path, .atom a offset)]
  | .list children offset => (path, .list children offset) :: walkAll path 0 children

/-- All nodes of the children of a node, from the child of an index on. -/
def walkAll (path : Path) (index : Nat) : List Node → List (Path × Node)
  | [] => []
  | n :: rest => walkFrom (path.child index) n ++ walkAll path (index + 1) rest

end

/-- All nodes with their paths from here, each before its children. -/
def walk (n : Node) : List (Path × Node) :=
  walkFrom [] n

@[simp] theorem at?_nil (n : Node) : n.at? [] = some n := by
  cases n <;> rfl

theorem at?_child (root : Node) (path : Path) (i : Nat) :
    root.at? (path.child i) = (root.at? path).bind fun n => n.children[i]? := by
  induction path generalizing root with
  | nil =>
    rw [at?_nil, Option.bind_some]
    cases h : root.children[i]? with
    | none => simp [Path.child, at?, h]
    | some n => simp [Path.child, at?, h]
  | cons j rest ih =>
    have hpath : Path.child (j :: rest) i = j :: Path.child rest i := rfl
    rw [hpath, at?, at?]
    cases root.children[j]? with
    | none => rfl
    | some n => exact ih n

end Node

/-- The head of a list that no registered operator has, and where it stands. -/
structure Unresolved where
  name : String
  offset : Nat
  deriving DecidableEq

/-- A formula as it was read. -/
structure Formula where
  root : Node
  /-- the heads that were let through without being registered, in order -/
  unresolved : List Unresolved
  deriving Inhabited

end MissionScript

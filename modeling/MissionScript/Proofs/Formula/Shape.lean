import MissionScript.Formula.Parsing
import MissionScript.Formula.Printing

/-!
The shape of a formula: what is left of it when the offsets are forgotten. Which shapes a reader
lets through depends on the operators it knows and on how many lists may be open at a time.
-/

namespace MissionScript

namespace Node

mutual

/-- The same node, with all offsets forgotten. -/
def shape : Node → Node
  | .atom a _ => .atom a 0
  | .list children _ => .list (shapeAll children) 0

/-- The same row of nodes, with all offsets forgotten. -/
def shapeAll : List Node → List Node
  | [] => []
  | n :: rest => n.shape :: shapeAll rest

end

mutual

/-- How many lists are inside each other. -/
def nesting : Node → Nat
  | .atom .. => 0
  | .list children _ => nestingAll children + 1

/-- The greatest nesting in a row of nodes. -/
def nestingAll : List Node → Nat
  | [] => 0
  | n :: rest => max n.nesting (nestingAll rest)

end

/-- The name at the head of a row of nodes, if it is not registered. -/
def unknownHead (known : String → Bool) (children : List Node) : List String :=
  (headName? children).toList.filter fun name => !known name

mutual

/-- The heads that are not registered, in the order in which they are written. -/
def unknownHeads (known : String → Bool) : Node → List String
  | .atom .. => []
  | .list children _ => unknownHead known children ++ unknownHeadsAll known children

/-- The heads that are not registered in a row of nodes. -/
def unknownHeadsAll (known : String → Bool) : List Node → List String
  | [] => []
  | n :: rest => n.unknownHeads known ++ unknownHeadsAll known rest

end

/-- Whether a text can be written as one bare word. -/
def IsBareWord (word : List Char) : Prop :=
  word ≠ [] ∧ ∀ c ∈ word, isBareChar c = true

/-- Whether a name can stand at the head of a list. -/
structure IsHead (known : String → Bool) (options : ParseOptions) (name : String) : Prop where
  isBareWord : IsBareWord name.toList
  isOperatorWord : isOperatorWord name.toList = true
  allowed : known name = true ∨ options.allowUnknown = true

/-- The trees that can be formulas over the operators that are `known`, however deep they are. -/
inductive WellFormed (known : String → Bool) (options : ParseOptions) : Node → Prop where
  | number {x : Float} (offset : Nat) (hfinite : x.isFinite = true) :
    WellFormed known options (.atom (.number x) offset)
  | text (s : String) (offset : Nat) : WellFormed known options (.atom (.text s) offset)
  | variable {name : String} (offset : Nat) (hname : IsBareWord name.toList) :
    WellFormed known options (.atom (.variable name) offset)
  | list {name : String} {args : List Node} (headOffset offset : Nat)
    (hhead : IsHead known options name) (hargs : ∀ n ∈ args, WellFormed known options n) :
    WellFormed known options (.list (.atom (.operator name) headOffset :: args) offset)

theorem shapeAll_eq_map (nodes : List Node) : shapeAll nodes = nodes.map shape := by
  induction nodes with
  | nil => rfl
  | cons n rest ih => rw [shapeAll, ih, List.map_cons]

theorem nestingAll_le_iff {nodes : List Node} {limit : Nat} :
    nestingAll nodes ≤ limit ↔ ∀ n ∈ nodes, n.nesting ≤ limit := by
  induction nodes with
  | nil => simp [nestingAll]
  | cons n rest ih => rw [nestingAll, Nat.max_le, ih, List.forall_mem_cons]

theorem nestingAll_reverse (nodes : List Node) : nestingAll nodes.reverse = nestingAll nodes := by
  have hle (nodes : List Node) : nestingAll nodes.reverse ≤ nestingAll nodes :=
    nestingAll_le_iff.2 fun n hn => nestingAll_le_iff.1 (Nat.le_refl _) n (List.mem_reverse.1 hn)
  have hge := hle nodes.reverse
  rw [List.reverse_reverse] at hge
  exact Nat.le_antisymm (hle nodes) hge

theorem nesting_application (name : String) (headOffset offset : Nat) (args : List Node) :
    (list (atom (.operator name) headOffset :: args) offset).nesting = nestingAll args + 1 := by
  rw [nesting, nestingAll, nesting, Nat.zero_max]

mutual

/-- Nodes of one shape have one text. -/
theorem chars_shape (n : Node) : n.shape.chars = n.chars := by
  cases n with
  | atom a offset => rfl
  | list children offset =>
    cases children with
    | nil => rfl
    | cons n rest => rw [shape, shapeAll, chars, chars, chars_shape n, charsAfter_shapeAll rest]

theorem charsAfter_shapeAll (nodes : List Node) : charsAfter (shapeAll nodes) = charsAfter nodes := by
  cases nodes with
  | nil => rfl
  | cons n rest => rw [shapeAll, charsAfter, charsAfter, chars_shape n, charsAfter_shapeAll rest]

end

mutual

/-- Nodes of one shape are equally deep. -/
theorem nesting_shape (n : Node) : n.shape.nesting = n.nesting := by
  cases n with
  | atom a offset => rfl
  | list children offset => rw [shape, nesting, nesting, nestingAll_shapeAll children]

theorem nestingAll_shapeAll (nodes : List Node) : nestingAll (shapeAll nodes) = nestingAll nodes := by
  cases nodes with
  | nil => rfl
  | cons n rest =>
    rw [shapeAll, nestingAll, nestingAll, nesting_shape n, nestingAll_shapeAll rest]

end

theorem headName?_shapeAll (nodes : List Node) : headName? (shapeAll nodes) = headName? nodes := by
  rcases nodes with _ | ⟨⟨_ | _ | _ | _, _⟩ | _, _⟩ <;> rfl

mutual

/-- Nodes of one shape have the same unknown heads. -/
theorem unknownHeads_shape (known : String → Bool) (n : Node) :
    n.shape.unknownHeads known = n.unknownHeads known := by
  cases n with
  | atom a offset => rfl
  | list children offset =>
    rw [shape, unknownHeads, unknownHeads, unknownHeadsAll_shapeAll known children, unknownHead,
      unknownHead, headName?_shapeAll]

theorem unknownHeadsAll_shapeAll (known : String → Bool) (nodes : List Node) :
    unknownHeadsAll known (shapeAll nodes) = unknownHeadsAll known nodes := by
  cases nodes with
  | nil => rfl
  | cons n rest =>
    rw [shapeAll, unknownHeadsAll, unknownHeadsAll, unknownHeads_shape known n,
      unknownHeadsAll_shapeAll known rest]

end

end Node

end MissionScript

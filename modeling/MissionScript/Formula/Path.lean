/-!
Paths into a formula: which child to take at each step from the root.
-/

namespace MissionScript

/-- The way from the root of a formula to one of its nodes. -/
abbrev Path := List Nat

namespace Path

/-- The path of a child. -/
def child (p : Path) (i : Nat) : Path :=
  p ++ [i]

/-- The path of the node above, if there is one. -/
def parent? (p : Path) : Option Path :=
  if p.isEmpty then none else some p.dropLast

/-- A path as it is shown to a reader; the root is a single slash. -/
def shown : Path → String
  | [] => "/"
  | p => String.join (p.map fun i => "/" ++ toString i)

@[simp] theorem length_child (p : Path) (i : Nat) : (p.child i).length = p.length + 1 := by
  simp [child]

@[simp] theorem parent?_child (p : Path) (i : Nat) : (p.child i).parent? = some p := by
  simp [child, parent?]

end Path

end MissionScript

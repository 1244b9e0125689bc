import MissionScript.Formula.Node
import Mathlib.Data.List.Basic
import Mathlib.Data.List.Induction
import Mathlib.Tactic.Common

/-!
Paths and walks. A walk through a formula meets the node at the end of every path that leads somewhere,
in the order of the paths, and what encloses a path is found on the way down to its end.
-/

namespace MissionScript

namespace Node

/-- The name of the operator that is applied at the end of a path. -/
def operatorAt? (root : Node) (path : Path) : Option String :=
  (root.at? path).bind operator?

/-- Whether a part of a path is the longest one that leads to an application, and of which operator. -/
structure IsInnermost (root : Node) (path above : Path) (name : String) : Prop where
  onPath : above <+: path
  applies : root.operatorAt? above = some name
  longest : ∀ part, part <+: path → (root.operatorAt? part).isSome = true → part.length ≤ above.length

/-- Puts the children of the node at a path on a stack, the last one first. -/
def pushChildren (path : Path) (n : Node) (stack : List (Path × Node)) : List (Path × Node) :=
  n.children.zipIdx.foldr (fun (child, i) stack => (path.child i, child) :: stack) stack

/-- Whether a stack is worked off by visits: the topmost place is visited, and its children are put in
    its stead, until nothing is left. -/
inductive WorkedOff : List (Path × Node) → List (Path × Node) → Prop where
  | done : WorkedOff [] []
  | visit {path : Path} {n : Node} {stack visited : List (Path × Node)}
    (h : WorkedOff (n.pushChildren path stack) visited) :
    WorkedOff ((path, n) :: stack) ((path, n) :: visited)

/-! ### The places of a walk -/

mutual

theorem mem_walkFrom_iff (n : Node) (path : Path) (place : Path × Node) :
    place ∈ n.walkFrom path ↔ ∃ below, place.1 = path ++ below ∧ n.at? below = some place.2 := by
  have hself : place = (path, n) ↔ place.1 = path ++ [] ∧ n.at? [] = some place.2 := by
    rw [List.append_nil, at?_nil, Option.some.injEq, Prod.ext_iff, eq_comm (a := n)]
  cases n with
  | atom a offset =>
    rw [walkFrom, List.mem_singleton, hself]
    refine ⟨fun h => ⟨[], h⟩, ?_⟩
    rintro ⟨below, hpath, hat⟩
    cases below with
    | nil => exact ⟨hpath, hat⟩
    | cons i below => cases hat
  | list children offset =>
    rw [walkFrom, List.mem_cons, hself, mem_walkAll_iff children path 0 place]
    constructor
    · rintro (h | ⟨i, below, hpath, hat⟩)
      · exact ⟨[], h⟩
      · rw [Nat.zero_add] at hpath
        exact ⟨i :: below, hpath, hat⟩
    · rintro ⟨below, hpath, hat⟩
      cases below with
      | nil => exact Or.inl ⟨hpath, hat⟩
      | cons i below => exact Or.inr ⟨i, below, by rw [Nat.zero_add]; exact hpath, hat⟩

theorem mem_walkAll_iff (nodes : List Node) (path : Path) (index : Nat) (place : Path × Node) :
    place ∈ walkAll path index nodes ↔ ∃ i below, place.1 = path ++ (index + i) :: below ∧
      (nodes[i]?).bind (·.at? below) = some place.2 := by
  cases nodes with
  | nil => simp [walkAll]
  | cons n rest =>
    rw [walkAll, List.mem_append, mem_walkFrom_iff n _ place, mem_walkAll_iff rest path _ place]
    have hchild (below : Path) : path.child index ++ below = path ++ (index + 0) :: below :=
      List.append_assoc ..
    constructor
    · rintro (⟨below, hpath, hat⟩ | ⟨i, below, hpath, hat⟩)
      · exact ⟨0, below, hpath.trans (hchild below), hat⟩
      · exact ⟨i + 1, below, by rw [hpath, Nat.add_assoc, Nat.add_comm 1], hat⟩
    · rintro ⟨i, below, hpath, hat⟩
      cases i with
      | zero => exact Or.inl ⟨below, hpath.trans (hchild below).symm, hat⟩
      | succ i => exact Or.inr ⟨i, below, by rw [hpath, Nat.add_assoc, Nat.add_comm 1], hat⟩

end

/-- A walk meets every node that a path leads to, under this path, and no other. -/
theorem mem_walk_iff {root n : Node} {path : Path} : (path, n) ∈ root.walk ↔ root.at? path = some n := by
  rw [walk, mem_walkFrom_iff]
  constructor
  · rintro ⟨below, rfl, hat⟩
    exact hat
  · exact fun hat => ⟨path, rfl, hat⟩

mutual

theorem pairwise_walkFrom (n : Node) (path : Path) :
    ((n.walkFrom path).map (·.1)).Pairwise (· < ·) := by
  cases n with
  | atom a offset => exact List.pairwise_singleton _ _
  | list children offset =>
    rw [walkFrom, List.map_cons, List.pairwise_cons]
    refine ⟨fun p hp => ?_, pairwise_walkAll children path 0⟩
    obtain ⟨place, hplace, rfl⟩ := List.mem_map.1 hp
    obtain ⟨i, below, hpath, -⟩ := (mem_walkAll_iff ..).1 hplace
    have hbelow : path ++ [] < path ++ (0 + i) :: below := List.append_left_lt (List.nil_lt_cons _ _)
    rwa [List.append_nil, ← hpath] at hbelow

theorem pairwise_walkAll (nodes : List Node) (path : Path) (index : Nat) :
    ((walkAll path index nodes).map (·.1)).Pairwise (· < ·) := by
  cases nodes with
  | nil => exact .nil
  | cons n rest =>
    rw [walkAll, List.map_append, List.pairwise_append]
    refine ⟨pairwise_walkFrom n _, pairwise_walkAll rest path _, fun p hp q hq => ?_⟩
    obtain ⟨place, hplace, rfl⟩ := List.mem_map.1 hp
    obtain ⟨later, hlater, rfl⟩ := List.mem_map.1 hq
    obtain ⟨below, hpath, -⟩ := (mem_walkFrom_iff ..).1 hplace
    obtain ⟨i, below', hpath', -⟩ := (mem_walkAll_iff ..).1 hlater
    rw [hpath, hpath', Path.child, List.append_assoc, List.singleton_append]
    exact List.append_left_lt (List.cons_lt_cons_iff.2 (Or.inl (by omega)))

end

/-- A walk goes in the order of the paths, in which a node comes before what is below it, and that before
    the next child. -/
theorem pairwise_walk (root : Node) : (root.walk.map (·.1)).Pairwise (· < ·) :=
  pairwise_walkFrom root []

/-! ### Walks with a stack -/

mutual

theorem workedOff_walkFrom (n : Node) (path : Path) {stack visited : List (Path × Node)}
    (h : WorkedOff stack visited) :
    WorkedOff ((path, n) :: stack) (n.walkFrom path ++ visited) := by
  cases n with
  | atom a offset => exact .visit h
  | list children offset =>
    rw [walkFrom]
    exact .visit (workedOff_walkAll children path 0 h)

theorem workedOff_walkAll (nodes : List Node) (path : Path) (index : Nat)
    {stack visited : List (Path × Node)} (h : WorkedOff stack visited) :
    WorkedOff ((nodes.zipIdx index).foldr
      (fun (child, i) stack => (path.child i, child) :: stack) stack)
      (walkAll path index nodes ++ visited) := by
  cases nodes with
  | nil => exact h
  | cons n rest =>
    rw [List.zipIdx_cons, List.foldr_cons, walkAll, List.append_assoc]
    exact workedOff_walkFrom n _ (workedOff_walkAll rest path _ h)

end

theorem WorkedOff.unique {stack visited visited' : List (Path × Node)} (h : WorkedOff stack visited)
    (h' : WorkedOff stack visited') : visited = visited' := by
  induction h generalizing visited' with
  | done =>
    cases h'
    rfl
  | visit _ ih =>
    cases h' with
    | visit h' => rw [ih h']

/-- A stack that begins with the root is worked off in a walk, and in no other way. -/
theorem workedOff_iff {root : Node} {visited : List (Path × Node)} :
    WorkedOff [([], root)] visited ↔ visited = root.walk := by
  have hwalk := workedOff_walkFrom root [] .done
  rw [List.append_nil] at hwalk
  constructor
  · exact fun h => h.unique hwalk
  · rintro rfl
    exact hwalk

/-! ### What encloses a path -/

/-- The innermost application on a path is at its end, or else it is found from the node above. -/
theorem enclosing?_child (root : Node) (path : Path) (i : Nat) :
    root.enclosing? (path.child i) =
      ((root.operatorAt? (path.child i)).map (path.child i, ·)).or (root.enclosing? path) := by
  induction path generalizing root with
  | nil =>
    change root.enclosing? [i] = ((root.operatorAt? [i]).map ([i], ·)).or (root.operator?.map ([], ·))
    rw [enclosing?, operatorAt?, at?]
    cases root.children[i]? with
    | none => rfl
    | some n =>
      simp only [Option.bind_some, enclosing?, at?_nil]
      cases n.operator? <;> rfl
  | cons j rest ih =>
    change root.enclosing? (j :: Path.child rest i) =
      ((root.operatorAt? (j :: Path.child rest i)).map (j :: Path.child rest i, ·)).or
        (root.enclosing? (j :: rest))
    rw [enclosing?, enclosing?, operatorAt?, at?]
    cases root.children[j]? with
    | none => rfl
    | some n =>
      simp only [Option.bind_some]
      rw [ih n, operatorAt?]
      cases (n.at? (Path.child rest i)).bind operator? <;> rfl

/-- What is found is the innermost application on the path; nothing is found exactly if there is none. -/
theorem isInnermost_enclosing? (root : Node) (path : Path) :
    (∀ above name, root.enclosing? path = some (above, name) → root.IsInnermost path above name) ∧
      (root.enclosing? path = none → ∀ part, part <+: path → root.operatorAt? part = none) := by
  induction path using List.reverseRecOn with
  | nil =>
    have hroot : root.operatorAt? [] = root.operator? := by
      rw [operatorAt?, at?_nil, Option.bind_some]
    refine ⟨fun above name h => ?_, fun h part hpart => ?_⟩
    · obtain ⟨_, hname, hpair⟩ := Option.map_eq_some_iff.1 h
      cases hpair
      exact ⟨List.prefix_rfl, hroot.trans hname, fun part hpart _ => hpart.length_le⟩
    · rw [List.prefix_nil.1 hpart, hroot]
      exact Option.map_eq_none_iff.1 h
  | append_singleton path i ih =>
    have hstep := enclosing?_child root path i
    have hpart {part : Path} : part <+: path ++ [i] ↔ part = path ++ [i] ∨ part <+: path :=
      List.prefix_concat_iff
    rw [Path.child] at hstep
    rw [hstep]
    cases hend : root.operatorAt? (path ++ [i]) with
    | some name' =>
      refine ⟨?_, nofun⟩
      rintro above name ⟨⟩
      exact ⟨List.prefix_rfl, hend, fun part hpart _ => hpart.length_le⟩
    | none =>
      rw [Option.map_none, Option.none_or]
      refine ⟨fun above name h => ?_, fun h part hpart' => ?_⟩
      · obtain ⟨hon, happlies, hlongest⟩ := ih.1 above name h
        refine ⟨hon.trans (List.prefix_append ..), happlies, fun part hpart' hsome => ?_⟩
        rcases hpart.1 hpart' with rfl | hpart'
        · rw [hend] at hsome
          cases hsome
        · exact hlongest part hpart' hsome
      · rcases hpart.1 hpart' with rfl | hpart'
        · exact hend
        · exact ih.2 h part hpart'

theorem IsInnermost.unique {root : Node} {path above above' : Path} {name name' : String}
    (h : root.IsInnermost path above name) (h' : root.IsInnermost path above' name') :
    above = above' ∧ name = name' := by
  have hlength : above.length = above'.length :=
    Nat.le_antisymm (h'.longest above h.onPath (by rw [h.applies]; rfl))
      (h.longest above' h'.onPath (by rw [h'.applies]; rfl))
  obtain rfl : above = above' :=
    (List.prefix_of_prefix_length_le h.onPath h'.onPath (Nat.le_of_eq hlength)).eq_of_length hlength
  exact ⟨rfl, Option.some.inj (h.applies.symm.trans h'.applies)⟩

/-- Paths, walks and what encloses a path agree in every tree. A walk meets the node at the end of each
    path that leads somewhere, and no other node; the paths increase, so that every node is met once,
    before what is below it and after what is on its left; and a stack from which the topmost place is
    taken, to put its children there, is worked off in just this walk. What encloses a path, whether the
    path leads somewhere or not, is the application at the end of its longest part that leads to one,
    with its operator, and it is nothing exactly if no part leads to one. -/
theorem paths_agree (root : Node) :
    (∀ path n, (path, n) ∈ root.walk ↔ root.at? path = some n) ∧
    (root.walk.map (·.1)).Pairwise (· < ·) ∧
    (∀ visited, WorkedOff [([], root)] visited ↔ visited = root.walk) ∧
    ∀ path,
      (∀ above name, root.enclosing? path = some (above, name) ↔ root.IsInnermost path above name) ∧
      (root.enclosing? path = none ↔ ∀ part, part <+: path → root.operatorAt? part = none) := by
  refine ⟨fun path n => mem_walk_iff, pairwise_walk root, fun visited => workedOff_iff, fun path => ?_⟩
  obtain ⟨hfound, hnone⟩ := isInnermost_enclosing? root path
  refine ⟨fun above name => ⟨hfound above name, fun h => ?_⟩, hnone, fun h => ?_⟩
  · cases hpath : root.enclosing? path with
    | none =>
      have happlies := h.applies
      rw [hnone hpath above h.onPath] at happlies
      cases happlies
    | some place =>
      obtain ⟨rfl, rfl⟩ := (hfound place.1 place.2 hpath).unique h
      rfl
  · cases hpath : root.enclosing? path with
    | none => rfl
    | some place =>
      have hinner := hfound place.1 place.2 hpath
      have happlies := hinner.applies
      rw [h place.1 hinner.onPath] at happlies
      cases happlies

end Node

end MissionScript

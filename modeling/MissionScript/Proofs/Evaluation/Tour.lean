import MissionScript.Evaluation.Env
import Mathlib.Data.List.Basic
import Mathlib.Tactic.Common

/-!
Tours of a formula: rows of steps that enter nodes and leave them again. A tour goes from the
arguments of a node into their arguments and comes back, and it never goes back to what it has left.
-/

namespace MissionScript

namespace Visit

/-- The path that a step is taken at. -/
def path : Visit → Path
  | .enter path _ | .leave path _ => path

/-- The path of a node that is left. -/
def left? : Visit → Option Path
  | .enter .. => none
  | .leave path _ => some path

/-- The paths of the nodes that are being evaluated after one more step, the innermost one first. Only
    the root is entered from nowhere, any other node from the node that it is an argument of; and only
    the innermost node is left. -/
def follow : List Path → Visit → Option (List Path)
  | [], .enter path _ => if path = [] then some [path] else none
  | here :: above, .enter path _ =>
    if path.parent? = some here ∧ path ≠ here.child 0 then some (path :: here :: above) else none
  | [], .leave .. => none
  | here :: above, .leave path _ => if path = here then some above else none

end Visit

/-- Rows of visits to children of the node at a path, in order, from the child of an index on. Each
    visit encloses the visits to the arguments of its own node. -/
inductive Tour (root : Node) : Path → Nat → List Visit → Prop where
  | stop (path : Path) (index : Nat) : Tour root path index []
  | visit {path : Path} {index i : Nat} {n : Node} {inner rest : List Visit}
    (outcome : Except EvalError Value) (hi : index ≤ i) (hn : root.at? (path.child i) = some n)
    (hinner : Tour root (path.child i) 1 inner) (hrest : Tour root path (i + 1) rest) :
    Tour root path index
      (.enter (path.child i) n :: (inner ++ .leave (path.child i) outcome :: rest))

namespace Tour

variable {root : Node} {path : Path} {index index' : Nat} {visits : List Visit}

theorem of_le (h : Tour root path index' visits) (hindex : index ≤ index') :
    Tour root path index visits := by
  cases h with
  | stop => exact .stop path index
  | visit outcome hi hn hinner hrest => exact .visit outcome (Nat.le_trans hindex hi) hn hinner hrest

/-- A tour stays below its path. -/
theorem path_of_mem (h : Tour root path index visits) :
    ∀ v ∈ visits, ∃ i below, index ≤ i ∧ v.path = path ++ i :: below := by
  induction h with
  | stop => exact fun v hv => absurd hv List.not_mem_nil
  | @visit path index i n inner rest outcome hi _ _ _ ihinner ihrest =>
    have hhere : path.child i = path ++ i :: [] := rfl
    intro v hv
    rw [List.mem_cons, List.mem_append, List.mem_cons] at hv
    rcases hv with rfl | hv | rfl | hv
    · exact ⟨i, [], hi, hhere⟩
    · obtain ⟨j, below, -, hpath⟩ := ihinner v hv
      exact ⟨i, j :: below, hi, by rw [hpath, hhere, List.append_assoc, List.cons_append, List.nil_append]⟩
    · exact ⟨i, [], hi, hhere⟩
    · obtain ⟨j, below, hj, hpath⟩ := ihrest v hv
      exact ⟨j, below, by omega, hpath⟩

/-- What is read of the steps as their paths begins as the tour does. -/
theorem path_of_mem_filterMap (h : Tour root path index visits) {select : Visit → Option Path}
    (hselect : ∀ v p, select v = some p → v.path = p) {p : Path} (hp : p ∈ visits.filterMap select) :
    ∃ i below, index ≤ i ∧ p = path ++ i :: below := by
  obtain ⟨v, hv, hpath⟩ := List.mem_filterMap.1 hp
  rw [← hselect v p hpath]
  exact h.path_of_mem v hv

theorem left_of_mem (h : Tour root path index visits) {p : Path}
    (hp : p ∈ visits.filterMap Visit.left?) : ∃ i below, index ≤ i ∧ p = path ++ i :: below :=
  h.path_of_mem_filterMap (fun v _ hv => by cases v <;> cases hv; rfl) hp

/-- No node is left twice: what is below a node is left before it, and what comes after it later. -/
theorem nodup_left (h : Tour root path index visits) : (visits.filterMap Visit.left?).Nodup := by
  induction h with
  | stop => exact .nil
  | @visit path index i n inner rest outcome _ _ hinner hrest ihinner ihrest =>
    have hbelow {p : Path} (hp : p ∈ inner.filterMap Visit.left?) :
        ∃ j below, p = path ++ i :: j :: below := by
      obtain ⟨j, below, -, hpath⟩ := hinner.left_of_mem hp
      exact ⟨j, below, by rw [hpath, Path.child, List.append_assoc, List.singleton_append]⟩
    have hlater {p : Path} (hp : p ∈ rest.filterMap Visit.left?) (below : List Nat) :
        path ++ i :: below ≠ p := by
      obtain ⟨j, below', hj, rfl⟩ := hrest.left_of_mem hp
      rw [ne_eq, List.append_cancel_left_eq, List.cons.injEq]
      omega
    change ((inner ++ .leave (path.child i) outcome :: rest).filterMap Visit.left?).Nodup
    rw [List.filterMap_append, List.filterMap_cons_some (f := Visit.left?) rfl, List.nodup_append, List.nodup_cons]
    refine ⟨ihinner, ⟨fun hmem => hlater hmem [] rfl, ihrest⟩, fun p hp p' hp' => ?_⟩
    obtain ⟨j, below, rfl⟩ := hbelow hp
    rcases List.mem_cons.1 hp' with rfl | hp'
    · rw [ne_eq, Path.child, List.append_cancel_left_eq, List.cons.injEq]
      exact fun heq => List.cons_ne_nil _ _ heq.2
    · exact hlater hp' _

end Tour

end MissionScript

import MissionScript.Proofs.Formula.Traversal
import MissionScript.Validation
import Mathlib.Data.List.Nodup

/-!
The issues that validation finds. Each is about an application as such, about one of its arguments, or
about a variable that is the whole formula, and none is found twice.
-/

namespace MissionScript

/-- Whether what is wrong is an application as such, and not what stands there as an argument. -/
def IssueKind.isOwn : IssueKind → Bool
  | .unknownOperator _ | .tooFewArguments .. | .tooManyArguments .. => true
  | _ => false

/-- The place that is looked at when an issue is found. -/
def Issue.source (i : Issue) : Path :=
  if i.kind.isOwn then i.path else i.path.dropLast

/-- What is wrong with a formula, issue by issue. -/
inductive Issue.Found (formula : String) (registry : Registry) (vars : Option Variables) (root : Node) :
    Issue → Prop where
  | unknownOperator {path : Path} {n : Node} {name : String} (hat : root.at? path = some n)
    (hname : n.operator? = some name) (hget : registry.get? name = none) :
    Found formula registry vars root ⟨formula, path, n.offset, .unknownOperator name⟩
  | count {path : Path} {n : Node} {name : String} {operator : Operator} {kind : IssueKind}
    (hat : root.at? path = some n) (hname : n.operator? = some name)
    (hget : registry.get? name = some operator) (hkind : kind ∈ Validation.count operator n.args.length) :
    Found formula registry vars root ⟨formula, path, n.offset, kind⟩
  | argument {path : Path} {n arg : Node} {name : String} {operator : Operator} {i : Nat}
    {kind : IssueKind} (hat : root.at? path = some n) (hname : n.operator? = some name)
    (hget : registry.get? name = some operator) (harg : n.args[i]? = some arg)
    (hkind : kind ∈ Validation.argument registry vars operator.name i
      (operator.signature.constraintAt i) arg) :
    Found formula registry vars root ⟨formula, path.child (i + 1), arg.offset, kind⟩
  | root {name : String} {offset : Nat} {kind : IssueKind}
    (hroot : root = .atom (.variable name) offset) (hkind : kind ∈ Validation.undeclared vars name) :
    Found formula registry vars root ⟨formula, [], offset, kind⟩

namespace Validation

variable {formula : String} {registry : Registry} {vars : Option Variables}

/-- Whether at most one thing is wrong, and it is no application as such. -/
def AtMostOne (kinds : List IssueKind) : Prop :=
  kinds = [] ∨ ∃ k, kinds = [k] ∧ k.isOwn = false

theorem atMostOne_ite {p : Prop} [Decidable p] {k : IssueKind} (hk : k.isOwn = false) :
    AtMostOne (if p then [] else [k]) := by
  split
  · exact Or.inl rfl
  · exact Or.inr ⟨k, rfl, hk⟩

theorem AtMostOne.isOwn {kinds : List IssueKind} (h : AtMostOne kinds) {k : IssueKind}
    (hk : k ∈ kinds) : k.isOwn = false := by
  rcases h with rfl | ⟨k', rfl, hk'⟩
  · cases hk
  · rwa [List.mem_singleton.1 hk]

theorem AtMostOne.nodup {kinds : List IssueKind} (h : AtMostOne kinds) : kinds.Nodup := by
  rcases h with rfl | ⟨k, rfl, -⟩
  · exact .nil
  · exact List.pairwise_singleton _ k

theorem atMostOne_undeclared (vars : Option Variables) (name : String) :
    AtMostOne (undeclared vars name) := by
  cases vars with
  | none => exact Or.inl rfl
  | some vs => exact atMostOne_ite rfl

theorem atMostOne_variableArgument (vars : Option Variables) (expected : Constraint) (name : String) :
    AtMostOne (variableArgument vars expected name) := by
  unfold variableArgument
  split
  · exact Or.inl rfl
  · split
    · exact Or.inr ⟨_, rfl, rfl⟩
    · exact atMostOne_ite rfl

theorem atMostOne_argument (registry : Registry) (vars : Option Variables) (operator : String)
    (index : Nat) (expected : Constraint) (arg : Node) :
    AtMostOne (argument registry vars operator index expected arg) := by
  have hwrong (found : String) : AtMostOne [.argumentType operator index expected found] :=
    Or.inr ⟨_, rfl, rfl⟩
  unfold argument
  dsimp only
  split
  · exact atMostOne_undeclared vars _
  · exact hwrong _
  · exact atMostOne_ite rfl
  · exact atMostOne_ite rfl
  · exact atMostOne_variableArgument vars expected _
  · exact hwrong _
  · cases wrongReturn registry expected _ with
    | none => exact Or.inl rfl
    | some found => exact hwrong found

/-- What is wrong with the number of arguments: too few or too many. -/
theorem mem_count_iff {operator : Operator} {found : Nat} {k : IssueKind} :
    k ∈ count operator found ↔
      (found < operator.signature.minArgs ∧
        k = .tooFewArguments operator.name operator.signature.minArgs found) ∨
      ∃ most, operator.signature.maxArgs = some most ∧ most < found ∧
        k = .tooManyArguments operator.name most found := by
  unfold count
  rw [List.mem_append]
  refine or_congr ?_ ?_
  · split <;> simp [*]
  · cases operator.signature.maxArgs with
    | none => simp
    | some most =>
      dsimp only
      split <;> simp [*]

theorem nodup_count (operator : Operator) (found : Nat) : (count operator found).Nodup := by
  unfold count
  dsimp only
  split <;> split <;> try split
  all_goals simp

theorem isOwn_of_mem_count {operator : Operator} {found : Nat} {k : IssueKind}
    (hk : k ∈ count operator found) : k.isOwn = true := by
  rcases mem_count_iff.1 hk with ⟨-, rfl⟩ | ⟨most, -, -, rfl⟩ <;> rfl

/-- Too few or too many arguments are found exactly if their number is refused. -/
theorem count_eq_nil_iff {operator : Operator} {found : Nat} :
    count operator found = [] ↔ operator.signature.acceptsCount found = true := by
  rw [List.eq_nil_iff_forall_not_mem]
  simp only [mem_count_iff, Signature.acceptsCount, Bool.and_eq_true, decide_eq_true_eq,
    Option.all_eq_true]
  grind

/-- A node other than a variable at the root is looked at as an application. -/
theorem node_eq {path : Path} {n : Node} (h : path ≠ [] ∨ n.variableName? = none) :
    node formula registry vars (path, n) = application formula registry vars path n := by
  unfold node
  split
  · next heq =>
    cases heq
    rcases h with h | h
    · exact absurd rfl h
    · cases h
  · next heq =>
    cases heq
    rfl

/-- An application whose operator is registered: the number of its arguments, and then each of them. -/
theorem application_eq {path : Path} {n : Node} {name : String} {operator : Operator}
    (hname : n.operator? = some name) (hget : registry.get? name = some operator) :
    application formula registry vars path n =
      (count operator n.args.length).map (⟨formula, path, n.offset, ·⟩) ++
        n.args.zipIdx.flatMap fun (arg, i) =>
          (argument registry vars operator.name i (operator.signature.constraintAt i) arg).map
            (⟨formula, path.child (i + 1), arg.offset, ·⟩) := by
  simp only [application, hname, hget]

theorem application_eq_of_unknown {path : Path} {n : Node} {name : String}
    (hname : n.operator? = some name) (hget : registry.get? name = none) :
    application formula registry vars path n = [⟨formula, path, n.offset, .unknownOperator name⟩] := by
  simp only [application, hname, hget]

theorem application_eq_nil_of_operator? {path : Path} {n : Node} (hname : n.operator? = none) :
    application formula registry vars path n = [] := by
  simp only [application, hname]

theorem found_of_mem_application {root n : Node} {path : Path} (hat : root.at? path = some n) {i : Issue}
    (hi : i ∈ application formula registry vars path n) :
    Issue.Found formula registry vars root i ∧ i.source = path := by
  cases hname : n.operator? with
  | none =>
    rw [application_eq_nil_of_operator? hname] at hi
    cases hi
  | some name =>
    cases hget : registry.get? name with
    | none =>
      rw [application_eq_of_unknown hname hget, List.mem_singleton] at hi
      subst hi
      exact ⟨.unknownOperator hat hname hget, rfl⟩
    | some operator =>
      rw [application_eq hname hget, List.mem_append] at hi
      rcases hi with hi | hi
      · obtain ⟨kind, hkind, rfl⟩ := List.mem_map.1 hi
        exact ⟨.count hat hname hget hkind, if_pos (isOwn_of_mem_count hkind)⟩
      · obtain ⟨⟨arg, index⟩, hindex, hi⟩ := List.mem_flatMap.1 hi
        obtain ⟨kind, hkind, rfl⟩ := List.mem_map.1 hi
        refine ⟨.argument hat hname hget (List.mk_mem_zipIdx_iff_getElem?.1 hindex) hkind, ?_⟩
        have hown := (atMostOne_argument _ _ _ _ _ _).isOwn hkind
        rw [Issue.source, if_neg (by simp [hown]), Path.child, List.dropLast_concat]

theorem found_of_mem_node {root n : Node} {path : Path} (hat : root.at? path = some n) {i : Issue}
    (hi : i ∈ node formula registry vars (path, n)) :
    Issue.Found formula registry vars root i ∧ i.source = path := by
  by_cases hroot : path ≠ [] ∨ n.variableName? = none
  · rw [node_eq hroot] at hi
    exact found_of_mem_application hat hi
  · rw [not_or, not_not] at hroot
    obtain ⟨rfl, hvariable⟩ := hroot
    rw [Node.at?_nil, Option.some.injEq] at hat
    subst hat
    cases hn : root with
    | list children offset =>
      rw [hn] at hvariable
      exact absurd rfl hvariable
    | atom a offset =>
      cases a with
      | operator | number | text =>
        rw [hn] at hvariable
        exact absurd rfl hvariable
      | «variable» name =>
        rw [hn] at hi
        obtain ⟨kind, hkind, rfl⟩ := List.mem_map.1 hi
        refine ⟨.root rfl hkind, ?_⟩
        rw [Issue.source, if_neg (by simp [(atMostOne_undeclared vars name).isOwn hkind])]
        rfl

theorem nodup_application (path : Path) (n : Node) :
    (application formula registry vars path n).Nodup := by
  cases hname : n.operator? with
  | none => exact application_eq_nil_of_operator? hname ▸ .nil
  | some name =>
    cases hget : registry.get? name with
    | none => exact application_eq_of_unknown hname hget ▸ List.pairwise_singleton _ _
    | some operator =>
      rw [application_eq hname hget, List.nodup_append]
      have hplace (path : Path) (offset : Nat) :
          Function.Injective fun kind => (⟨formula, path, offset, kind⟩ : Issue) :=
        fun _ _ heq => (Issue.mk.inj heq).2.2.2
      refine ⟨(nodup_count _ _).map (hplace _ _), List.nodup_flatMap.2 ⟨?_, ?_⟩, ?_⟩
      · exact fun (arg, i) _ => (atMostOne_argument _ _ _ _ _ _).nodup.map (hplace _ _)
      · -- different arguments are at different paths
        have hindices : (n.args.zipIdx.map Prod.snd).Nodup := by
          rw [List.zipIdx_map_snd]
          exact List.nodup_range'
        refine (List.pairwise_map.1 hindices).imp fun {a b} hne i ha hb => hne ?_
        obtain ⟨_, -, rfl⟩ := List.mem_map.1 ha
        obtain ⟨_, -, heq⟩ := List.mem_map.1 hb
        have hpath := (Issue.mk.inj heq).2.1
        rw [Path.child, Path.child, List.append_cancel_left_eq, List.cons.injEq] at hpath
        omega
      · -- and their issues are not about the application as such
        intro i hi j hj heq
        obtain ⟨kind, hkind, rfl⟩ := List.mem_map.1 hi
        obtain ⟨_, -, hj⟩ := List.mem_flatMap.1 hj
        obtain ⟨kind', hkind', rfl⟩ := List.mem_map.1 hj
        obtain rfl := (Issue.mk.inj heq).2.2.2
        have hown := (atMostOne_argument _ _ _ _ _ _).isOwn hkind'
        rw [isOwn_of_mem_count hkind] at hown
        cases hown

theorem nodup_node (place : Path × Node) : (node formula registry vars place).Nodup := by
  unfold node
  split
  · exact (atMostOne_undeclared vars _).nodup.map fun _ _ heq => (Issue.mk.inj heq).2.2.2
  · exact nodup_application _ _

end Validation

section

variable {formula : String} {registry : Registry} {vars : Option Variables}

/-- Nothing is found twice: an issue is found where its source is, and only there. -/
theorem nodup_validate (formula : String) (registry : Registry) (vars : Option Variables) (f : Formula) :
    (validate formula registry vars f).Nodup := by
  refine List.nodup_flatMap.2 ⟨fun place _ => Validation.nodup_node place, ?_⟩
  have hordered := List.pairwise_map.1 (Node.pairwise_walk f.root)
  refine hordered.imp_of_mem fun {place later} hplace hlater hless i hi hi' => ?_
  have hsource := (Validation.found_of_mem_node (Node.mem_walk_iff.1 hplace) hi).2
  have hsource' := (Validation.found_of_mem_node (Node.mem_walk_iff.1 hlater) hi').2
  rw [← hsource, ← hsource'] at hless
  exact List.lt_irrefl _ hless

theorem mem_validate_iff {f : Formula} {i : Issue} :
    i ∈ validate formula registry vars f ↔ Issue.Found formula registry vars f.root i := by
  constructor
  · intro hi
    obtain ⟨⟨path, n⟩, hplace, hi⟩ := List.mem_flatMap.1 hi
    exact (Validation.found_of_mem_node (Node.mem_walk_iff.1 hplace) hi).1
  · have happlication {path : Path} {n : Node} {name : String} (hat : f.root.at? path = some n)
        (hname : n.operator? = some name) {i : Issue}
        (hi : i ∈ Validation.application formula registry vars path n) :
        i ∈ validate formula registry vars f := by
      refine List.mem_flatMap.2 ⟨(path, n), Node.mem_walk_iff.2 hat, ?_⟩
      cases n with
      | atom => cases hname
      | list => rwa [Validation.node_eq (Or.inr rfl)]
    intro hi
    cases hi with
    | unknownOperator hat hname hget =>
      refine happlication hat hname ?_
      rw [Validation.application_eq_of_unknown hname hget]
      exact List.mem_singleton_self _
    | count hat hname hget hkind =>
      refine happlication hat hname ?_
      rw [Validation.application_eq hname hget]
      exact List.mem_append_left _ (List.mem_map_of_mem hkind)
    | argument hat hname hget harg hkind =>
      refine happlication hat hname ?_
      rw [Validation.application_eq hname hget]
      refine List.mem_append_right _ (List.mem_flatMap.2 ⟨_, List.mk_mem_zipIdx_iff_getElem?.2 harg, ?_⟩)
      exact List.mem_map_of_mem hkind
    | root hroot hkind =>
      refine List.mem_flatMap.2 ⟨([], f.root), Node.mem_walk_iff.2 (Node.at?_nil f.root), ?_⟩
      rw [hroot]
      exact List.mem_map_of_mem hkind

end

end MissionScript

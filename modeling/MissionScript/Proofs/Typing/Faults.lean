import MissionScript.Proofs.Evaluation.Errors
import MissionScript.Proofs.Typing.Issues

/-!
The faults of a formula and the issues that report them. Every unknown operator, every wrong number of
arguments and every variable that is not declared is reported where it is, and nothing else is.
-/

namespace MissionScript

namespace IssueKind

/-- Whether an operator is not registered. -/
def isUnknownOperator : IssueKind → Bool
  | .unknownOperator _ => true
  | _ => false

/-- Whether there are too few or too many arguments. -/
def isArity : IssueKind → Bool
  | .tooFewArguments .. | .tooManyArguments .. => true
  | _ => false

/-- Whether a variable is not declared. -/
def isUndeclared : IssueKind → Bool
  | .undeclaredVariable _ => true
  | _ => false

/-- Whether it takes the variables to tell that something is wrong. -/
def isAboutVariable : IssueKind → Bool
  | .undeclaredVariable _ | .variableType .. => true
  | _ => false

theorem isOwn_of_isUnknownOperator {k : IssueKind} (h : k.isUnknownOperator = true) :
    k.isOwn = true := by
  cases k <;> first | rfl | cases h

theorem isOwn_of_isArity {k : IssueKind} (h : k.isArity = true) : k.isOwn = true := by
  cases k <;> first | rfl | cases h

theorem isOwn_of_isUndeclared {k : IssueKind} (h : k.isUndeclared = true) : k.isOwn = false := by
  cases k <;> first | rfl | cases h

end IssueKind

theorem Node.eq_variable_of_variableName? {n : Node} {name : String} (h : n.variableName? = some name) :
    ∃ offset, n = .atom (.variable name) offset := by
  unfold variableName? at h
  split at h
  · next offset =>
    cases h
    exact ⟨offset, rfl⟩
  · cases h

/-- Whether a path leads to the root, or to an argument of a registered operator. -/
def Node.IsOperand (registry : Registry) (root : Node) (path : Path) : Prop :=
  path = [] ∨ ∃ (above : Path) (i : Nat) (name : String), path = above.child (i + 1) ∧
    root.operatorAt? above = some name ∧ (registry.get? name).isSome = true

/-- Whether an evaluation finds the number of its arguments wrong when a registered operator is applied. -/
def Evaluation.RefusesCount (outcome : Except EvalError Value) : Prop :=
  ∃ operator expected found, outcome = .error (.arityMismatch operator expected found)

/-- Whether issues are the report of a formula, of which each says once what is wrong and where. -/
structure Formula.Report (f : Formula) (formula : String) (registry : Registry) (vars : Variables)
    (issues : List Issue) : Prop where
  distinct : issues.Nodup
  /-- every issue is at a node of the formula, and says where this begins -/
  located : ∀ i ∈ issues, i.formula = formula ∧
    ∃ n, f.root.at? i.path = some n ∧ i.offset = n.offset
  /-- an application of an unknown operator is one issue -/
  unknownOperator : ∀ path n name, f.root.at? path = some n → n.operator? = some name →
    registry.get? name = none →
    issues.filter (fun i => i.path = path ∧ i.kind.isUnknownOperator) =
      [⟨formula, path, n.offset, .unknownOperator name⟩]
  unknownOperator_only : ∀ i ∈ issues, i.kind.isUnknownOperator = true →
    ∃ name, f.root.operatorAt? i.path = some name ∧ registry.get? name = none
  /-- there is something wrong with the number of arguments exactly if an evaluation refuses it, whatever
      the arguments are and wherever they are evaluated -/
  arity : ∀ path n name, f.root.at? path = some n → n.operator? = some name →
    (registry.get? name).isSome = true →
    ∀ (H : Type) [Host H] (args : List (Arg H)), args.length = n.args.length →
    ∀ (evaluated : String) (place : Path) (env : Env H),
    (∃ i ∈ issues, i.path = path ∧ i.kind.isArity = true) ↔
      Evaluation.RefusesCount
        ((Evaluation.apply registry evaluated place (some name) args).run env).1
  arity_only : ∀ i ∈ issues, i.kind.isArity = true →
    ∃ name, f.root.operatorAt? i.path = some name ∧ (registry.get? name).isSome = true
  /-- a variable that is not declared is one issue, as the root and as an operand -/
  undeclared : ∀ path name offset, f.root.at? path = some (.atom (.variable name) offset) →
    f.root.IsOperand registry path → vars.declares name = false →
    issues.filter (fun i => i.path = path ∧ i.kind.isUndeclared) =
      [⟨formula, path, offset, .undeclaredVariable name⟩]
  undeclared_only : ∀ i ∈ issues, i.kind.isUndeclared = true → f.root.IsOperand registry i.path ∧
    ∃ name, f.root.at? i.path = some (.atom (.variable name) i.offset) ∧ vars.declares name = false

/-! ### What is said of one node -/

namespace Validation

theorem isArity_of_mem_count {operator : Operator} {found : Nat} {k : IssueKind}
    (hk : k ∈ count operator found) : k.isArity = true ∧ k.isUnknownOperator = false := by
  rcases mem_count_iff.1 hk with ⟨-, rfl⟩ | ⟨most, -, -, rfl⟩ <;> exact ⟨rfl, rfl⟩

theorem mem_undeclared_iff {vars : Variables} {name : String} {k : IssueKind} :
    k ∈ undeclared (some vars) name ↔ vars.declares name = false ∧ k = .undeclaredVariable name := by
  unfold undeclared
  dsimp only
  cases vars.declares name <;> simp

theorem argument_variable (registry : Registry) (vars : Option Variables) (operator : String)
    (index : Nat) (expected : Constraint) (name : String) (offset : Nat) :
    argument registry vars operator index expected (.atom (.variable name) offset) =
      if expected = .variable then undeclared vars name else variableArgument vars expected name := by
  cases expected <;> rfl

/-- What is wrong with an argument that is no variable has nothing to do with variables. -/
theorem argument_of_not_variable (registry : Registry) (vars : Option Variables) (operator : String)
    (index : Nat) (expected : Constraint) {arg : Node} (h : arg.variableName? = none) :
    argument registry vars operator index expected arg =
        argument registry none operator index expected arg ∧
      ∀ k ∈ argument registry vars operator index expected arg, k.isAboutVariable = false := by
  have hwrong (found : String) : ∀ k ∈ [IssueKind.argumentType operator index expected found],
      k.isAboutVariable = false := List.forall_mem_singleton.2 rfl
  constructor
  · cases arg with
    | list => cases expected <;> rfl
    | atom a offset =>
      cases a with
      | «variable» name => cases h
      | operator | number | text => cases expected <;> rfl
  · unfold argument
    dsimp only
    split
    · cases h
    · exact hwrong _
    · split
      · exact List.forall_mem_nil _
      · exact hwrong _
    · split
      · exact List.forall_mem_nil _
      · exact hwrong _
    · cases h
    · exact hwrong _
    · cases wrongReturn registry expected _ with
      | none => exact List.forall_mem_nil _
      | some found => exact hwrong found

/-- A variable as an argument is not declared, or it is all right, or it is of the wrong type. -/
theorem variableArgument_cases (vars : Variables) (expected : Constraint) (name : String) :
    vars.declares name = false ∧
        variableArgument (some vars) expected name = [.undeclaredVariable name] ∨
      vars.declares name = true ∧ (variableArgument (some vars) expected name = [] ∨
        ∃ type, variableArgument (some vars) expected name = [.variableType name expected type]) := by
  have hdeclares : vars.declares name = (vars.get? name).isSome := rfl
  rw [hdeclares]
  unfold variableArgument
  dsimp only
  cases vars.get? name with
  | none => exact Or.inl ⟨rfl, rfl⟩
  | some v =>
    refine Or.inr ⟨rfl, ?_⟩
    dsimp only
    generalize expected.acceptsValue _ = accepted
    cases accepted with
    | true => exact Or.inl rfl
    | false => exact Or.inr ⟨v.type, rfl⟩

theorem mem_variableArgument_iff {vars : Variables} {expected : Constraint} {name : String}
    {k : IssueKind} (hk : k.isUndeclared = true) : k ∈ variableArgument (some vars) expected name ↔
      vars.declares name = false ∧ k = .undeclaredVariable name := by
  rcases variableArgument_cases vars expected name with
    ⟨hdeclares, heq⟩ | ⟨hdeclares, heq | ⟨type, heq⟩⟩
  · simp [heq, hdeclares]
  · simp [heq, hdeclares]
  · rw [heq, hdeclares, List.mem_singleton]
    refine iff_of_false ?_ nofun
    rintro rfl
    cases hk

/-- A variable that is not declared is found under every constraint. -/
theorem mem_argument_iff {registry : Registry} {vars : Variables} {operator : String} {index : Nat}
    {expected : Constraint} {arg : Node} {k : IssueKind} (hk : k.isUndeclared = true) :
    k ∈ argument registry (some vars) operator index expected arg ↔ ∃ name,
      arg.variableName? = some name ∧ vars.declares name = false ∧ k = .undeclaredVariable name := by
  cases hname : arg.variableName? with
  | none =>
    obtain ⟨-, habout⟩ := argument_of_not_variable registry (some vars) operator index expected hname
    refine iff_of_false (fun hmem => ?_) (by simp)
    have hother := habout k hmem
    cases k <;> cases hk
    cases hother
  | some name =>
    obtain ⟨offset, rfl⟩ := Node.eq_variable_of_variableName? hname
    rw [argument_variable]
    split
    · rw [mem_undeclared_iff]
      simp
    · rw [mem_variableArgument_iff hk]
      simp

/-- Without variables nothing is said about them, and all else is. -/
theorem filter_argument (registry : Registry) (vars : Variables) (operator : String) (index : Nat)
    (expected : Constraint) (arg : Node) :
    (argument registry (some vars) operator index expected arg).filter (!·.isAboutVariable) =
      argument registry none operator index expected arg := by
  cases hname : arg.variableName? with
  | none =>
    obtain ⟨heq, habout⟩ := argument_of_not_variable registry (some vars) operator index expected hname
    rw [← heq]
    exact List.filter_eq_self.2 fun k hk => by rw [habout k hk]; rfl
  | some name =>
    obtain ⟨offset, rfl⟩ := Node.eq_variable_of_variableName? hname
    rw [argument_variable, argument_variable]
    split
    · unfold undeclared
      dsimp only
      split <;> rfl
    · rcases variableArgument_cases vars expected name with ⟨-, heq⟩ | ⟨-, heq | ⟨type, heq⟩⟩
      all_goals
        rw [heq]
        rfl

theorem filter_count (operator : Operator) (found : Nat) :
    (count operator found).filter (!·.isAboutVariable) = count operator found :=
  List.filter_eq_self.2 fun k hk => by
    rcases mem_count_iff.1 hk with ⟨-, rfl⟩ | ⟨most, -, -, rfl⟩ <;> rfl

theorem filter_application (formula : String) (registry : Registry) (vars : Variables) (path : Path)
    (n : Node) :
    (application formula registry (some vars) path n).filter (!·.kind.isAboutVariable) =
      application formula registry none path n := by
  cases hname : n.operator? with
  | none => rw [application_eq_nil_of_operator? hname, application_eq_nil_of_operator? hname]; rfl
  | some name =>
    cases hget : registry.get? name with
    | none => rw [application_eq_of_unknown hname hget, application_eq_of_unknown hname hget]; rfl
    | some operator =>
      rw [application_eq hname hget, application_eq hname hget, List.filter_append, List.filter_map,
        List.filter_flatMap]
      refine congrArg₂ (List.map _ · ++ ·) (filter_count operator _) ?_
      refine List.flatMap_congr fun (arg, i) _ => ?_
      rw [List.filter_map]
      exact congrArg (List.map _) (filter_argument registry vars _ _ _ arg)

theorem filter_node (formula : String) (registry : Registry) (vars : Variables) (place : Path × Node) :
    (node formula registry (some vars) place).filter (!·.kind.isAboutVariable) =
      node formula registry none place := by
  unfold node
  split
  · rw [List.filter_map]
    unfold undeclared
    dsimp only
    split <;> rfl
  · exact filter_application formula registry vars _ _

end Validation

namespace Evaluation

variable {H : Type} [Host H]

/-- An application of a registered operator raises the wrong number of its arguments exactly if its
    signature does not take as many, whatever else may be wrong. -/
theorem refusesCount_iff {registry : Registry} {name : String} {operator : Operator}
    (hget : registry.get? name = some operator) (formula : String) (path : Path) (args : List (Arg H))
    (env : Env H) : RefusesCount ((apply registry formula path (some name) args).run env).1 ↔
      operator.signature.acceptsCount args.length = false := by
  constructor
  · rintro ⟨_, _, _, houtcome⟩
    have hraises := (raises_apply registry formula path (some name) args env trivial).1 _ houtcome
    cases hraises with
    | arity hget' hcount =>
      obtain rfl := Option.some.inj (hget.symm.trans hget')
      rwa [List.length_map] at hcount
    | complaint _ _ he => cases he
  · intro hcount
    refine ⟨operator.name, operator.signature.arity, args.length, ?_⟩
    unfold apply
    simp only [hget]
    split
    · unfold applyLazy
      rw [if_pos (by simp [hcount])]
      rfl
    · have hlength : ((evalAll args).run env).1.length = args.length :=
        (ensures_length_evalAll args env trivial).1
      rw [StateT.run_bind]
      change (applyEager operator formula path ((evalAll args).run env).1 _).1 = _
      rw [applyEager, if_pos (by simp [hlength, hcount]), hlength]
      rfl

end Evaluation

/-! ### The report of a formula -/

/-- Of issues without repetition one is selected if it alone has a property. -/
theorem filter_eq_singleton {issues : List Issue} (hdistinct : issues.Nodup) {p : Issue → Bool}
    {i : Issue} (h : ∀ j, j ∈ issues ∧ p j = true ↔ j = i) : issues.filter p = [i] := by
  refine List.perm_singleton.1 ((List.perm_ext_iff_of_nodup (hdistinct.filter p)
    (List.pairwise_singleton _ i)).2 fun j => ?_)
  rw [List.mem_filter, List.mem_singleton]
  exact h j

namespace Issue

variable {formula : String} {registry : Registry} {vars : Variables} {root : Node} {i : Issue}

theorem Found.located {vars : Option Variables} (h : Found formula registry vars root i) :
    i.formula = formula ∧ ∃ n, root.at? i.path = some n ∧ i.offset = n.offset := by
  cases h with
  | unknownOperator hat | count hat => exact ⟨rfl, _, hat, rfl⟩
  | @argument path n arg _ _ k _ hat _ _ harg =>
    refine ⟨rfl, arg, ?_, rfl⟩
    rw [Node.at?_child, hat, Option.bind_some, ← List.getElem?_tail]
    exact harg
  | root hroot => exact ⟨rfl, root, Node.at?_nil root, hroot ▸ rfl⟩

/-- An unknown operator is found where it is applied. -/
theorem found_iff_of_isUnknownOperator (hi : i.kind.isUnknownOperator = true) :
    Found formula registry (some vars) root i ↔ ∃ n name, root.at? i.path = some n ∧
      n.operator? = some name ∧ registry.get? name = none ∧
      i = ⟨formula, i.path, n.offset, .unknownOperator name⟩ := by
  constructor
  · intro h
    cases h with
    | unknownOperator hat hname hget => exact ⟨_, _, hat, hname, hget, rfl⟩
    | count _ _ _ hkind =>
      rw [(Validation.isArity_of_mem_count hkind).2] at hi
      cases hi
    | argument _ _ _ _ hkind =>
      have hown := (Validation.atMostOne_argument _ _ _ _ _ _).isOwn hkind
      exact absurd (IssueKind.isOwn_of_isUnknownOperator hi) (Bool.eq_false_iff.1 hown)
    | root _ hkind =>
      obtain ⟨-, rfl⟩ := Validation.mem_undeclared_iff.1 hkind
      cases hi
  · rintro ⟨n, name, hat, hname, hget, heq⟩
    rw [heq]
    exact .unknownOperator hat hname hget

/-- A wrong number of arguments is found where they are given to a registered operator. -/
theorem found_iff_of_isArity (hi : i.kind.isArity = true) :
    Found formula registry (some vars) root i ↔ ∃ n name operator, root.at? i.path = some n ∧
      n.operator? = some name ∧ registry.get? name = some operator ∧ i.formula = formula ∧
      i.offset = n.offset ∧ i.kind ∈ Validation.count operator n.args.length := by
  constructor
  · intro h
    cases h with
    | unknownOperator => cases hi
    | count hat hname hget hkind => exact ⟨_, _, _, hat, hname, hget, rfl, rfl, hkind⟩
    | argument _ _ _ _ hkind =>
      have hown := (Validation.atMostOne_argument _ _ _ _ _ _).isOwn hkind
      exact absurd (IssueKind.isOwn_of_isArity hi) (Bool.eq_false_iff.1 hown)
    | root _ hkind =>
      obtain ⟨-, rfl⟩ := Validation.mem_undeclared_iff.1 hkind
      cases hi
  · obtain ⟨_, path, offset, kind⟩ := i
    rintro ⟨n, name, operator, hat, hname, hget, rfl, rfl, hkind⟩
    exact .count hat hname hget hkind

/-- A variable that is not declared is found as the root and as an operand. -/
theorem found_iff_of_isUndeclared (hi : i.kind.isUndeclared = true) :
    Found formula registry (some vars) root i ↔ root.IsOperand registry i.path ∧
      ∃ name, root.at? i.path = some (.atom (.variable name) i.offset) ∧ vars.declares name = false ∧
        i = ⟨formula, i.path, i.offset, .undeclaredVariable name⟩ := by
  constructor
  · intro h
    cases h with
    | unknownOperator => cases hi
    | count _ _ _ hkind =>
      have hown := Validation.isOwn_of_mem_count hkind
      exact absurd hown (Bool.eq_false_iff.1 (IssueKind.isOwn_of_isUndeclared hi))
    | @argument path n arg name operator k kind hat hname hget harg hkind =>
      obtain ⟨ref, hvariable, hdeclares, rfl⟩ := (Validation.mem_argument_iff hi).1 hkind
      obtain ⟨offset, rfl⟩ := Node.eq_variable_of_variableName? hvariable
      have hoperator : root.operatorAt? path = some name := by
        rw [Node.operatorAt?, hat, Option.bind_some, hname]
      refine ⟨Or.inr ⟨path, k, name, rfl, hoperator, by rw [hget]; rfl⟩, ref, ?_, hdeclares, rfl⟩
      rw [Node.at?_child, hat, Option.bind_some, ← List.getElem?_tail]
      exact harg
    | root hroot hkind =>
      obtain ⟨hdeclares, rfl⟩ := Validation.mem_undeclared_iff.1 hkind
      exact ⟨Or.inl rfl, _, by rw [hroot, Node.at?_nil], hdeclares, rfl⟩
  · rintro ⟨hoperand, name, hat, hdeclares, heq⟩
    rw [heq]
    rcases hoperand with hpath | ⟨above, k, operator, hpath, hoperator, hget⟩
    · rw [hpath] at hat ⊢
      rw [Node.at?_nil, Option.some.injEq] at hat
      exact .root hat (Validation.mem_undeclared_iff.2 ⟨hdeclares, rfl⟩)
    · obtain ⟨n, hn, hname⟩ := Option.bind_eq_some_iff.1 hoperator
      obtain ⟨operator, hget⟩ := Option.isSome_iff_exists.1 hget
      rw [hpath] at hat ⊢
      rw [Node.at?_child, hn, Option.bind_some, ← List.getElem?_tail] at hat
      have hvariable : (Node.atom (.variable name) i.offset).variableName? = some name := rfl
      exact .argument hn hname hget hat
        ((Validation.mem_argument_iff rfl).2 ⟨name, hvariable, hdeclares, rfl⟩)

end Issue

/-- Validation reports what is wrong with a formula once each and where it is: every application of an
    operator that is not registered, every number of arguments that an evaluation refuses, and every
    variable that is not declared, as the root or as an argument of a registered operator; and it reports
    none of these anywhere else. Without variables it says the same, but for what is said about them. -/
theorem report_validate (formula : String) (registry : Registry) (vars : Variables) (f : Formula) :
    f.Report formula registry vars (validate formula registry (some vars) f) ∧
      validate formula registry none f =
        (validate formula registry (some vars) f).filter (!·.kind.isAboutVariable) := by
  have hdistinct := nodup_validate formula registry (some vars) f
  have hfound {i : Issue} : i ∈ validate formula registry (some vars) f ↔
      Issue.Found formula registry (some vars) f.root i := mem_validate_iff
  refine ⟨⟨hdistinct, fun i hi => (hfound.1 hi).located, ?_, ?_, ?_, ?_, ?_, ?_⟩, ?_⟩
  · intro path n name hat hname hget
    refine filter_eq_singleton hdistinct fun i => ?_
    rw [hfound, decide_eq_true_eq]
    constructor
    · rintro ⟨hi, rfl, hkind⟩
      obtain ⟨n', name', hat', hname', -, heq⟩ := (Issue.found_iff_of_isUnknownOperator hkind).1 hi
      obtain rfl := Option.some.inj (hat.symm.trans hat')
      obtain rfl := Option.some.inj (hname.symm.trans hname')
      exact heq
    · rintro rfl
      exact ⟨.unknownOperator hat hname hget, rfl, rfl⟩
  · intro i hi hkind
    obtain ⟨n, name, hat, hname, hget, -⟩ :=
      (Issue.found_iff_of_isUnknownOperator hkind).1 (hfound.1 hi)
    exact ⟨name, by rw [Node.operatorAt?, hat, Option.bind_some, hname], hget⟩
  · intro path n name hat hname hget H _ args hlength evaluated place env
    obtain ⟨operator, hget⟩ := Option.isSome_iff_exists.1 hget
    rw [Evaluation.refusesCount_iff hget, hlength, ← Bool.not_eq_true, ← Validation.count_eq_nil_iff]
    constructor
    · rintro ⟨i, hi, rfl, hkind⟩ hnil
      obtain ⟨n', name', operator', hat', hname', hget', -, -, hcount⟩ :=
        (Issue.found_iff_of_isArity hkind).1 (hfound.1 hi)
      obtain rfl := Option.some.inj (hat.symm.trans hat')
      obtain rfl := Option.some.inj (hname.symm.trans hname')
      obtain rfl := Option.some.inj (hget.symm.trans hget')
      rw [hnil] at hcount
      cases hcount
    · intro hcount
      obtain ⟨kind, hkind⟩ := List.exists_mem_of_ne_nil _ hcount
      refine ⟨⟨formula, path, n.offset, kind⟩, hfound.2 (.count hat hname hget hkind), rfl, ?_⟩
      exact (Validation.isArity_of_mem_count hkind).1
  · intro i hi hkind
    obtain ⟨n, name, operator, hat, hname, hget, -⟩ := (Issue.found_iff_of_isArity hkind).1 (hfound.1 hi)
    exact ⟨name, by rw [Node.operatorAt?, hat, Option.bind_some, hname], by rw [hget]; rfl⟩
  · intro path name offset hat hoperand hdeclares
    refine filter_eq_singleton hdistinct fun i => ?_
    rw [hfound, decide_eq_true_eq]
    constructor
    · rintro ⟨hi, rfl, hkind⟩
      obtain ⟨-, name', hat', -, heq⟩ := (Issue.found_iff_of_isUndeclared hkind).1 hi
      cases hat.symm.trans hat'
      exact heq
    · rintro rfl
      exact ⟨(Issue.found_iff_of_isUndeclared rfl).2 ⟨hoperand, name, hat, hdeclares, rfl⟩, rfl, rfl⟩
  · intro i hi hkind
    obtain ⟨hoperand, name, hat, hdeclares, -⟩ :=
      (Issue.found_iff_of_isUndeclared hkind).1 (hfound.1 hi)
    exact ⟨hoperand, name, hat, hdeclares⟩
  · unfold validate
    rw [List.filter_flatMap]
    exact List.flatMap_congr fun place _ => (Validation.filter_node formula registry vars place).symm

end MissionScript

import MissionScript.Game.Simulation
import MissionScript.Proofs.Evaluation.Lockstep
import MissionScript.Proofs.Evaluation.Sequence

/-!
Arguments that are spared. Once a control knows from one of its arguments what it has to do, it makes no
difference which nodes stand in the places of the arguments that it then leaves out.
-/

namespace MissionScript

variable {H : Type}

namespace Node

/-- A node with another one in the place of what is at a path. -/
def replace (n : Node) (path : Path) (new : Node) : Node :=
  match path, n with
  | [], _ => new
  | _ :: _, .atom a offset => .atom a offset
  | i :: rest, .list children offset => .list (children.modify i (·.replace rest new)) offset

variable {children xs ys : List Node} {offset i : Nat} {n : Node} {path : Path}

/-- Where a list is replaced by another one, everything above it stays a list. -/
theorem exists_list_of_replace (ys : List Node) (hn : n.at? path = some (.list xs offset)) :
    ∃ children children' start, n = .list children start ∧
      n.replace path (.list ys offset) = .list children' start := by
  cases path with
  | nil =>
    obtain rfl := Option.some.inj ((at?_nil n).symm.trans hn)
    exact ⟨xs, ys, offset, rfl, rfl⟩
  | cons i rest =>
    cases n with
    | atom a start => cases hn
    | list children start => exact ⟨children, _, start, rfl, rfl⟩

/-- The head of a list is no list. -/
theorem headName?_modify {f : Node → Node} (hi : children[i]? = some (.list xs offset))
    (hf : f (.list xs offset) = .list ys offset) :
    headName? (children.modify i f) = headName? children := by
  cases children with
  | nil => cases hi
  | cons head rest =>
    cases i with
    | zero =>
      obtain rfl := Option.some.inj hi
      rw [List.modify_zero_cons, hf]
      rfl
    | succ i =>
      rw [List.modify_succ_cons]
      cases head with
      | atom a offset => cases a <;> rfl
      | list => rfl

end Node

/-- Whether a control looks at none of the arguments in which two rows differ, where the argument of an
    index says something. -/
inductive Control.Spares : Control → Nat → Truth → List Node → List Node → Prop where
  /-- what comes after the first argument that is not true -/
  | and {t : Truth} (ht : t.isTrue = false) (before : List Node) (n : Node) (rest rest' : List Node) :
    Spares .and (before.length + 1) t (before ++ n :: rest) (before ++ n :: rest')
  /-- what comes after the first argument that is true -/
  | or {t : Truth} (ht : t.isTrue = true) (before : List Node) (n : Node) (rest rest' : List Node) :
    Spares .or (before.length + 1) t (before ++ n :: rest) (before ++ n :: rest')
  | when {t : Truth} (ht : t.isTrue = false) (condition : Node) {actions actions' : List Node}
    (hne : actions ≠ []) (hne' : actions' ≠ []) :
    Spares .when 1 t (condition :: actions) (condition :: actions')
  | everyTime {t : Truth} (ht : t.isTrue = false) (condition : Node) {actions actions' : List Node}
    (hne : actions ≠ []) (hne' : actions' ≠ []) :
    Spares .everyTime 1 t (condition :: actions) (condition :: actions')
  | yes {t : Truth} (ht : t.isTrue = false) (condition yes yes' no : Node) :
    Spares .ifThenElse 1 t [condition, yes, no] [condition, yes', no]
  | no {t : Truth} (ht : t.isTrue = true) (condition yes no no' : Node) :
    Spares .ifThenElse 1 t [condition, yes, no] [condition, yes, no']
  | branches (condition yes yes' no no' : Node) :
    Spares .ifThenElse 1 .unknown [condition, yes, no] [condition, yes', no']

/-- Both rows are as long as the control wants them. -/
theorem Control.Spares.acceptsCount {c : Control} {i : Nat} {t : Truth} {args args' : List Node}
    (h : c.Spares i t args args') :
    (Builtin.control c).operator.signature.acceptsCount args.length = true ∧
      (Builtin.control c).operator.signature.acceptsCount args'.length = true := by
  have hrow (before : List Node) (n : Node) (rest : List Node) :
      1 ≤ (before ++ n :: rest).length := by
    rw [List.length_append, List.length_cons]
    omega
  have hactions (condition : Node) {actions : List Node} (hne : actions ≠ []) :
      2 ≤ (condition :: actions).length := Nat.succ_le_succ (List.length_pos_iff.2 hne)
  cases h with
  | and | or =>
    exact ⟨Signature.acceptsCount_of_le rfl (hrow ..), Signature.acceptsCount_of_le rfl (hrow ..)⟩
  | «when» _ _ hne hne' | everyTime _ _ hne hne' =>
    exact ⟨Signature.acceptsCount_of_le rfl (hactions _ hne),
      Signature.acceptsCount_of_le rfl (hactions _ hne')⟩
  | yes | no | branches => exact ⟨rfl, rfl⟩

/-- What a node is left with, and where. -/
def Visit.outcome? : Visit → Option (Path × Except EvalError Value)
  | .enter .. => none
  | .leave path outcome => some (path, outcome)

theorem Visit.returns_iff {visits : List Visit} {path : Path} {v : Value} : Returns visits path v ↔
    ∃ outcome, (path, outcome) ∈ visits.filterMap outcome? ∧ v = Evaluation.given outcome := by
  refine exists_congr fun outcome => and_congr_left' ?_
  rw [List.mem_filterMap]
  constructor
  · intro h
    exact ⟨_, h, rfl⟩
  · rintro ⟨visit, h, hvisit⟩
    cases visit with
    | enter => cases hvisit
    | leave =>
      cases hvisit
      exact h

namespace Env

/-- Whether two environments differ in their traces only, and there at most in what the nodes look like
    that have been entered. -/
def SameCourse (env env' : Env H) : Prop :=
  ∃ trace : Array Visit, env' = { env with trace } ∧
    trace.toList.filterMap Visit.outcome? = env.trace.toList.filterMap Visit.outcome?

/-- Whether a node has been left with something else than what is expected of it. -/
def Contradicts (path : Path) (t : Truth) (env : Env H) : Prop :=
  ∃ v, Visit.Returns env.trace.toList path v ∧ v.truth ≠ t

theorem SameCourse.record {env env' : Env H} (h : env.SameCourse env') {v v' : Visit}
    (hv : v'.outcome? = v.outcome?) : (env.record v).SameCourse (env'.record v') := by
  obtain ⟨trace, rfl, htrace⟩ := h
  refine ⟨trace.push v', rfl, ?_⟩
  rw [Env.record, Array.toList_push, Array.toList_push, List.filterMap_append, List.filterMap_append,
    htrace, List.filterMap_cons, List.filterMap_cons, hv]

theorem SameCourse.returns_iff {env env' : Env H} (h : env.SameCourse env') {path : Path} {v : Value} :
    Visit.Returns env'.trace.toList path v ↔ Visit.Returns env.trace.toList path v := by
  obtain ⟨trace, rfl, htrace⟩ := h
  rw [Visit.returns_iff, Visit.returns_iff, ← htrace]

theorem report_withTrace (env : Env H) (trace : Array Visit) (formula : String) (path : Path)
    (offset : Nat) (e : EvalError) : { env with trace }.report formula path offset e =
      { env.report formula path offset e with trace } := by
  unfold report
  cases e with
  | unknownVariable name =>
    dsimp only
    split <;> rfl
  | _ => rfl

/-- Nothing that an evaluation does depends on its trace. -/
theorem mirrors_sameCourse (formula : String) :
    Mirrors (H := H) formula (fun _ => True) SameCourse where
  host := by rintro env _ ⟨trace, rfl, -⟩; rfl
  event? := by rintro env _ ⟨trace, rfl, -⟩ name; rfl
  goal? := by rintro env _ ⟨trace, rfl, -⟩ name; rfl
  latchedAt? := by rintro env _ ⟨trace, rfl, -⟩ path; rfl
  get? := by rintro env _ ⟨trace, rfl, -⟩ name -; rfl
  play := by rintro env _ ⟨trace, rfl, htrace⟩ host; exact ⟨trace, rfl, htrace⟩
  warn := by rintro env _ ⟨trace, rfl, htrace⟩ w; exact ⟨trace, rfl, htrace⟩
  pushDirective := by rintro env _ ⟨trace, rfl, htrace⟩ d; exact ⟨trace, rfl, htrace⟩
  latch := by rintro env _ ⟨trace, rfl, htrace⟩ path now; exact ⟨trace, rfl, htrace⟩
  assign := by rintro env _ ⟨trace, rfl, htrace⟩ name - value; exact ⟨trace, rfl, htrace⟩
  enter h path n := h.record rfl
  close {env env'} h path offset outcome := by
    cases outcome with
    | ok v => exact h.record rfl
    | error e =>
      obtain ⟨trace, rfl, htrace⟩ := h
      refine SameCourse.record ⟨trace, report_withTrace .., ?_⟩ rfl
      rw [trace_report]
      exact htrace

/-- What a node has been left with stays in the trace. -/
theorem isFinal_contradicts [Host H] (path : Path) (t : Truth) :
    IsFinal (Contradicts (H := H) path t) where
  effect env env' heffect := by
    rintro ⟨v, hreturns, hv⟩
    exact ⟨v, heffect.trace_eq ▸ hreturns, hv⟩
  record env visit := by
    rintro ⟨v, hreturns, hv⟩
    refine ⟨v, hreturns.mono ?_, hv⟩
    rw [Env.record, Array.toList_push]
    exact List.subset_append_left ..

end Env

/-- Once an argument says what is expected of it, only what follows from that counts. -/
theorem Paired.bind_of_tells {α : Type} {parted : Env H → Prop} {R : Env H → Env H → Prop} {t : Truth}
    {m : EvalM H Value} {k k' : Value → EvalM H α} (hm : Paired parted R m m)
    (htells : ∀ env, parted (m.run env).2 ∨ (m.run env).1.truth = t)
    (hkept : ∀ v env, parted env → parted ((k v).run env).2)
    (hk : ∀ v, v.truth = t → Paired parted R (k v) (k' v)) : Paired parted R (m >>= k) (m >>= k') := by
  refine ⟨fun env h => hkept _ _ (hm.kept env h), fun env env' h => ?_⟩
  rw [StateT.run_bind, StateT.run_bind]
  change parted ((k _).run _).2 ∨ ((k' _).run _).1 = ((k _).run _).1 ∧
    R ((k _).run _).2 ((k' _).run _).2
  rcases htells env with hparted | htruth
  · exact Or.inl (hkept _ _ hparted)
  · rcases hm.step env env' h with hparted | ⟨hresult, hrelated⟩
    · exact Or.inl (hkept _ _ hparted)
    · rw [hresult]
      exact (hk _ htruth).step _ _ hrelated

namespace Control

variable {named : String → Prop} {parted : Env H → Prop} {R : Env H → Env H → Prop} {t : Truth}
  {before rest rest' : List (Arg H)} {arg : Arg H}

/-- A conjunction ends with the first argument that is not true. -/
theorem paired_conjunction_of_tells (ht : t.isTrue = false)
    (hbefore : List.Forall₂ (Arg.Pairs named parted R) before before)
    (harg : Paired parted R arg.eval arg.eval)
    (htells : ∀ env, parted (arg.eval.run env).2 ∨ (arg.eval.run env).1.truth = t)
    (hrest : List.Forall₂ (Arg.Pairs named parted R) rest rest) (settled : Bool) :
    Paired parted R (conjunction settled (before ++ arg :: rest))
      (conjunction settled (before ++ arg :: rest')) := by
  induction before generalizing settled with
  | nil =>
    refine harg.bind_of_tells htells (fun v env => ?_) fun v hv => ?_
    · cases v.truth with
      | knownTrue => exact (paired_conjunction hrest settled).kept env
      | trueNow => exact (paired_conjunction hrest false).kept env
      | falseNow | knownFalse | unknown => exact id
    · subst hv
      cases htruth : v.truth with
      | knownTrue | trueNow =>
        rw [htruth] at ht
        cases ht
      | falseNow | knownFalse | unknown => exact paired_pure _
  | cons other before ih =>
    obtain ⟨hother, hbefore⟩ := List.forall₂_cons.1 hbefore
    refine hother.eval.bind fun v => ?_
    cases v.truth with
    | knownTrue => exact ih hbefore settled
    | trueNow => exact ih hbefore false
    | falseNow | knownFalse | unknown => exact paired_pure _

/-- A disjunction ends with the first argument that is true. -/
theorem paired_disjunction_of_tells (ht : t.isTrue = true)
    (hbefore : List.Forall₂ (Arg.Pairs named parted R) before before)
    (harg : Paired parted R arg.eval arg.eval)
    (htells : ∀ env, parted (arg.eval.run env).2 ∨ (arg.eval.run env).1.truth = t)
    (hrest : List.Forall₂ (Arg.Pairs named parted R) rest rest) (sofar : Truth) :
    Paired parted R (disjunction sofar (before ++ arg :: rest))
      (disjunction sofar (before ++ arg :: rest')) := by
  induction before generalizing sofar with
  | nil =>
    refine harg.bind_of_tells htells (fun v env => ?_) fun v hv => ?_
    · cases v.truth with
      | knownTrue | trueNow => exact id
      | knownFalse => exact (paired_disjunction hrest sofar).kept env
      | falseNow => exact (paired_disjunction hrest _).kept env
      | unknown => exact (paired_disjunction hrest .unknown).kept env
    · subst hv
      cases htruth : v.truth with
      | knownTrue | trueNow => exact paired_pure _
      | falseNow | knownFalse | unknown =>
        rw [htruth] at ht
        cases ht
  | cons other before ih =>
    obtain ⟨hother, hbefore⟩ := List.forall₂_cons.1 hbefore
    refine hother.eval.bind fun v => ?_
    cases v.truth with
    | knownTrue | trueNow => exact paired_pure _
    | knownFalse => exact ih hbefore sofar
    | falseNow => exact ih hbefore _
    | unknown => exact ih hbefore .unknown

/-- Actions whose condition is not true are not run. -/
theorem paired_actions_of_tells [Host H] {c : Control} (hc : c = .when ∨ c = .everyTime)
    (formula : String) (ht : t.isTrue = false) (harg : Paired parted R arg.eval arg.eval)
    (htells : ∀ env, parted (arg.eval.run env).2 ∨ (arg.eval.run env).1.truth = t)
    (hrest : List.Forall₂ (Arg.Pairs named parted R) rest rest) :
    Paired parted R (c.run formula (arg :: rest)) (c.run formula (arg :: rest')) := by
  have hrun := paired_runAll hrest
  have hfalse {v : Value} (hv : v.truth = t) : ¬ v.truth.isTrue = true := by
    rw [hv, ht]
    exact Bool.false_ne_true
  rcases hc with rfl | rfl
  · refine harg.bind_of_tells htells (fun v env => ?_) fun v hv => ?_
    · dsimp only
      split
      · exact (hrun.bind_pure _).kept env
      · exact id
    · dsimp only
      rw [if_neg (hfalse hv), if_neg (hfalse hv)]
      exact paired_pure _
  · refine harg.bind_of_tells htells (fun v env => ?_) fun v hv => ?_
    · dsimp only
      split
      · exact (hrun.bind_pure _).kept env
      · exact id
    · have hfalse : ¬ v.isTrue = true := hfalse hv
      dsimp only
      rw [if_neg hfalse, if_neg hfalse]
      exact paired_pure _

/-- Of two branches at most one is taken. -/
theorem paired_branches_of_tells [Host H] {yes yes' no no' : Arg H} (formula : String)
    (harg : Paired parted R arg.eval arg.eval)
    (htells : ∀ env, parted (arg.eval.run env).2 ∨ (arg.eval.run env).1.truth = t)
    (hyesKept : Paired parted R yes.eval yes.eval) (hnoKept : Paired parted R no.eval no.eval)
    (hyes : t.isTrue = true → Paired parted R yes.eval yes'.eval)
    (hno : t ≠ .unknown → t.isTrue = false → Paired parted R no.eval no'.eval) :
    Paired parted R (ifThenElse.run formula [arg, yes, no]) (ifThenElse.run formula [arg, yes', no']) := by
  refine harg.bind_of_tells htells (fun v env => ?_) fun v hv => ?_
  · dsimp only
    split
    · exact id
    · split
      · exact (hyesKept.bind_pure _).kept env
      · exact (hnoKept.bind_pure _).kept env
  · subst hv
    dsimp only
    split
    · exact paired_pure _
    · next hknown =>
      split
      · next htrue => exact (hyes htrue).bind_pure _
      · next hfalse => exact (hno hknown (Bool.not_eq_true _ ▸ hfalse)).bind_pure _

end Control

namespace Evaluation

theorem childArgs_append [Host H] (registry : Registry) (formula : String) (path : Path) (index : Nat)
    (xs ys : List Node) : childArgs (H := H) registry formula path index (xs ++ ys) =
      childArgs registry formula path index xs ++
        childArgs registry formula path (index + xs.length) ys := by
  induction xs generalizing index with
  | nil => rfl
  | cons x xs ih =>
    rw [List.cons_append, childArgs, ih, childArgs, List.cons_append, List.length_cons,
      Nat.add_right_comm, Nat.add_assoc]

variable [Host H] {registry : Registry} {formula : String} {path : Path}

/-- Evaluating a node gives what is expected of it, or contradicts it. -/
theorem contradicts_or_truth_eq (registry : Registry) (formula : String) (path : Path) (t : Truth)
    (n : Node) (env : Env H) :
    Env.Contradicts path t ((evalNode registry formula path n).run env).2 ∨
      ((evalNode registry formula path n).run env).1.truth = t := by
  by_cases htruth : ((evalNode registry formula path n).run env).1.truth = t
  · exact Or.inr htruth
  · refine Or.inl ⟨_, ?_, htruth⟩
    cases n with
    | atom | list =>
      rw [evalNode]
      exact returns_visit ..

/-- Where an argument says what spares others, a control does the same whatever the others are. -/
theorem paired_run_of_spares {c : Control} {i : Nat} {t : Truth} {args args' : List Node}
    (h : c.Spares i t args args') :
    Paired (Env.Contradicts (H := H) (path.child i) t) Env.SameCourse
      (c.run formula (childArgs registry formula path 1 args))
      (c.run formula (childArgs registry formula path 1 args')) := by
  have hR := Env.mirrors_sameCourse (H := H) formula
  have hparted := Env.isFinal_contradicts (H := H) (path.child i) t
  have hself (place : Path) (n : Node) := paired_evalNode hR hparted registry place n fun _ _ _ _ => trivial
  have hrow (index : Nat) (nodes : List Node) :=
    pairs_childArgs hR hparted registry path index nodes fun _ _ _ _ => trivial
  have htells (n : Node) := contradicts_or_truth_eq (H := H) registry formula (path.child i) t n
  cases h with
  | and ht before n rest rest' =>
    rw [childArgs_append, childArgs_append, childArgs, childArgs, Nat.add_comm 1]
    exact (Control.paired_conjunction_of_tells ht (hrow 1 before) (hself _ n) (htells n)
      (hrow _ rest) true).bind_pure _
  | or ht before n rest rest' =>
    rw [childArgs_append, childArgs_append, childArgs, childArgs, Nat.add_comm 1]
    exact (Control.paired_disjunction_of_tells ht (hrow 1 before) (hself _ n) (htells n)
      (hrow _ rest) .knownFalse).bind_pure _
  | «when» ht condition =>
    exact Control.paired_actions_of_tells (Or.inl rfl) formula ht (hself _ condition) (htells condition)
      (hrow 2 _)
  | everyTime ht condition =>
    exact Control.paired_actions_of_tells (Or.inr rfl) formula ht (hself _ condition) (htells condition)
      (hrow 2 _)
  | yes ht condition yes yes' no =>
    exact Control.paired_branches_of_tells formula (hself _ condition) (htells condition) (hself _ yes)
      (hself _ no) (fun htrue => absurd (htrue.symm.trans ht) nofun) fun _ _ => hself _ no
  | no ht condition yes no no' =>
    exact Control.paired_branches_of_tells formula (hself _ condition) (htells condition) (hself _ yes)
      (hself _ no) (fun _ => hself _ yes) fun _ hfalse => absurd (hfalse.symm.trans ht) nofun
  | branches condition yes yes' no no' =>
    exact Control.paired_branches_of_tells formula (hself _ condition) (htells condition) (hself _ yes)
      (hself _ no) nofun fun hknown => absurd rfl hknown

theorem paired_spared {c : Control} {name : String}
    (hget : registry.get? name = some (Builtin.control c).operator) {i headOffset offset : Nat}
    {t : Truth} {args args' : List Node} (h : c.Spares i t args args') :
    Paired (Env.Contradicts (H := H) (path.child i) t) Env.SameCourse
      (evalNode registry formula path (.list (.atom (.operator name) headOffset :: args) offset))
      (evalNode registry formula path (.list (.atom (.operator name) headOffset :: args') offset)) := by
  obtain ⟨hcount, hcount'⟩ := h.acceptsCount
  rw [← length_childArgs (H := H) registry formula path 1] at hcount hcount'
  rw [evalNode, evalNode, childArgs, childArgs, List.tail_cons, List.tail_cons, Node.headName?,
    Node.headName?, apply_control hget formula path hcount, apply_control hget formula path hcount']
  refine paired_visit (Env.mirrors_sameCourse formula) (Env.isFinal_contradicts _ t) path ?_ ?_
    (paired_run_of_spares h)
  · rfl
  · exact fun _ _ hsame => hsame.record rfl

variable {parted : Env H → Prop}

/-- Children of which one is another node. -/
theorem pairs_childArgs_modify (hparted : Env.IsFinal parted) {f : Node → Node} {index i : Nat}
    {nodes : List Node} {n : Node} (hi : nodes[i]? = some n)
    (hname : (f n).variableName? = n.variableName?) (hkind : (f n).kind = n.kind)
    (hpaired : Paired parted Env.SameCourse (evalNode registry formula (path.child (index + i)) n)
      (evalNode registry formula (path.child (index + i)) (f n))) :
    List.Forall₂ (Arg.Pairs (fun _ => True) parted Env.SameCourse)
      (childArgs registry formula path index nodes)
      (childArgs registry formula path index (nodes.modify i f)) := by
  have hR := Env.mirrors_sameCourse (H := H) formula
  induction nodes generalizing index i with
  | nil => cases hi
  | cons head rest ih =>
    cases i with
    | zero =>
      obtain rfl := Option.some.inj hi
      rw [List.modify_zero_cons, childArgs, childArgs]
      exact .cons ⟨rfl, hname, hkind, fun _ _ => trivial, hpaired⟩
        (pairs_childArgs hR hparted registry path (index + 1) rest fun _ _ _ _ => trivial)
    | succ i =>
      rw [List.modify_succ_cons, childArgs, childArgs]
      refine .cons ⟨rfl, rfl, rfl, fun _ _ => trivial, ?_⟩ (ih hi ?_)
      · exact paired_evalNode hR hparted registry _ head fun _ _ _ _ => trivial
      · rwa [show index + 1 + i = index + (i + 1) by omega]

/-- What a list is replaced by is evaluated as the list is, so everything above it is as well. -/
theorem paired_replace (hparted : Env.IsFinal parted) {xs ys : List Node} {offset : Nat} {n : Node}
    {below : Path} (hn : n.at? below = some (.list xs offset))
    (hpaired : Paired parted Env.SameCourse (evalNode registry formula (path ++ below) (.list xs offset))
      (evalNode registry formula (path ++ below) (.list ys offset))) :
    Paired parted Env.SameCourse (evalNode registry formula path n)
      (evalNode registry formula path (n.replace below (.list ys offset))) := by
  induction below generalizing n path with
  | nil =>
    obtain rfl := Option.some.inj ((Node.at?_nil n).symm.trans hn)
    rwa [List.append_nil] at hpaired
  | cons i rest ih =>
    cases n with
    | atom a start => cases hn
    | list children start =>
      obtain ⟨child, hi, hchild⟩ := Option.bind_eq_some_iff.1 hn
      rw [List.append_cons, ← Nat.zero_add i] at hpaired
      have hbelow := ih hchild hpaired
      obtain ⟨inner, inner', start', rfl, hreplace⟩ := Node.exists_list_of_replace ys hchild
      replace hi : children[i]? = some (.list inner start') := hi
      have hargs := List.forall₂_drop 1 (pairs_childArgs_modify
        (f := (·.replace rest (.list ys offset))) hparted hi (hreplace ▸ rfl) (hreplace ▸ rfl) hbelow)
      rw [List.drop_one, List.drop_one] at hargs
      rw [Node.replace, evalNode, evalNode, Node.headName?_modify hi hreplace]
      refine paired_visit (Env.mirrors_sameCourse formula) hparted path ?_ ?_
        (paired_apply (Env.mirrors_sameCourse formula) hparted registry path _ hargs)
      · rfl
      · exact fun _ _ hsame => hsame.record rfl

end Evaluation

/-- In the evaluation of a formula a node is left once at most, so one thing is said of it. -/
theorem told?_of_returns [Host H] {registry : Registry} {formula : String} {root : Node} {env : Env H}
    {path : Path} {v : Value}
    (h : Visit.Returns ((evaluate registry formula root).run env).2.trace.toList path v) :
    ((evaluate registry formula root).run env).2.trace.toList.findSome? (Visit.told? path) =
      some v.truth := by
  have hrun : (evaluate registry formula root).run env =
      (Evaluation.evalNode registry formula [] root).run { env with trace := #[] } := rfl
  obtain ⟨inner, env₁, outcome, hinner, -, hresult⟩ := Evaluation.visits_evalNode registry
    formula root [] root (Node.at?_nil root) { env with trace := #[] }
  have htrace : ((evaluate registry formula root).run env).2.trace.toList =
      .enter [] root :: (inner ++ [.leave [] outcome]) := by
    rw [hrun, hresult, Env.trace_close, Array.toList_push, hinner.account.trace]
    rfl
  rw [htrace] at h ⊢
  obtain ⟨outcome', hleave, rfl⟩ := h
  rw [List.findSome?_cons_of_isNone rfl, List.findSome?_append]
  rw [List.mem_cons, List.mem_append, List.mem_singleton] at hleave
  rcases hleave with hleave | hleave | hleave
  · cases hleave
  · rw [hinner.tour.findSome?_told? hleave, Option.some_or]
  · cases hleave
    have hbelow : inner.findSome? (Visit.told? []) = none := by
      refine Tour.findSome?_told?_eq_none fun visit hvisit heq => ?_
      obtain ⟨i, below, -, hpath⟩ := hinner.tour.path_of_mem visit hvisit
      rw [hpath] at heq
      cases heq
    rw [hbelow, Option.none_or, List.findSome?_cons]
    simp [Visit.told?]

/-- Once an argument of a control in a formula has said what spares other arguments, any nodes can stand
    in their places: the formula has the same value, leaves the same behind, and goes the same way. All
    its nodes are left with the same outcomes in the same order, and so is the one that applies the
    control. -/
theorem evaluate_spared [Host H] {registry : Registry} {c : Control} {name : String}
    (hget : registry.get? name = some (Builtin.control c).operator) {root : Node} {path : Path}
    {args args' : List Node} {i headOffset offset : Nat} {t : Truth}
    (hroot : root.at? path = some (.list (.atom (.operator name) headOffset :: args) offset))
    (hspares : c.Spares i t args args') (formula : String) (env : Env H) :
    let root' := root.replace path (.list (.atom (.operator name) headOffset :: args') offset)
    let run := (evaluate registry formula root).run env
    let run' := (evaluate registry formula root').run env
    run.2.trace.toList.findSome? (Visit.told? (path.child i)) = some t →
      run'.1 = run.1 ∧ run.2.SameCourse run'.2 ∧
        ∀ v, Visit.Returns run'.2.trace.toList path v ↔ Visit.Returns run.2.trace.toList path v := by
  intro root' run run' hsaid
  have hpaired : Paired (Env.Contradicts (H := H) (path.child i) t) Env.SameCourse
      (Evaluation.evalNode registry formula [] root) (Evaluation.evalNode registry formula [] root') :=
    Evaluation.paired_replace (Env.isFinal_contradicts _ t) hroot
      (Evaluation.paired_spared hget hspares)
  rcases hpaired.step { env with trace := #[] } { env with trace := #[] } ⟨#[], rfl, rfl⟩
    with ⟨v, hreturns, hv⟩ | ⟨hvalue, hcourse⟩
  · have htells : run.2.trace.toList.findSome? (Visit.told? (path.child i)) = some v.truth :=
      told?_of_returns hreturns
    exact absurd (Option.some.inj (htells.symm.trans hsaid)) hv
  · exact ⟨hvalue, hcourse, fun v => hcourse.returns_iff⟩

namespace Ambush

def apply (name : String) (args : List Node) : Node :=
  .list (.atom (.operator name) 0 :: args) 0

/-- A condition that waits for its time, and sends a message then. -/
def waiting : List Node :=
  [apply "has-time-elapsed" [.atom (.number 5) 0],
    apply "send-message" [.atom (.text "Alpha") 0, .atom (.text "Now!") 0]]

/-- The same time, before what would change a lot. -/
def rash : List Node :=
  [apply "has-time-elapsed" [.atom (.number 5) 0], apply "rand" [.atom (.number 1) 0, .atom (.number 6) 0],
    apply "self-destruct" [.atom (.text "Ranger") 0], apply "no-such-operator" [.atom (.variable "fuel") 0]]

/-- A formula that destroys a ship when its condition holds. -/
def root : Node :=
  apply "when" [apply "and" waiting, apply "self-destruct" [.atom (.text "Ranger") 0]]

/-- A game of two seconds with this ship. -/
def env : Env Simulation :=
  let game := Simulation.start ⟨[⟨"Ranger", some 0, none, none, 100⟩], []⟩ (.rolls [4])
  .start (game.setTime 2) .empty .empty #[]

end Ambush

/-- As long as it is not time, it makes no difference what comes after it. -/
theorem evaluate_spared_ambush :
    let rash := Ambush.root.replace [1] (.list (.atom (.operator "and") 0 :: Ambush.rash) 0)
    let run := (evaluate Registry.builtin "ambush" Ambush.root).run Ambush.env
    let run' := (evaluate Registry.builtin "ambush" rash).run Ambush.env
    Registry.builtin.get? "and" = some (Builtin.control .and).operator ∧
      Ambush.root.at? [1] = some (.list (.atom (.operator "and") 0 :: Ambush.waiting) 0) ∧
      Control.and.Spares 1 .falseNow Ambush.waiting Ambush.rash ∧
      run.2.trace.toList.findSome? (Visit.told? (Path.child [1] 1)) = some .falseNow ∧
      (run.1 = .number 0 ∧ run.2.trace.size = 8) ∧
      run'.1 = run.1 ∧ run.2.SameCourse run'.2 ∧
        ∀ v, Visit.Returns run'.2.trace.toList [1] v ↔ Visit.Returns run.2.trace.toList [1] v := by
  have hname : "and" = (Builtin.control .and).definition.name := rfl
  have hget : Registry.builtin.get? "and" = some (Builtin.control .and).operator := by
    rw [hname, Registry.get?_builtin]
  have hroot : Ambush.root.at? [1] =
      some (.list (.atom (.operator "and") 0 :: Ambush.waiting) 0) := rfl
  have hspares : Control.and.Spares 1 .falseNow Ambush.waiting Ambush.rash :=
    .and rfl [] (Ambush.apply "has-time-elapsed" [.atom (.number 5) 0]) _ _
  have hsaid : ((evaluate Registry.builtin "ambush" Ambush.root).run Ambush.env).2.trace.toList.findSome?
      (Visit.told? (Path.child [1] 1)) = some .falseNow := by
    rw [Registry.builtin_eq]
    decide +kernel
  have hrun :
      let run := (evaluate Registry.builtin "ambush" Ambush.root).run Ambush.env
      run.1 = .number 0 ∧ run.2.trace.size = 8 := by
    rw [Registry.builtin_eq]
    decide +kernel
  exact ⟨hget, hroot, hspares, hsaid, hrun, evaluate_spared hget hroot hspares "ambush" Ambush.env hsaid⟩

end MissionScript

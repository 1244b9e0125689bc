import MissionScript.Proofs.Formula.Soundness
import MissionScript.Proofs.Typing.Application
import MissionScript.Game.Simulation

/-!
Formulas in which validation finds nothing wrong do not go wrong. While such a formula is evaluated,
every node gives what its operator promises, and the only error about the kind of a value is the one
of storing a value of the wrong type.
-/

namespace MissionScript

namespace Node

/-- Whether the outcome of a node is one that validation promises. An application is unknown or
    gives what its operator returns. An error is a failure that is not about kinds, or is raised by
    storing a value of the wrong type. -/
def Allows (n : Node) : Except EvalError Value → Prop
  | .ok v => ∀ operator, n.operator?.bind Registry.builtin.get? = some operator →
    v = .unknown ∨ operator.signature.returns.Promises v
  | .error e => (∃ name reason, e = .failed name reason) ∨
    (e.IsStoreMismatch ∧ n.operator?.bind Registry.builtin.get? =
      some (Builtin.control .modifyVariable).operator)

theorem allows_of_builtin {n : Node} {b : Builtin} {outcome : Except EvalError Value}
    (hoperator : n.operator?.bind Registry.builtin.get? = some b.operator)
    (houtcome : b.Allows outcome) : n.Allows outcome := by
  cases outcome with
  | ok v =>
    rintro operator hother
    obtain rfl := Option.some.inj (hoperator.symm.trans hother)
    rcases houtcome with hreturns | ⟨-, e, heq, -⟩
    · exact hreturns
    · cases heq
  | error e =>
    rcases houtcome with hfailed | ⟨rfl, e', heq, hmismatch⟩
    · exact Or.inl hfailed
    · obtain rfl := Except.error.inj heq
      exact Or.inr ⟨hmismatch, hoperator⟩

end Node

/-- Whether a step of an evaluation is one that validation promises: a node of the formula is left,
    with an outcome that is allowed there. -/
def Visit.IsSound (root : Node) : Visit → Prop
  | .enter .. => True
  | .leave path outcome => ∃ n, root.at? path = some n ∧ n.Allows outcome

namespace Env

variable {H : Type}

/-- What holds while a formula is evaluated in which validation finds nothing wrong. -/
structure IsSound (declared : Variables) (root : Node) (env : Env H) : Prop where
  vars : env.vars.Realizes declared
  trace : ∀ visit ∈ env.trace, visit.IsSound root

theorem stable_isSound [Host H] (declared : Variables) (root : Node) :
    Stable (IsSound (H := H) declared root) := by
  intro env env' heffect henv
  constructor
  · rcases heffect.vars with hvars | ⟨name, value, hset⟩
    · rw [hvars]
      exact henv.vars
    · exact henv.vars.set hset
  · rw [heffect.trace_eq]
    exact henv.trace

theorem IsSound.record {declared : Variables} {root : Node} {env : Env H}
    (h : IsSound declared root env) {visit : Visit} (hvisit : visit.IsSound root) :
    IsSound declared root (env.record visit) := by
  refine ⟨h.vars, ?_⟩
  intro other hother
  rcases Array.mem_push.1 hother with hold | rfl
  · exact h.trace other hold
  · exact hvisit

end Env

namespace Evaluation

variable {H : Type} [Host H] {declared : Variables} {root : Node}

/-- A visit to a node of a formula, if nothing but what is allowed comes of it. -/
theorem ensures_visit_sound {formula : String} {path : Path} {n : Node}
    {attempt : EvalM H (Except EvalError Value)} (hat : root.at? path = some n)
    (hdepth : path.length < maxEvalDepth)
    (hattempt : Ensures (Env.IsSound declared root) attempt fun outcome =>
      n.Allows outcome ∧ ∀ v, outcome = .ok v → n.MayBe declared v) :
    Ensures (Env.IsSound declared root) (visit formula path n attempt) (n.MayBe declared) := by
  refine (ensures_visit (Env.stable_isSound declared root).steady.calm hattempt
    (fun hdeep => absurd hdeep (by omega)) (fun env henv => henv.record trivial)
    (fun env outcome hQ henv => henv.record ⟨n, hat, hQ.1⟩)).mono fun v hv => ?_
  rcases hv with rfl | ⟨-, hv⟩
  · exact Or.inl rfl
  · exact hv v rfl

theorem ensures_evalNode_atom {a : Atom} {offset : Nat} (formula : String) {path : Path}
    (hat : root.at? path = some (.atom a offset)) (hdepth : path.length < maxEvalDepth)
    (hvalue : ∀ vars : Variables, vars.Realizes declared →
      ∃ v, atomValue vars a = .ok v ∧ (Node.atom a offset).MayBe declared v) :
    Ensures (Env.IsSound declared root)
      (evalNode (H := H) Registry.builtin formula path (.atom a offset))
      ((Node.atom a offset).MayBe declared) := by
  rw [evalNode]
  refine ensures_visit_sound hat hdepth (ensures_get.bind fun env henv => ensures_pure ?_)
  obtain ⟨v, hv, hmay⟩ := hvalue env.vars henv.vars
  rw [hv]
  refine ⟨?_, ?_⟩
  · rintro operator ⟨⟩
  · rintro v ⟨⟩
    exact hmay

/-- Evaluating a node that fits together gives what it promises, and so do all nodes below. -/
theorem ensures_evalNode (formula : String) {n : Node} (h : n.Checked declared) {path : Path}
    (hat : root.at? path = some n) (hdepth : n.nesting + path.length < maxEvalDepth) :
    Ensures (Env.IsSound declared root) (evalNode (H := H) Registry.builtin formula path n)
      (n.MayBe declared) := by
  induction h generalizing path with
  | number x offset =>
    exact ensures_evalNode_atom formula hat (by omega) fun vars _ => ⟨_, rfl, Or.inr ⟨x, rfl⟩⟩
  | text s offset =>
    exact ensures_evalNode_atom formula hat (by omega) fun vars _ => ⟨_, rfl, Or.inr ⟨s, rfl⟩⟩
  | @«variable» name offset hdeclared =>
    refine ensures_evalNode_atom formula hat (by omega) fun vars hvars => ?_
    obtain ⟨v, hv⟩ := hvars.declares hdeclared
    exact ⟨v.value.toValue, by rw [atomValue, hv], Or.inr (hvars.promises hv offset)⟩
  | @application name args b headOffset offset hget hb hcount hfits hargs ih =>
    rw [Node.nesting_application] at hdepth
    have hchild (i : Nat) (arg : Node) (hi : args[i]? = some arg) :
        root.at? (path.child (1 + i)) = some arg := by
      rw [Node.at?_child, hat, Option.bind_some]
      change (Node.atom _ headOffset :: args)[1 + i]? = some arg
      rwa [Nat.add_comm, List.getElem?_cons_succ]
    have hfitting : Fitting (Env.IsSound (H := H) declared root) declared b
        (childArgs Registry.builtin formula path 1 args) := by
      refine ⟨by rwa [length_childArgs], ?_, ?_, ?_⟩
      · intro arg harg
        obtain ⟨i, n, hi, rfl⟩ := exists_of_mem_childArgs harg
        exact hargs n (List.mem_of_getElem? hi)
      · intro i arg harg
        rw [getElem?_childArgs, Option.map_eq_some_iff] at harg
        obtain ⟨n, hi, rfl⟩ := harg
        exact hfits i n hi
      · intro arg harg
        obtain ⟨i, n, hi, rfl⟩ := exists_of_mem_childArgs harg
        have hmem := List.mem_of_getElem? hi
        have hnesting := Node.nestingAll_le_iff.1 le_rfl n hmem
        refine ih n hmem (hchild i n hi) ?_
        rw [Path.length_child]
        omega
    have hoperator : (Node.list (.atom (.operator name) headOffset :: args) offset).operator?.bind
        Registry.builtin.get? = some b.operator := by
      rw [Node.operator?, Node.children, Node.headName?, Option.bind_some, hget]
    rw [evalNode, childArgs, List.tail_cons]
    refine ensures_visit_sound hat (by omega) ?_
    refine (ensures_apply (Env.stable_isSound declared root) (fun env henv => henv.vars) hb hget
      formula path hfitting).mono fun outcome houtcome => ⟨Node.allows_of_builtin hoperator houtcome, ?_⟩
    rintro v rfl
    have hgives : (Node.list (.atom (.operator name) headOffset :: args) offset).gives declared =
        b.operator.signature.returns := by
      rw [Node.gives, Node.headName?, Option.bind_some, hget]
      rfl
    rw [Node.MayBe, hgives]
    rcases houtcome with hreturns | ⟨-, e, heq, -⟩
    · exact hreturns
    · cases heq

end Evaluation

/-- Validated formulas do not go wrong. If validation finds nothing wrong with a formula without
    conditionals that is at most 511 lists deep, then wherever it is evaluated with the variables
    that it was checked against, no node raises an error but failures that are not about kinds and
    the one of storing a value of the wrong type, and every application is unknown or gives what
    its operator promises, whatever the game and the ledger are. -/
theorem evaluate_of_validate {H : Type} [Host H] {known : String → Bool} {options : ParseOptions}
    {text : String} {f : Formula} {declared : Variables} {id : String}
    (hparse : parseChars known options text.toList = .ok f) (hdepth : f.root.nesting ≤ 511)
    (huses : ¬f.root.Uses "if-then-else")
    (hvalid : validate id Registry.builtin (some declared) f = []) (formula : String) (env : Env H)
    (hvars : env.vars.Realizes declared) :
    ∀ visit ∈ ((evaluate Registry.builtin formula f.root).run env).2.trace, visit.IsSound f.root := by
  obtain ⟨hwell, -, -⟩ := wellFormed_of_parseChars hparse
  have hchecked := Node.checked_of_validate hwell huses hvalid
  have hdepth' : f.root.nesting + ([] : Path).length < maxEvalDepth := by
    rw [List.length_nil, maxEvalDepth]
    omega
  have hroot := Evaluation.ensures_evalNode (H := H) formula hchecked (Node.at?_nil f.root) hdepth'
  have hstart : Env.IsSound declared f.root { env with trace := #[] } := ⟨hvars, by simp⟩
  exact (hroot _ hstart).2.trace

/-- A formula that waits for a time and then sends a message. -/
theorem evaluate_of_validate_message : ∃ f,
    parseChars (fun _ => true) .default
      "(when (has-time-elapsed 5) (send-message \"Command\" \"Go\"))".toList = .ok f ∧
    validate "start" Registry.builtin (some .empty) f = [] ∧
    ∀ visit ∈ ((evaluate Registry.builtin "start" f.root).run
      (Env.start (Simulation.start .empty (.rolls [])) .empty .empty #[])).2.trace,
      visit.IsSound f.root := by
  have hcheck : ((parseChars (fun _ => true) .default
      "(when (has-time-elapsed 5) (send-message \"Command\" \"Go\"))".toList).toOption.any fun f =>
        decide (f.root.nesting ≤ 511) &&
          (f.root.walk.all fun place =>
            place.2.operator?.all fun name => !sameName name "if-then-else") &&
          decide (validate "start" Registry.builtin (some .empty) f = [])) = true := by decide +kernel
  cases hparse : parseChars (fun _ => true) .default
      "(when (has-time-elapsed 5) (send-message \"Command\" \"Go\"))".toList with
  | error e =>
    rw [hparse] at hcheck
    cases hcheck
  | ok f =>
    simp only [hparse, Except.toOption, Option.any_some, Bool.and_eq_true, decide_eq_true_eq] at hcheck
    obtain ⟨⟨hdepth, huses⟩, hvalid⟩ := hcheck
    have huses' : ¬f.root.Uses "if-then-else" := by
      rintro ⟨place, hplace, name, hname, hsame⟩
      have hother := List.all_eq_true.1 huses place hplace
      rw [hname] at hother
      simp [hsame] at hother
    have hvars : (Variables.Realizes .empty .empty) := ⟨fun _ => rfl, by rintro name v ⟨⟩⟩
    exact ⟨f, rfl, hvalid, evaluate_of_validate hparse hdepth huses' hvalid "start" _ hvars⟩

end MissionScript

import MissionScript.Proofs.Evaluation.Ensures
import MissionScript.Proofs.Typing.Answer
import MissionScript.Proofs.Typing.Checked
import MissionScript.Proofs.Variable.Store

/-!
Applying built-in operators to arguments that fit. The arguments are only known by what their nodes
give; from this follows what the operators that evaluate them first are applied to, and what the
others make of them.
-/

namespace MissionScript

/-- Whether a store has the variables of another one, with their types, and values of these types. -/
structure Variables.Realizes (vars declared : Variables) : Prop where
  types : ∀ name, (vars.get? name).map Variable.type = (declared.get? name).map Variable.type
  values : ∀ name v, vars.get? name = some v → v.value.type = v.type

namespace Variables

variable {vars declared : Variables}

theorem Realizes.declares (h : vars.Realizes declared) {name : String}
    (hname : declared.declares name = true) : ∃ v, vars.get? name = some v := by
  obtain ⟨d, hd⟩ := Option.isSome_iff_exists.1 hname
  have htypes := h.types name
  rw [show declared.get? name = some d from hd] at htypes
  obtain ⟨v, hv, -⟩ := Option.map_eq_some_iff.1 htypes
  exact ⟨v, hv⟩

/-- The value of a variable is of the kind that its declaration promises. -/
theorem Realizes.promises (h : vars.Realizes declared) {name : String} {v : Variable}
    (hv : vars.get? name = some v) (offset : Nat) :
    ((Node.atom (.variable name) offset).gives declared).Promises v.value.toValue := by
  have htypes := h.types name
  rw [hv] at htypes
  obtain ⟨d, hd, htype⟩ := Option.map_eq_some_iff.1 htypes.symm
  have hvalue := h.values name v hv
  have hgives : (Node.atom (.variable name) offset).gives declared = v.type.gives := by
    rw [Node.gives, hd, ← htype]
    rfl
  rw [hgives, ← hvalue]
  cases v.value with
  | number x => exact ⟨x, rfl⟩
  | string s => exact ⟨s, rfl⟩

/-- Storing a value keeps the variables and their types. -/
theorem Realizes.set (h : vars.Realizes declared) {name : String} {value : Stored}
    {after : Variables} (hset : vars.set name value = .ok after) : after.Realizes declared := by
  obtain ⟨v, hv, htype, hafter⟩ := get?_set hset
  constructor
  · intro other
    rw [hafter other, ← h.types other]
    split
    · next hsame =>
      have hother : vars.get? other = some v := by
        rw [get?, hsame]
        exact hv
      rw [hother]
      rfl
    · rfl
  · intro other u hu
    rw [hafter other] at hu
    split at hu
    · obtain rfl := Option.some.inj hu
      exact htype.symm
    · exact h.values other u hu

end Variables

/-- The error of storing a value of the wrong type, which is found only then. -/
def EvalError.IsStoreMismatch (e : EvalError) : Prop :=
  ∃ expected found, e = .argumentMismatch Control.modifyVariable.definition.name 1 expected found

/-- Whether the outcome of applying a built-in operator is as validation promises. -/
def Builtin.Allows (b : Builtin) (outcome : Except EvalError Value) : Prop :=
  b.operator.signature.returns.Allows outcome ∨
    (b = .control .modifyVariable ∧ ∃ e, outcome = .error e ∧ e.IsStoreMismatch)

namespace Control

variable {H : Type} {I : Env H → Prop} {declared : Variables}

/-- Storing a value in a declared variable succeeds, or fails for the type of the value. -/
theorem allows_store {env : Env H} (henv : env.vars.Realizes declared) {name : String}
    (hname : declared.declares name = true) (value : Value) :
    (Builtin.control .modifyVariable).Allows
      (store Control.modifyVariable.definition.name name value env).1 := by
  obtain ⟨v, hv⟩ := henv.declares hname
  unfold store
  split
  · exact Or.inl (Or.inl rfl)
  · next hknown =>
    obtain ⟨stored, hstored⟩ : ∃ stored, Stored.ofValue? value = some stored := by
      cases value with
      | number x => exact ⟨_, rfl⟩
      | text s => exact ⟨_, rfl⟩
      | unknown => exact absurd rfl hknown
    have hset : env.vars.setValue name value = env.vars.set name stored := by
      rw [Variables.setValue, hstored]
    rw [hset, Variables.set, hv]
    by_cases htype : v.type = stored.type
    · simp only [ne_eq, htype, not_true_eq_false, if_false]
      exact Or.inl (action_allows .trueNow)
    · simp only [ne_eq, htype, not_false_eq_true, if_true]
      exact Or.inr ⟨rfl, _, rfl, _, _, rfl⟩

theorem allows_isSet {vars : Variables} (hvars : vars.Realizes declared) {name : String}
    (hname : declared.declares name = true) :
    (Builtin.control .variableIsSet).Allows (isSet vars name) := by
  obtain ⟨v, hv⟩ := hvars.declares hname
  rw [isSet, hv]
  exact Or.inl (bool_allows _)

/-- What a control that is no conditional gives is as promised, if a variable that it takes by its
    name is declared. -/
theorem ensures_run [Host H] (hI : Env.Stable I) (hvars : ∀ env, I env → env.vars.Realizes declared)
    {c : Control} (hc : c ≠ .ifThenElse) (formula : String) {args : List (Arg H)}
    (hargs : ∀ arg ∈ args, Preserves I arg.eval)
    (hname : c = .modifyVariable ∨ c = .variableIsSet → ∀ arg ∈ args.head?,
      ∃ name offset, arg.node = .atom (.variable name) offset ∧ declared.declares name = true) :
    Ensures I (c.run formula args) (Builtin.control c).Allows := by
  have hmissing (c : Control) (k : Nat) : (Builtin.control c).Allows
      (.error (.failed c.definition.name (.missingArgument k))) := Or.inl (failed_allows _ _ _)
  cases c with
  | and =>
    exact (preserves_conjunction hargs true).bind fun t _ => ensures_pure (Or.inl (boolean_allows t))
  | or =>
    exact (preserves_disjunction hargs .knownFalse).bind fun t _ =>
      ensures_pure (Or.inl (boolean_allows t))
  | andInSequence =>
    refine ensures_get.bind fun earlier hearlier => ?_
    have hlatch := fun (arg : Arg H) (_ : arg ∈ args) env =>
      hI.steady.latch earlier env formula arg.path hearlier
    exact (preserves_latchAll hlatch hargs).bind fun readings _ =>
      ensures_pure (Or.inl (boolean_allows (sequenceTruth readings)))
  | «when» | everyTime =>
    cases args with
    | nil => exact ensures_pure (hmissing _ _)
    | cons condition actions =>
      obtain ⟨hcondition, hactions⟩ := List.forall_mem_cons.1 hargs
      refine hcondition.bind fun v _ => ?_
      dsimp only
      split
      · exact (preserves_runAll hactions).bind fun _ _ => ensures_pure (Or.inl (boolean_allows _))
      · exact ensures_pure (Or.inl (boolean_allows _))
  | ifThenElse => exact absurd rfl hc
  | modifyVariable =>
    rcases args with _ | ⟨ref, _ | ⟨value, rest⟩⟩
    · exact ensures_pure (hmissing _ _)
    · exact ensures_pure (hmissing _ _)
    · obtain ⟨name, offset, hnode, hdeclared⟩ := hname (Or.inl rfl) ref rfl
      have htarget : target Control.modifyVariable.definition.name ref.node = .ok name := by
        rw [hnode]
        rfl
      simp only [List.forall_mem_cons] at hargs
      obtain ⟨-, hvalue, -⟩ := hargs
      unfold run
      simp only [htarget]
      refine hvalue.bind fun v _ => ensures_modifyGet fun env henv => ⟨?_, ?_⟩
      · exact allows_store (hvars env henv) hdeclared v
      · exact store_stable hI.steady _ _ v henv
  | variableIsSet =>
    cases args with
    | nil => exact ensures_pure (hmissing _ _)
    | cons ref rest =>
      obtain ⟨name, offset, hnode, hdeclared⟩ := hname (Or.inr rfl) ref rfl
      have htarget : target Control.variableIsSet.definition.name ref.node = .ok name := by
        rw [hnode]
        rfl
      unfold run
      simp only [htarget]
      exact ensures_get.bind fun env henv => ensures_pure (allows_isSet (hvars env henv) hdeclared)

end Control

/-- A value that is promised by what a constraint accepts is accepted. -/
theorem acceptsValue_of_promises {c : Constraint} {r : ReturnType} {v : Value} (hr : r ≠ .any)
    (hc : c.acceptsReturn r = true) (hv : v = .unknown ∨ r.Promises v) :
    c.acceptsValue v = true := by
  rcases hv with rfl | hpromises
  · cases c <;> rfl
  · cases r with
    | number =>
      obtain ⟨x, rfl⟩ := hpromises
      cases c <;> first | rfl | cases hc
    | string =>
      obtain ⟨s, rfl⟩ := hpromises
      cases c <;> first | rfl | cases hc
    | boolean | action =>
      obtain ⟨t, -, rfl⟩ := hpromises
      cases t <;> cases c <;> first | rfl | cases hc
    | any => exact absurd rfl hr

namespace Node

variable {declared : Variables} {n : Node}

/-- Whether a value is one that a node can have. -/
def MayBe (declared : Variables) (n : Node) (v : Value) : Prop :=
  v = .unknown ∨ (n.gives declared).Promises v

theorem Checked.declares_of_eq {name : String} {offset : Nat} (h : n.Checked declared)
    (heq : n = .atom (.variable name) offset) : declared.declares name = true := by
  cases h with
  | «variable» offset hdeclared =>
    obtain ⟨hatom, -⟩ := Node.atom.inj heq
    obtain rfl := Atom.variable.inj hatom
    exact hdeclared
  | number | text | application => cases heq

/-- Only a conditional gives what nobody knows. -/
theorem Checked.gives_ne_any (h : n.Checked declared) : n.gives declared ≠ .any := by
  cases h with
  | number | text => exact fun heq => by cases heq
  | @«variable» name offset hdeclared =>
    obtain ⟨d, hd⟩ := Option.isSome_iff_exists.1 hdeclared
    rw [gives, show declared.get? name = some d from hd]
    change d.type.gives ≠ .any
    cases d.type <;> exact fun heq => by cases heq
  | @application name args b headOffset offset hget hb hcount hfits hargs =>
    rw [gives, headName?, Option.bind_some, hget]
    change b.operator.signature.returns ≠ .any
    cases b with
    | query q => cases q <;> exact fun heq => by cases heq
    | action a => cases a <;> exact fun heq => by cases heq
    | control c => cases c <;> first | exact absurd rfl hb | exact fun heq => by cases heq

end Node

namespace Evaluation

variable {H : Type} {I : Env H → Prop} {declared : Variables}

/-- What is known of the arguments of an application in which validation finds nothing wrong. -/
structure Fitting (I : Env H → Prop) (declared : Variables) (b : Builtin) (args : List (Arg H)) :
    Prop where
  count : b.operator.signature.acceptsCount args.length = true
  checked : ∀ arg ∈ args, arg.node.Checked declared
  fits : ∀ (i : Nat) (arg : Arg H), args[i]? = some arg →
    arg.node.Fits declared (b.operator.signature.constraintAt i)
  ensures : ∀ arg ∈ args, Ensures I arg.eval (arg.node.MayBe declared)

theorem Fitting.accepts {b : Builtin} {args : List (Arg H)} (h : Fitting I declared b args)
    (hlazy : (Behaviour.builtin b).isLazy = false) {values : List Value}
    (hvalues : List.Forall₂ (fun arg v => arg.node.MayBe declared v) args values) (i : Nat) (v : Value)
    (hv : values[i]? = some v) : (b.operator.signature.constraintAt i).acceptsValue v = true := by
  obtain ⟨hi, rfl⟩ := List.getElem?_eq_some_iff.1 hv
  have hi' : i < args.length := by
    rw [hvalues.length_eq]
    exact hi
  have hat : args[i]? = some args[i] := List.getElem?_eq_getElem hi'
  have hfits := h.fits i _ hat
  rw [Node.Fits, if_neg (constraintAt_ne_variable hlazy i)] at hfits
  exact acceptsValue_of_promises (h.checked _ (List.getElem_mem hi')).gives_ne_any hfits
    (hvalues.get hi' hi)

variable [Host H]

/-- Applied to values that it accepts, an operator that is not lazy gives what it promises. -/
theorem allows_applyEager {b : Builtin} (hlazy : (Behaviour.builtin b).isLazy = false)
    (formula : String) (path : Path) {values : List Value} (env : Env H)
    (hcount : b.operator.signature.acceptsCount values.length = true)
    (haccepts : ∀ i v, values[i]? = some v →
      (b.operator.signature.constraintAt i).acceptsValue v = true) :
    b.Allows (applyEager b.operator formula path values env).1 := by
  unfold applyEager
  rw [if_neg (by simp [hcount]), mismatch?_eq_none haccepts]
  dsimp only
  split
  · exact Or.inl (Or.inl rfl)
  · next hknown =>
    have hvalues (hunknown : b.operator.signature.flags.acceptsUnknown = false) :
        ∀ v ∈ values, v.isUnknown = false := by
      intro v hv
      by_contra hcontra
      refine hknown ?_
      rw [hunknown, Bool.not_false, Bool.true_and, List.any_eq_true]
      exact ⟨v, hv, by simpa using hcontra⟩
    cases b with
    | query q => exact Or.inl (Query.answer_allows q env.host env.ledger ⟨hcount, haccepts, hvalues⟩)
    | action a => exact Or.inl (Action.perform_allows a env ⟨hcount, haccepts, hvalues⟩)
    | control c => cases hlazy

theorem ensures_applyLazy (hI : Env.Stable I) (hvars : ∀ env, I env → env.vars.Realizes declared)
    {c : Control} (hc : c ≠ .ifThenElse) (formula : String) (path : Path) {args : List (Arg H)}
    (h : Fitting I declared (.control c) args) :
    Ensures I (applyLazy (Builtin.control c).operator formula path args)
      (Builtin.control c).Allows := by
  have hname : c = .modifyVariable ∨ c = .variableIsSet → ∀ arg ∈ args.head?,
      ∃ name offset, arg.node = .atom (.variable name) offset ∧ declared.declares name = true := by
    intro hcases arg harg
    have hfits := h.fits 0 arg (by rwa [← List.head?_eq_getElem?])
    have hvariable : (Builtin.control c).operator.signature.constraintAt 0 = .variable := by
      rcases hcases with rfl | rfl <;> rfl
    rw [Node.Fits, if_pos hvariable] at hfits
    obtain ⟨name, offset, hnode⟩ := hfits
    exact ⟨name, offset, hnode, (h.checked arg (List.mem_of_mem_head? harg)).declares_of_eq hnode⟩
  have hcount := h.count
  unfold applyLazy
  rw [if_neg (by simp [hcount])]
  exact Control.ensures_run hI hvars hc formula (fun arg harg => (h.ensures arg harg).preserves) hname

/-- Applying a built-in operator to arguments that fit gives what it promises. -/
theorem ensures_apply (hI : Env.Stable I) (hvars : ∀ env, I env → env.vars.Realizes declared)
    {b : Builtin} (hb : b ≠ .control .ifThenElse) {registry : Registry} {name : String}
    (hget : registry.get? name = some b.operator) (formula : String) (path : Path)
    {args : List (Arg H)} (h : Fitting I declared b args) :
    Ensures I (apply registry formula path (some name) args) b.Allows := by
  have heager (hlazy : (Behaviour.builtin b).isLazy = false) :
      Ensures I (do modifyGet (applyEager b.operator formula path (← evalAll args))) b.Allows := by
    refine (ensures_evalAll h.ensures).bind fun values hvalues => ?_
    refine ensures_modifyGet fun env henv => ⟨?_, applyEager_stable hI.steady.calm _ formula path values henv⟩
    refine allows_applyEager hlazy formula path env ?_ (h.accepts hlazy hvalues)
    rw [← hvalues.length_eq]
    exact h.count
  unfold apply
  simp only [hget]
  cases b with
  | query q => exact heager rfl
  | action a => exact heager rfl
  | control c => exact ensures_applyLazy hI hvars (fun heq => hb (congrArg _ heq)) formula path h

end Evaluation

end MissionScript

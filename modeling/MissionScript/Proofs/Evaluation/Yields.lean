import MissionScript.Proofs.Evaluation.Ensures
import MissionScript.Proofs.Operator.Builtin

/-!
Formulas that only ask. Evaluating one gives a value that the game and the ledger determine, and
changes neither.
-/

namespace MissionScript

variable {H : Type} {g : H} {l : Ledger}

/-- Whether the game and the ledger are these. -/
def Env.Shows (g : H) (l : Ledger) (env : Env H) : Prop :=
  env.host = g ∧ env.ledger = l

/-- Whether a computation gives a result wherever the game and the ledger are these, and leaves them
    as they are. -/
def Yields {α : Type} (g : H) (l : Ledger) (m : EvalM H α) (a : α) : Prop :=
  Ensures (Env.Shows g l) m (· = a)

/-! ### Results that an invariant determines -/

section

variable {α β : Type} {I : Env H → Prop}

theorem Ensures.bind_eq {m : EvalM H α} {k : α → EvalM H β} {a : α} {b : β}
    (hm : Ensures I m (· = a)) (hk : Ensures I (k a) (· = b)) : Ensures I (m >>= k) (· = b) := by
  refine hm.bind fun a' ha' => ?_
  rw [ha']
  exact hk

namespace Evaluation

theorem ensures_evalAll_eq {args : List (Arg H)} {values : List Value}
    (hargs : List.Forall₂ (fun arg v => Ensures I arg.eval (· = v)) args values) :
    Ensures I (evalAll args) (· = values) := by
  induction hargs with
  | nil => exact ensures_pure rfl
  | cons harg _ ih => exact harg.bind_eq (ih.bind_eq (ensures_pure rfl))

/-- A node that is not too deep and does not fail has the value that is found for it. -/
theorem ensures_visit_eq (hrecord : ∀ env v, I env → I (env.record v)) {formula : String}
    {path : Path} {node : Node} {attempt : EvalM H (Except EvalError Value)} {v : Value}
    (hpath : path.length < maxEvalDepth) (hattempt : Ensures I attempt (· = .ok v)) :
    Ensures I (visit formula path node attempt) (· = v) := by
  have hstep (step : Visit) : Preserves I (modify (·.record step) : EvalM H PUnit) :=
    ensures_modify fun env => hrecord env step
  refine (hstep _).bind fun _ _ => ?_
  dsimp only
  rw [if_neg (by omega)]
  refine hattempt.bind fun outcome houtcome => ?_
  rw [houtcome]
  exact (hstep _).bind fun _ _ => ensures_pure rfl

variable [Host H]

theorem ensures_text_eq (hrecord : ∀ env v, I env → I (env.record v)) (registry : Registry)
    (formula : String) {path : Path} (s : String) (offset : Nat) (hpath : path.length < maxEvalDepth) :
    Ensures I (evalNode registry formula path (.atom (.text s) offset)) (· = .text s) := by
  rw [evalNode]
  exact ensures_visit_eq hrecord hpath (ensures_get.bind fun _ _ => ensures_pure rfl)

theorem ensures_number_eq (hrecord : ∀ env v, I env → I (env.record v)) (registry : Registry)
    (formula : String) {path : Path} (x : Float) (offset : Nat) (hpath : path.length < maxEvalDepth) :
    Ensures I (evalNode registry formula path (.atom (.number x) offset)) (· = .number x) := by
  rw [evalNode]
  exact ensures_visit_eq hrecord hpath (ensures_get.bind fun _ _ => ensures_pure rfl)

/-- A query is asked about the values of its arguments, if it accepts them and all are known. -/
theorem ensures_query_eq (hshows : ∀ env, I env → env.Shows g l) {q : Query} {registry : Registry}
    {name : String} (hget : registry.get? name = some (Builtin.query q).operator) (formula : String)
    (path : Path) {args : List (Arg H)} {values : List Value} {v : Value}
    (hargs : List.Forall₂ (fun arg v => Ensures I arg.eval (· = v)) args values)
    (hcount : (Builtin.query q).operator.signature.acceptsCount values.length = true)
    (haccepts : ∀ i v, values[i]? = some v →
      ((Builtin.query q).operator.signature.constraintAt i).acceptsValue v = true)
    (hknown : ∀ v ∈ values, v.isUnknown = false) (hanswer : q.answer g l values = .ok v) :
    Ensures I (apply registry formula path (some name) args) (· = .ok v) := by
  unfold apply
  simp only [hget]
  refine (ensures_evalAll_eq hargs).bind_eq (ensures_modifyGet fun env henv => ?_)
  obtain ⟨rfl, rfl⟩ := hshows env henv
  have hany : values.any Value.isUnknown = false := by
    rw [List.any_eq_false]
    intro v hv
    simp [hknown v hv]
  have happly : applyEager (Builtin.query q).operator formula path values env = (.ok v, env) := by
    unfold applyEager
    rw [if_neg (by simp [hcount]), mismatch?_eq_none haccepts, hany]
    simp only [Bool.and_false, Bool.false_eq_true, if_false]
    change (q.answer env.host env.ledger values, env) = _
    rw [hanswer]
  rw [happly]
  exact ⟨rfl, henv⟩

end Evaluation

theorem Control.ensures_conjunction_eq {args : List (Arg H)} {truths : List Truth}
    (hargs : List.Forall₂ (fun arg (t : Truth) => Ensures I arg.eval (· = t.toValue)) args truths)
    (settled : Bool) : Ensures I (conjunction settled args) (· = Truth.all settled truths) := by
  induction hargs generalizing settled with
  | nil => exact ensures_pure rfl
  | @cons arg t _ _ harg _ ih =>
    refine harg.bind_eq ?_
    rw [Value.truth_toValue]
    cases t with
    | knownTrue => exact ih settled
    | trueNow => exact ih false
    | falseNow | knownFalse | unknown => exact ensures_pure rfl

end

/-! ### Results that the game and the ledger determine -/

theorem yields_pure {α : Type} (a : α) : Yields g l (pure a) a :=
  ensures_pure rfl

theorem Yields.bind {α β : Type} {m : EvalM H α} {k : α → EvalM H β} {a : α} {b : β}
    (hm : Yields g l m a) (hk : Yields g l (k a) b) : Yields g l (m >>= k) b :=
  Ensures.bind_eq hm hk

namespace Evaluation

theorem yields_query [Host H] {q : Query} {registry : Registry} {name : String}
    (hget : registry.get? name = some (Builtin.query q).operator) (formula : String) (path : Path)
    {args : List (Arg H)} {values : List Value} {v : Value}
    (hargs : List.Forall₂ (fun arg v => Yields g l arg.eval v) args values)
    (hcount : (Builtin.query q).operator.signature.acceptsCount values.length = true)
    (haccepts : ∀ i v, values[i]? = some v →
      ((Builtin.query q).operator.signature.constraintAt i).acceptsValue v = true)
    (hknown : ∀ v ∈ values, v.isUnknown = false) (hanswer : q.answer g l values = .ok v) :
    Yields g l (apply registry formula path (some name) args) (.ok v) :=
  ensures_query_eq (fun _ henv => henv) hget formula path hargs hcount haccepts hknown hanswer

end Evaluation

/-- What arguments together say of a disjunction; `sofar` is what the ones before say. -/
def Truth.any (sofar : Truth) : List Truth → Truth
  | [] => sofar
  | .knownTrue :: _ => .knownTrue
  | .trueNow :: _ => .trueNow
  | .knownFalse :: rest => Truth.any sofar rest
  | .falseNow :: rest => Truth.any (if sofar = .knownFalse then .falseNow else sofar) rest
  | .unknown :: rest => Truth.any .unknown rest

namespace Control

variable {args : List (Arg H)} {truths : List Truth}

theorem yields_conjunction
    (hargs : List.Forall₂ (fun arg (t : Truth) => Yields g l arg.eval t.toValue) args truths)
    (settled : Bool) : Yields g l (conjunction settled args) (Truth.all settled truths) :=
  ensures_conjunction_eq hargs settled

theorem yields_disjunction
    (hargs : List.Forall₂ (fun arg (t : Truth) => Yields g l arg.eval t.toValue) args truths)
    (sofar : Truth) : Yields g l (disjunction sofar args) (Truth.any sofar truths) := by
  induction hargs generalizing sofar with
  | nil => exact yields_pure _
  | @cons arg t _ _ harg _ ih =>
    refine harg.bind ?_
    rw [Value.truth_toValue]
    cases t with
    | knownTrue | trueNow => exact yields_pure _
    | knownFalse => exact ih sofar
    | falseNow => exact ih _
    | unknown => exact ih .unknown

end Control

namespace Evaluation

/-- A control is run if it has the right number of arguments. -/
theorem apply_control [Host H] {c : Control} {registry : Registry} {name : String}
    (hget : registry.get? name = some (Builtin.control c).operator) (formula : String) (path : Path)
    {args : List (Arg H)}
    (hcount : (Builtin.control c).operator.signature.acceptsCount args.length = true) :
    apply registry formula path (some name) args = c.run formula args := by
  unfold apply
  simp only [hget]
  change applyLazy (Builtin.control c).operator formula path args = c.run formula args
  unfold applyLazy
  rw [if_neg (by simp [hcount])]
  rfl

theorem yields_control [Host H] {c : Control} {registry : Registry} {name : String}
    (hget : registry.get? name = some (Builtin.control c).operator) (formula : String) (path : Path)
    {args : List (Arg H)} {outcome : Except EvalError Value}
    (hcount : (Builtin.control c).operator.signature.acceptsCount args.length = true)
    (hrun : Yields g l (c.run formula args) outcome) :
    Yields g l (apply registry formula path (some name) args) outcome := by
  rw [apply_control hget formula path hcount]
  exact hrun

end Evaluation

end MissionScript

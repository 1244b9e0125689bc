import MissionScript.Proofs.Evaluation.Ensures
import MissionScript.Proofs.Evaluation.Query
import MissionScript.Proofs.Formula.Shape
import MissionScript.Proofs.Number.Finite
import MissionScript.Proofs.Operator.Builtin
import MissionScript.Proofs.Variable.Soundness

/-!
Formulas in which every number stays finite. Their literals are finite, and nothing that is not finite
comes in from the variables, the game or the operators that have been added; then nothing that is not
finite comes of any node, and nothing that is not finite is stored.
-/

namespace MissionScript

/-- Whether a value is a finite number, or none at all. -/
def Value.IsFinite : Value → Prop
  | .number x => x.isFinite = true
  | .text _ | .unknown => True

theorem isFinite_toValue (t : Truth) : t.toValue.IsFinite := by
  cases t <;> trivial

theorem isFinite_bool (b : Bool) : (Value.bool b).IsFinite :=
  isFinite_toValue _

theorem Stored.IsFinite.toValue {v : Stored} (h : v.IsFinite) : v.toValue.IsFinite := by
  cases v with
  | number x => exact h
  | string s => trivial

theorem Value.IsFinite.ofValue? {v : Value} (h : v.IsFinite) {stored : Stored}
    (hstored : Stored.ofValue? v = some stored) : stored.IsFinite := by
  cases v with
  | unknown => cases hstored
  | number x =>
    cases hstored
    exact h
  | text s =>
    cases hstored
    trivial

/-- A saved text is read as a finite value, or not at all. -/
theorem Stored.isFinite_of_ofText? {type : VariableType} {text : String} {v : Stored}
    (h : ofText? type text = some v) : v.IsFinite := by
  cases type with
  | number =>
    obtain ⟨x, hx, rfl⟩ := Option.map_eq_some_iff.1 h
    exact isFinite_of_readNumber? hx
  | string =>
    cases h
    trivial

/-- Whether an outcome is an error or a finite value. -/
def Evaluation.IsFinite : Except EvalError Value → Prop
  | .ok v => v.IsFinite
  | .error _ => True

/-- Whether what is written down of a node is an error or a finite value. -/
def Visit.IsFinite : Visit → Prop
  | .enter .. => True
  | .leave _ outcome => Evaluation.IsFinite outcome

/-- Whether an operator that has been added answers nothing that is not finite. -/
def Registry.AnswersFinite (registry : Registry) : Prop :=
  ∀ name operator isLazy v, registry.get? name = some operator →
    operator.behaviour = .scripted isLazy (.give v) → v.IsFinite

namespace Registry

/-- An operator that answers nothing but finite values can be added. -/
theorem AnswersFinite.register {registry after : Registry} (h : registry.AnswersFinite) {name : String}
    {signature : Signature} {behaviour : Behaviour} {description : String}
    (hadded : ∀ isLazy v, behaviour = .scripted isLazy (.give v) → v.IsFinite)
    (hregister : registry.register name signature behaviour description = .ok after) :
    after.AnswersFinite := by
  intro other operator isLazy v hget hbehaviour
  obtain ⟨hmem, -⟩ := after.indexed.get?_eq_some_iff.1 hget
  rw [eq_add_of_register hregister] at hmem
  rcases List.mem_append.1 hmem with hmem | hmem
  · exact h operator.name operator isLazy v (registry.indexed.get?_eq_some_iff.2 ⟨hmem, rfl⟩)
      hbehaviour
  · rw [List.mem_singleton.1 hmem] at hbehaviour
    exact hadded isLazy v hbehaviour

end Registry

/-- Whether a variable holds nothing that is not finite, and starts from nothing that is not. -/
def Variable.IsFinite (v : Variable) : Prop :=
  v.value.IsFinite ∧ v.initial.IsFinite

/-- Whether the numbers in a store are finite. -/
def Variables.AreFinite (vars : Variables) : Prop :=
  ∀ v ∈ vars.values, v.IsFinite

namespace Variables

variable {vars after : Variables}

theorem AreFinite.modify (h : vars.AreFinite) (key : String) {f : Variable → Variable}
    (hf : ∀ v, v.IsFinite → (f v).IsFinite) : AreFinite (Table.modify vars key f) := by
  intro v hv
  obtain ⟨entry, hentry, rfl⟩ := List.mem_map.1 hv
  obtain ⟨w, hmem, heq | ⟨-, heq⟩⟩ := Table.mem_modify hentry
  · rw [heq]
    exact h w (List.mem_map_of_mem hmem)
  · rw [heq]
    exact hf w (h w (List.mem_map_of_mem hmem))

theorem AreFinite.set (h : vars.AreFinite) {name : String} {value : Stored} (hvalue : value.IsFinite)
    (hset : vars.set name value = .ok after) : after.AreFinite := by
  obtain ⟨v, -, -, rfl⟩ := eq_modify_of_set hset
  exact h.modify _ fun w hw => ⟨hvalue, hw.2⟩

end Variables

namespace Host

variable {H : Type} [Host H]

/-- Whether a game shows finite numbers only, and parts of wings from zero to one. -/
structure ShowsFinite (h : H) : Prop where
  time : (Host.time h).isFinite = true
  hull : ∀ ship x, Host.shipHull h ship = some x → x.isFinite = true
  wing : ∀ wing x, Host.wingDestroyed h wing = some x → 0 ≤ x ∧ x ≤ 1

/-- What commands can make of a game. -/
inductive Becomes (h : H) : H → Prop where
  | refl : Becomes h h
  | sendMessage {h' : H} (hb : Becomes h h') (persona text : String) :
    Becomes h (Host.sendMessage h' persona text)
  | spawnWing {h' : H} (hb : Becomes h h') (wing : String) : Becomes h (Host.spawnWing h' wing).2
  | destroyShip {h' : H} (hb : Becomes h h') (ship : String) : Becomes h (Host.destroyShip h' ship).2
  | randomInt {h' : H} (hb : Becomes h h') (low high : Int64) :
    Becomes h (Host.randomInt h' low high).2

/-- Whether a game shows finite numbers only, whatever it is told to do. -/
def StaysFinite (h : H) : Prop :=
  ∀ h', Becomes h h' → ShowsFinite h'

end Host

namespace Query

variable {H : Type} [Host H] {operator : String} {args : List Value} {α : Type}

theorem isFinite_bind {x : Except EvalError α} {k : α → Except EvalError Value}
    (hk : ∀ a, x = .ok a → Evaluation.IsFinite (k a)) : Evaluation.IsFinite (x >>= k) := by
  cases x with
  | error e => trivial
  | ok a => exact hk a rfl

theorem isFinite_of_numberArg {index : Nat} {v : Value} (hv : v.IsFinite) {x : Float}
    (h : numberArg operator index v = .ok x) : x.isFinite = true := by
  cases v with
  | number y =>
    cases h
    exact hv
  | text | unknown => cases h

theorem isFinite_of_numberAt (hargs : ∀ v ∈ args, v.IsFinite) {index : Nat} {x : Float}
    (h : numberAt operator args index = .ok x) : x.isFinite = true := by
  unfold numberAt argAt at h
  cases hat : args[index]? with
  | none =>
    rw [hat] at h
    cases h
  | some v =>
    rw [hat] at h
    exact isFinite_of_numberArg (hargs v (List.mem_of_getElem? hat)) h

/-- A combination is checked to be finite, however it came about. -/
theorem isFinite_combine (operator : String) (args : List Value)
    (step : Float → Float → Except Failure Float) :
    Evaluation.IsFinite (combine operator args step) := by
  refine isFinite_bind fun xs _ => ?_
  cases xs with
  | nil => trivial
  | cons x rest =>
    dsimp only
    split
    · trivial
    · split
      · next hfinite => exact hfinite
      · trivial

theorem isFinite_compareFirst (operator : String) (args : List Value) (holds : Float → Float → Bool) :
    Evaluation.IsFinite (compareFirst operator args holds) := by
  refine isFinite_bind fun xs _ => ?_
  cases xs with
  | nil => trivial
  | cons x rest => exact isFinite_bool _

theorem isFinite_everyShip (operator : String) (host : H) (args : List Value)
    (reading : Option ShipStatus → Truth) :
    Evaluation.IsFinite (everyShip operator host args reading) :=
  isFinite_bind fun _ _ => isFinite_toValue _

theorem isFinite_hull {host : H} (hhost : Host.ShowsFinite host) (ship : String) :
    (hull host ship).IsFinite := by
  unfold hull
  split
  · next x hx => exact hhost.hull ship x hx
  · split
    · exact (by decide : Float.isFinite 0 = true)
    · trivial

/-- What a query answers to finite values in a game that shows finite numbers. -/
theorem isFinite_answer (q : Query) {host : H} (hhost : Host.ShowsFinite host) (ledger : Ledger)
    (hargs : ∀ v ∈ args, v.IsFinite) : Evaluation.IsFinite (q.answer host ledger args) := by
  have htruth (t : Truth) : Evaluation.IsFinite (.ok t.toValue) := (isFinite_toValue t)
  cases q with
  | always | never | doNothing => exact htruth _
  | not | isIndeterminate => exact isFinite_bind fun _ _ => htruth _
  | xor => exact isFinite_bind fun _ _ => isFinite_bind fun _ _ => htruth _
  | add | multiply | divide | modulo | least | greatest => exact isFinite_combine ..
  | subtract =>
    rcases args with _ | ⟨v, _ | ⟨w, rest⟩⟩
    · exact isFinite_combine ..
    · refine isFinite_bind fun x hx => ?_
      exact isFinite_neg (isFinite_of_numberArg (hargs v List.mem_cons_self) hx)
    · exact isFinite_combine ..
  | absolute =>
    exact isFinite_bind fun x hx => isFinite_abs (isFinite_of_numberAt hargs hx)
  | equal | less | greater | atMost | atLeast | notEqual => exact isFinite_compareFirst ..
  | stringEquals =>
    refine isFinite_bind fun texts _ => ?_
    cases texts with
    | nil => trivial
    | cons s rest => exact htruth _
  | stringConcatenate | numberToString => exact isFinite_bind fun _ _ => trivial
  | stringLength => exact isFinite_bind fun _ _ => isFinite_floatOfCount _
  | stringToNumber =>
    refine isFinite_bind fun text _ => ?_
    split
    · next x hx => exact isFinite_of_readNumber? hx
    · trivial
  | missionTime => exact hhost.time
  | hasTimeElapsed | shipExists | wingHasArrived => exact isFinite_bind fun _ _ => htruth _
  | isDestroyed | hasDeparted | hasArrived => exact isFinite_everyShip ..
  | hitsLeft => exact isFinite_bind fun ship _ => isFinite_hull hhost ship
  | percentWingDestroyed =>
    refine isFinite_bind fun wing _ => ?_
    cases hpart : Host.wingDestroyed host wing with
    | none => trivial
    | some part =>
      obtain ⟨hlow, hhigh⟩ := hhost.wing wing part hpart
      exact isFinite_mul_hundred hlow hhigh
  | isEventTrue | isEventFalse | isGoalTrue | isGoalFalse =>
    exact isFinite_bind fun _ _ => htruth _
  | isEventTrueDelay => exact isFinite_bind fun _ _ => isFinite_bind fun _ _ => htruth _

end Query

/-- What an action answers. -/
theorem Action.isFinite_perform {H : Type} [Host H] (a : Action) (args : List Value) (env : Env H) :
    Evaluation.IsFinite (a.perform args env).1 := by
  have htruth (t : Truth) : Evaluation.IsFinite (.ok t.toValue) := (isFinite_toValue t)
  unfold perform
  cases a with
  | random =>
    dsimp only
    split
    · trivial
    · exact isFinite_floatOfInt64 _
  | sendMessage | spawnWing | selfDestruct | invalidateGoal | validateGoal =>
    dsimp only
    split
    · trivial
    · exact htruth _

/-- What an added operator answers. -/
theorem Evaluation.isFinite_scriptedAnswer {reply : Reply} (hreply : ∀ v, reply = .give v → v.IsFinite)
    (formula : String) (path : Path) (count : Nat) :
    IsFinite (scriptedAnswer formula path count reply) := by
  cases reply with
  | fail reason => trivial
  | count => exact isFinite_floatOfCount count
  | place => trivial
  | give v => exact hreply v rfl

/-- What holds while a formula is evaluated in which every number stays finite. -/
structure Env.IsFinite {H : Type} [Host H] (env : Env H) : Prop where
  host : Host.StaysFinite env.host
  vars : env.vars.AreFinite
  trace : ∀ visit ∈ env.trace, visit.IsFinite

theorem Host.Becomes.trans {H : Type} [Host H] {h₁ h₂ h₃ : H} (h₁₂ : Becomes h₁ h₂)
    (h₂₃ : Becomes h₂ h₃) : Becomes h₁ h₃ := by
  induction h₂₃ with
  | refl => exact h₁₂
  | sendMessage _ persona text ih => exact ih.sendMessage persona text
  | spawnWing _ wing ih => exact ih.spawnWing wing
  | destroyShip _ ship ih => exact ih.destroyShip ship
  | randomInt _ low high ih => exact ih.randomInt low high

namespace Env

variable {H : Type} [Host H] {env env' : Env H}

/-- An effect on the game is one command. -/
theorem Effect.becomes (h : Effect env env') : Host.Becomes env.host env'.host := by
  cases h with
  | sendMessage persona text => exact Host.Becomes.refl.sendMessage persona text
  | spawnWing wing => exact Host.Becomes.refl.spawnWing wing
  | destroyShip ship => exact Host.Becomes.refl.destroyShip ship
  | randomInt low high => exact Host.Becomes.refl.randomInt low high
  | _ => exact .refl

theorem calm_isFinite : Calm (IsFinite (H := H)) := by
  intro env env' heffect hvars _ henv
  refine ⟨fun h hbecomes => henv.host h (heffect.becomes.trans hbecomes), ?_, ?_⟩
  · rw [hvars]
    exact henv.vars
  · rw [heffect.trace_eq]
    exact henv.trace

theorem IsFinite.record (h : env.IsFinite) {visit : Visit} (hvisit : visit.IsFinite) :
    (env.record visit).IsFinite := by
  refine ⟨h.host, h.vars, fun other hother => ?_⟩
  rcases Array.mem_push.1 hother with hold | rfl
  · exact h.trace other hold
  · exact hvisit

end Env

namespace Control

variable {H : Type} [Host H] {args : List (Arg H)}

/-- Storing a finite value keeps every number finite. -/
theorem isFinite_store (operator name : String) {value : Value} (hvalue : value.IsFinite) {env : Env H}
    (henv : env.IsFinite) : Evaluation.IsFinite (store operator name value env).1 ∧
      (store operator name value env).2.IsFinite := by
  unfold store
  split
  · exact ⟨trivial, henv⟩
  · split
    · next vars hset =>
      obtain ⟨stored, hstored, hset⟩ := Variables.exists_set_of_setValue hset
      refine ⟨(isFinite_toValue .trueNow), henv.host, ?_, henv.trace⟩
      exact henv.vars.set (hvalue.ofValue? hstored) hset
    · exact ⟨trivial, henv⟩
    · exact ⟨trivial, henv⟩
    · exact ⟨trivial, henv⟩

/-- What a control makes of arguments with finite values. -/
theorem ensures_run_finite {c : Control} (formula : String)
    (hargs : ∀ arg ∈ args, Ensures Env.IsFinite arg.eval Value.IsFinite) :
    Ensures Env.IsFinite (c.run formula args) Evaluation.IsFinite := by
  have htruth (t : Truth) : Ensures Env.IsFinite
      (pure (.ok t.toValue) : EvalM H (Except EvalError Value)) Evaluation.IsFinite :=
    ensures_pure (isFinite_toValue t)
  have hkept : ∀ arg ∈ args, Preserves Env.IsFinite arg.eval := fun arg harg =>
    (hargs arg harg).preserves
  cases c with
  | and => exact (preserves_conjunction hkept true).bind fun t _ => htruth t
  | or => exact (preserves_disjunction hkept .knownFalse).bind fun t _ => htruth t
  | andInSequence =>
    refine ensures_get.bind fun earlier _ => ?_
    refine (preserves_latchAll (fun _ _ env henv => ?_) hkept).bind fun readings _ => htruth _
    exact ⟨henv.host, henv.vars, henv.trace⟩
  | «when» | everyTime =>
    cases args with
    | nil => exact ensures_pure trivial
    | cons condition actions =>
      obtain ⟨hcondition, hactions⟩ := List.forall_mem_cons.1 hkept
      refine hcondition.bind fun v _ => ?_
      dsimp only
      split
      · exact (preserves_runAll hactions).bind fun _ _ => htruth _
      · exact htruth _
  | ifThenElse =>
    rcases args with _ | ⟨condition, _ | ⟨yes, _ | ⟨no, rest⟩⟩⟩
    · exact ensures_pure trivial
    · exact ensures_pure trivial
    · exact ensures_pure trivial
    · simp only [List.forall_mem_cons] at hargs
      obtain ⟨hcondition, hyes, hno, -⟩ := hargs
      refine hcondition.bind fun v _ => ?_
      dsimp only
      split
      · exact ensures_pure trivial
      · split
        · exact hyes.bind fun v hv => ensures_pure hv
        · exact hno.bind fun v hv => ensures_pure hv
  | modifyVariable =>
    rcases args with _ | ⟨ref, _ | ⟨value, rest⟩⟩
    · exact ensures_pure trivial
    · exact ensures_pure trivial
    · simp only [List.forall_mem_cons] at hargs
      obtain ⟨-, hvalue, -⟩ := hargs
      dsimp only [run]
      split
      · exact ensures_pure trivial
      · exact hvalue.bind fun v hv => ensures_modifyGet fun env henv => isFinite_store _ _ hv henv
  | variableIsSet =>
    cases args with
    | nil => exact ensures_pure trivial
    | cons ref rest =>
      dsimp only [run]
      split
      · exact ensures_pure trivial
      · refine ensures_get.bind fun env _ => ensures_pure ?_
        unfold isSet
        split
        · exact isFinite_bool _
        · trivial

end Control

namespace Evaluation

variable {H : Type} [Host H] {registry : Registry} {args : List (Arg H)}

/-- What comes of applying an operator to finite values. -/
theorem isFinite_applyEager {operator : Operator} (hoperator : ∀ isLazy v,
      operator.behaviour = .scripted isLazy (.give v) → v.IsFinite) (formula : String) (path : Path)
    {values : List Value} (hvalues : ∀ v ∈ values, v.IsFinite) {env : Env H} (henv : env.IsFinite) :
    IsFinite (applyEager operator formula path values env).1 := by
  unfold applyEager
  split
  · trivial
  · split
    · trivial
    · split
      · trivial
      · split
        · exact Query.isFinite_answer _ (henv.host _ .refl) env.ledger hvalues
        · exact Action.isFinite_perform _ values env
        · trivial
        · next isLazy reply hreply =>
          refine isFinite_scriptedAnswer (fun v hv => ?_) formula path _
          exact hoperator isLazy v (hv ▸ hreply)

theorem ensures_apply_finite (hregistry : registry.AnswersFinite) (formula : String) (path : Path)
    (name : Option String) (hargs : ∀ arg ∈ args, Ensures Env.IsFinite arg.eval Value.IsFinite) :
    Ensures Env.IsFinite (apply registry formula path name args) IsFinite := by
  unfold apply
  split
  · exact ensures_pure trivial
  · next name =>
    split
    · exact ensures_pure trivial
    · next operator hget =>
      have hoperator isLazy v := hregistry name operator isLazy v hget
      split
      · unfold applyLazy
        split
        · exact ensures_pure trivial
        · split
          · exact Control.ensures_run_finite formula hargs
          · exact ensures_pure trivial
          · next isLazy reply hreply =>
            refine (Control.preserves_runAll fun arg harg => (hargs arg harg).preserves).bind
              fun _ _ => ensures_pure (isFinite_scriptedAnswer (fun v hv => ?_) formula path _)
            exact hoperator isLazy v (hv ▸ hreply)
      · refine (ensures_evalAll (Q := fun _ => Value.IsFinite) hargs).bind fun values hvalues => ?_
        have hfinite : ∀ v ∈ values, v.IsFinite :=
          (List.forall₂_and_left (p := Value.IsFinite) (R := fun _ _ => True) values args).1
            (hvalues.flip.imp fun _ _ hv => ⟨hv, trivial⟩) |>.1
        exact ensures_modifyGet fun env henv => ⟨isFinite_applyEager hoperator formula path hfinite henv,
          applyEager_stable Env.calm_isFinite operator formula path values henv⟩

/-- A node is left with what comes of it. -/
theorem ensures_visit_finite {formula : String} {path : Path} {n : Node}
    {attempt : EvalM H (Except EvalError Value)} (hattempt : Ensures Env.IsFinite attempt IsFinite) :
    Ensures Env.IsFinite (visit formula path n attempt) Value.IsFinite := by
  refine (ensures_visit Env.calm_isFinite hattempt (fun _ => trivial)
    (fun env henv => henv.record trivial) fun env outcome hQ henv => henv.record hQ).mono fun v hv => ?_
  rcases hv with rfl | hv
  · trivial
  · exact hv

/-- Evaluating a node with finite literals. -/
theorem ensures_evalNode_finite (hregistry : registry.AnswersFinite) {known : String → Bool}
    {options : ParseOptions} {n : Node} (h : n.WellFormed known options) (formula : String) (path : Path) :
    Ensures Env.IsFinite (evalNode (H := H) registry formula path n) Value.IsFinite := by
  induction h generalizing path with
  | number offset hfinite =>
    rw [evalNode]
    exact ensures_visit_finite (ensures_get.bind fun _ _ => ensures_pure hfinite)
  | text s offset =>
    rw [evalNode]
    exact ensures_visit_finite (ensures_get.bind fun _ _ => ensures_pure trivial)
  | @«variable» name offset _ =>
    rw [evalNode]
    refine ensures_visit_finite (ensures_get.bind fun env henv => ensures_pure ?_)
    dsimp only [atomValue]
    split
    · next v hv => exact (henv.vars v (Variables.mem_values_of_get? hv)).1.toValue
    · trivial
  | list headOffset offset _ _ ih =>
    rw [evalNode, childArgs, List.tail_cons]
    refine ensures_visit_finite (ensures_apply_finite hregistry formula path _ fun arg harg => ?_)
    obtain ⟨i, n, hi, rfl⟩ := exists_of_mem_childArgs harg
    exact ih n (List.mem_of_getElem? hi) _

end Evaluation

/-- Evaluating a formula with finite literals, where the variables are finite and the game stays so. -/
theorem isFinite_evaluate {H : Type} [Host H] {registry : Registry} (hregistry : registry.AnswersFinite)
    {known : String → Bool} {options : ParseOptions} {root : Node} (hroot : root.WellFormed known options)
    (formula : String) {env : Env H} (hhost : Host.StaysFinite env.host) (hvars : env.vars.AreFinite) :
    ((evaluate registry formula root).run env).1.IsFinite ∧
      ((evaluate registry formula root).run env).2.IsFinite := by
  have hstart : Env.IsFinite { env with trace := #[] } := ⟨hhost, hvars, by simp⟩
  exact Evaluation.ensures_evalNode_finite hregistry hroot formula [] _ hstart

end MissionScript

import MissionScript.Proofs.Evaluation.Query
import MissionScript.Proofs.Operator.Builtin
import MissionScript.Evaluation.Action
import Mathlib.Data.Set.List

/-!
What queries and actions give. Applied to values that their signatures accept, they give what their
signatures promise, or they fail for a reason that has nothing to do with the kinds of the values.
-/

namespace MissionScript

/-- Whether a value is one that an operator with a return type gives. -/
def ReturnType.Promises : ReturnType → Value → Prop
  | .number, v => ∃ x, v = .number x
  | .string, v => ∃ s, v = .text s
  | .boolean, v | .action, v => ∃ t : Truth, t ≠ .unknown ∧ v = t.toValue
  | .any, _ => True

/-- Whether the outcome of applying an operator is unknown, as promised, or a failure that is not
    about the kind of a value. -/
def ReturnType.Allows (r : ReturnType) : Except EvalError Value → Prop
  | .ok v => v = .unknown ∨ r.Promises v
  | .error e => ∃ operator reason, e = .failed operator reason

theorem toValue_promised (t : Truth) {r : ReturnType} (hr : r = .boolean ∨ r = .action) :
    r.Allows (.ok t.toValue) := by
  by_cases ht : t = .unknown
  · exact Or.inl (by rw [ht]; rfl)
  · rcases hr with rfl | rfl <;> exact Or.inr ⟨t, ht, rfl⟩

theorem boolean_allows (t : Truth) : ReturnType.boolean.Allows (.ok t.toValue) :=
  toValue_promised t (Or.inl rfl)

theorem bool_allows (b : Bool) : ReturnType.boolean.Allows (.ok (.bool b)) :=
  boolean_allows (Truth.ofBool b)

theorem action_allows (t : Truth) : ReturnType.action.Allows (.ok t.toValue) :=
  toValue_promised t (Or.inr rfl)

theorem number_allows (x : Float) : ReturnType.number.Allows (.ok (.number x)) :=
  Or.inr ⟨x, rfl⟩

theorem string_allows (s : String) : ReturnType.string.Allows (.ok (.text s)) :=
  Or.inr ⟨s, rfl⟩

theorem failed_allows (r : ReturnType) (operator : String) (reason : Failure) :
    r.Allows (.error (.failed operator reason)) :=
  ⟨operator, reason, rfl⟩

/-- Whether a constraint accepts texts only. -/
def Constraint.isText : Constraint → Bool
  | .string | .ship | .wing => true
  | _ => false

theorem isText_of_accepts {c : Constraint} (hc : c.isText = true) {v : Value}
    (haccepts : c.acceptsValue v = true) (hknown : v.isUnknown = false) : ∃ s, v = .text s := by
  cases v with
  | number x => cases c <;> simp [Constraint.isText, Constraint.acceptsValue] at hc haccepts
  | text s => exact ⟨s, rfl⟩
  | unknown => cases hknown

/-- Values that an operator is applied to: as many as it takes, each of a kind that it accepts, and
    none of them unknown unless it wants to see that. -/
structure Signature.Accepted (s : Signature) (values : List Value) : Prop where
  count : s.acceptsCount values.length = true
  accepts : ∀ i v, values[i]? = some v → (s.constraintAt i).acceptsValue v = true
  known : s.flags.acceptsUnknown = false → ∀ v ∈ values, v.isUnknown = false

namespace Signature.Accepted

variable {s : Signature} {values : List Value}

theorem number_at (h : s.Accepted values) (hs : s.flags.acceptsUnknown = false) {i : Nat}
    (hc : s.constraintAt i = .number) {v : Value} (hv : values[i]? = some v) :
    ∃ x, v = .number x := by
  have haccepts := h.accepts i v hv
  have hknown := h.known hs v (List.mem_of_getElem? hv)
  rw [hc] at haccepts
  cases v with
  | number x => exact ⟨x, rfl⟩
  | text s => cases haccepts
  | unknown => cases hknown

theorem text_at (h : s.Accepted values) (hs : s.flags.acceptsUnknown = false) {i : Nat}
    (hc : (s.constraintAt i).isText = true) {v : Value} (hv : values[i]? = some v) :
    ∃ text, v = .text text :=
  isText_of_accepts hc (h.accepts i v hv) (h.known hs v (List.mem_of_getElem? hv))

theorem numbers (h : s.Accepted values) (hs : s.flags.acceptsUnknown = false)
    (hargs : s.args = [.number]) : ∃ xs : List Float, xs.map Value.number = values := by
  have hmem : values ∈ Set.range (List.map Value.number) := by
    rw [Set.range_list_map]
    intro v hv
    obtain ⟨i, hi⟩ := List.mem_iff_getElem?.1 hv
    obtain ⟨x, rfl⟩ := h.number_at hs (constraintAt_of_args_eq hargs i) hi
    exact ⟨x, rfl⟩
  exact hmem

theorem texts (h : s.Accepted values) (hs : s.flags.acceptsUnknown = false) {c : Constraint}
    (hargs : s.args = [c]) (hc : c.isText = true) :
    ∃ texts : List String, texts.map Value.text = values := by
  have hmem : values ∈ Set.range (List.map Value.text) := by
    rw [Set.range_list_map]
    intro v hv
    obtain ⟨i, hi⟩ := List.mem_iff_getElem?.1 hv
    obtain ⟨text, rfl⟩ := h.text_at hs (by rwa [constraintAt_of_args_eq hargs i]) hi
    exact ⟨text, rfl⟩
  exact hmem

end Signature.Accepted

namespace Query

variable {r : ReturnType} {operator : String}

theorem allows_argAt {k : Value → Except EvalError Value} (values : List Value) (index : Nat)
    (hk : ∀ v, r.Allows (k v)) : r.Allows (argAt operator values index >>= k) := by
  unfold argAt
  split
  · exact hk _
  · exact failed_allows r _ _

/-- A number that is asked for is there, or the argument is missing. -/
theorem numberAt_cases (operator : String) {values : List Value} {index : Nat}
    (hnumber : ∀ v, values[index]? = some v → ∃ x, v = .number x) :
    (∃ x, numberAt operator values index = .ok x) ∨
      ∃ reason, numberAt operator values index = .error (.failed operator reason) := by
  unfold numberAt argAt
  cases hat : values[index]? with
  | none => exact Or.inr ⟨_, rfl⟩
  | some v =>
    obtain ⟨x, rfl⟩ := hnumber v hat
    exact Or.inl ⟨x, rfl⟩

/-- A text that is asked for is there, or the argument is missing. -/
theorem textAt_cases (operator : String) {values : List Value} {index : Nat}
    (htext : ∀ v, values[index]? = some v → ∃ s, v = .text s) :
    (∃ s, textAt operator values index = .ok s) ∨
      ∃ reason, textAt operator values index = .error (.failed operator reason) := by
  unfold textAt argAt
  cases hat : values[index]? with
  | none => exact Or.inr ⟨_, rfl⟩
  | some v =>
    obtain ⟨s, rfl⟩ := htext v hat
    exact Or.inl ⟨s, rfl⟩

theorem allows_numberAt {k : Float → Except EvalError Value} {values : List Value} {index : Nat}
    (hnumber : ∀ v, values[index]? = some v → ∃ x, v = .number x) (hk : ∀ x, r.Allows (k x)) :
    r.Allows (numberAt operator values index >>= k) := by
  rcases numberAt_cases operator hnumber with ⟨x, hx⟩ | ⟨reason, hx⟩ <;> rw [hx]
  · exact hk x
  · exact failed_allows r _ _

theorem allows_textAt {k : String → Except EvalError Value} {values : List Value} {index : Nat}
    (htext : ∀ v, values[index]? = some v → ∃ s, v = .text s) (hk : ∀ s, r.Allows (k s)) :
    r.Allows (textAt operator values index >>= k) := by
  rcases textAt_cases operator htext with ⟨s, hs⟩ | ⟨reason, hs⟩ <;> rw [hs]
  · exact hk s
  · exact failed_allows r _ _

theorem allows_combine (xs : List Float) (step : Float → Float → Except Failure Float) :
    ReturnType.number.Allows (combine operator (xs.map .number) step) := by
  unfold combine
  rw [numbersFrom_map]
  cases xs with
  | nil => exact failed_allows _ _ _
  | cons x rest =>
    simp only [bind, Except.bind]
    split
    · exact failed_allows _ _ _
    · split
      · exact number_allows _
      · exact failed_allows _ _ _

theorem allows_compareFirst (xs : List Float) (holds : Float → Float → Bool) :
    ReturnType.boolean.Allows (compareFirst operator (xs.map .number) holds) := by
  unfold compareFirst
  rw [numbersFrom_map]
  cases xs with
  | nil => exact failed_allows _ _ _
  | cons x rest => exact bool_allows _

theorem allows_everyShip {H : Type} [Host H] (host : H) (ships : List String)
    (reading : Option ShipStatus → Truth) :
    ReturnType.boolean.Allows (everyShip operator host (ships.map .text) reading) := by
  rw [everyShip_map]
  exact boolean_allows _

theorem allows_eventArg {k : EventRecord → Except EvalError Value} (ledger : Ledger)
    {values : List Value} (htext : ∀ v, values[0]? = some v → ∃ s, v = .text s)
    (hk : ∀ record, r.Allows (k record)) : r.Allows (eventArg operator ledger values >>= k) := by
  unfold eventArg
  rw [bind_assoc]
  refine allows_textAt htext fun name => ?_
  cases ledger.event? name with
  | none => exact failed_allows r _ _
  | some record => exact hk record

theorem allows_goalArg {k : GoalStatus → Except EvalError Value} (ledger : Ledger)
    {values : List Value} (htext : ∀ v, values[0]? = some v → ∃ s, v = .text s)
    (hk : ∀ status, r.Allows (k status)) : r.Allows (goalArg operator ledger values >>= k) := by
  unfold goalArg
  rw [bind_assoc]
  refine allows_textAt htext fun name => ?_
  cases ledger.goal? name with
  | none => exact failed_allows r _ _
  | some record => exact hk record.status

/-- What a query answers to accepted values is as promised, whatever the game and the ledger. -/
theorem answer_allows {H : Type} [Host H] (q : Query) (host : H) (ledger : Ledger)
    {values : List Value} (h : q.definition.signature.Accepted values) :
    q.definition.signature.returns.Allows (q.answer host ledger values) := by
  cases q with
  | always | never => exact boolean_allows _
  | not => exact allows_argAt values 0 fun v => boolean_allows _
  | xor => exact allows_argAt values 0 fun a => allows_argAt values 1 fun b => bool_allows _
  | isIndeterminate => exact allows_argAt values 0 fun v => bool_allows _
  | add | multiply | divide | modulo | least | greatest =>
    obtain ⟨xs, rfl⟩ := h.numbers rfl rfl
    exact allows_combine xs _
  | subtract =>
    obtain ⟨xs, rfl⟩ := h.numbers rfl rfl
    rcases xs with _ | ⟨x, _ | ⟨y, rest⟩⟩
    · exact allows_combine [] _
    · exact number_allows _
    · exact allows_combine (x :: y :: rest) _
  | absolute => exact allows_numberAt (fun v => h.number_at rfl rfl) fun x => number_allows _
  | equal | less | greater | atMost | atLeast | notEqual =>
    obtain ⟨xs, rfl⟩ := h.numbers rfl rfl
    exact allows_compareFirst xs _
  | stringEquals =>
    obtain ⟨texts, rfl⟩ := h.texts rfl rfl rfl
    change ReturnType.Allows _ (textsFrom _ 0 (texts.map .text) >>= fun _ => _)
    rw [textsFrom_map]
    cases texts with
    | nil => exact failed_allows _ _ _
    | cons s rest => exact bool_allows _
  | stringConcatenate =>
    obtain ⟨texts, rfl⟩ := h.texts rfl rfl rfl
    change ReturnType.Allows _ (textsFrom _ 0 (texts.map .text) >>= fun _ => _)
    rw [textsFrom_map]
    exact string_allows _
  | stringLength => exact allows_textAt (fun v => h.text_at rfl rfl) fun s => number_allows _
  | numberToString => exact allows_numberAt (fun v => h.number_at rfl rfl) fun x => string_allows _
  | stringToNumber =>
    refine allows_textAt (fun v => h.text_at rfl rfl) fun s => ?_
    split
    · exact number_allows _
    · exact failed_allows _ _ _
  | missionTime => exact number_allows _
  | hasTimeElapsed =>
    exact allows_numberAt (fun v => h.number_at rfl rfl) fun x => boolean_allows _
  | isDestroyed | hasDeparted | hasArrived =>
    obtain ⟨ships, rfl⟩ := h.texts rfl rfl rfl
    exact allows_everyShip host ships _
  | hitsLeft =>
    refine allows_textAt (fun v => h.text_at rfl rfl) fun s => ?_
    unfold hull
    split
    · exact number_allows _
    · split
      · exact number_allows _
      · exact Or.inl rfl
  | shipExists => exact allows_textAt (fun v => h.text_at rfl rfl) fun s => bool_allows _
  | wingHasArrived => exact allows_textAt (fun v => h.text_at rfl rfl) fun s => boolean_allows _
  | percentWingDestroyed =>
    refine allows_textAt (fun v => h.text_at rfl rfl) fun s => ?_
    split
    · exact number_allows _
    · exact Or.inl rfl
  | doNothing => exact action_allows _
  | isEventTrue | isEventFalse =>
    exact allows_eventArg ledger (fun v => h.text_at rfl rfl) fun record => boolean_allows _
  | isEventTrueDelay =>
    refine allows_numberAt (fun v => h.number_at rfl rfl) fun delay => ?_
    exact allows_eventArg ledger (fun v => h.text_at rfl rfl) fun record => boolean_allows _
  | isGoalTrue | isGoalFalse =>
    exact allows_goalArg ledger (fun v => h.text_at rfl rfl) fun status => boolean_allows _

end Query

namespace Action

theorem randomBounds_cases (operator : String) {values : List Value}
    (hnumber : ∀ (i : Nat) (v : Value), values[i]? = some v → ∃ x, v = .number x) :
    (∃ bounds, randomBounds operator values = .ok bounds) ∨
      ∃ reason, randomBounds operator values = .error (.failed operator reason) := by
  unfold randomBounds
  rcases Query.numberAt_cases operator (hnumber 0) with ⟨low, hlow⟩ | ⟨reason, hlow⟩ <;> rw [hlow]
  · rcases Query.numberAt_cases operator (hnumber 1) with ⟨high, hhigh⟩ | ⟨reason, hhigh⟩ <;>
      rw [hhigh]
    · change (∃ bounds, (if truncate high < truncate low then _ else _) = _) ∨
        ∃ reason, (if truncate high < truncate low then _ else _) = _
      split
      · exact Or.inr ⟨_, rfl⟩
      · exact Or.inl ⟨_, rfl⟩
    · exact Or.inr ⟨reason, rfl⟩
  · exact Or.inr ⟨reason, rfl⟩

theorem messageArgs_cases (operator : String) {values : List Value}
    (htext : ∀ (i : Nat) (v : Value), values[i]? = some v → ∃ s, v = .text s) :
    (∃ message, messageArgs operator values = .ok message) ∨
      ∃ reason, messageArgs operator values = .error (.failed operator reason) := by
  unfold messageArgs
  rcases Query.textAt_cases operator (htext 0) with ⟨persona, hs⟩ | ⟨reason, hs⟩ <;> rw [hs]
  · rcases Query.textAt_cases operator (htext 1) with ⟨text, hs⟩ | ⟨reason, hs⟩ <;> rw [hs]
    · exact Or.inl ⟨_, rfl⟩
    · exact Or.inr ⟨reason, rfl⟩
  · exact Or.inr ⟨reason, rfl⟩

/-- What an action gives for accepted values is as promised, whatever the environment. -/
theorem perform_allows {H : Type} [Host H] (a : Action) (env : Env H) {values : List Value}
    (h : a.definition.signature.Accepted values) :
    a.definition.signature.returns.Allows (a.perform values env).1 := by
  unfold perform
  cases a with
  | random =>
    have hnumber (i : Nat) (v : Value) (hv : values[i]? = some v) : ∃ x, v = .number x :=
      h.number_at rfl (Signature.constraintAt_of_args_eq rfl i) hv
    rcases randomBounds_cases (random.definition.name) hnumber with ⟨bounds, hbounds⟩ | ⟨reason, hbounds⟩ <;>
      simp only [hbounds]
    · exact number_allows _
    · exact failed_allows _ _ _
  | sendMessage =>
    have htext (i : Nat) (v : Value) (hv : values[i]? = some v) : ∃ s, v = .text s :=
      h.text_at rfl (by rw [Signature.constraintAt_of_args_eq rfl i]; rfl) hv
    rcases messageArgs_cases sendMessage.definition.name htext with ⟨message, hmessage⟩ | ⟨reason, hmessage⟩ <;>
      simp only [hmessage]
    · exact action_allows _
    · exact failed_allows _ _ _
  | spawnWing =>
    obtain ⟨wings, rfl⟩ := h.texts rfl rfl rfl
    simp only [Query.textsFrom_map]
    exact toValue_promised _ (Or.inr rfl)
  | selfDestruct | invalidateGoal | validateGoal =>
    obtain ⟨names, rfl⟩ := h.texts rfl rfl rfl
    simp only [Query.textsFrom_map]
    exact action_allows _

end Action

end MissionScript

import MissionScript.Proofs.Evaluation.Ensures
import MissionScript.Proofs.Evaluation.Journey

/-!
Evaluations side by side. Where two environments look the same to a formula, and go on doing so
whatever one and the same effect does to both of them, the formula has the same value in both.
-/

namespace MissionScript

variable {H : Type} {α β : Type} {R : Env H → Env H → Prop} {formula : String}
  {named : String → Prop}

theorem Node.mem_walkFrom_self (n : Node) (path : Path) : (path, n) ∈ n.walkFrom path := by
  cases n with
  | atom a offset => exact List.mem_singleton_self _
  | list children offset => exact List.mem_cons_self

/-- Whether a formula refers to a variable by a name. -/
def Node.Mentions (root : Node) (name : String) : Prop :=
  ∃ place ∈ root.walk, place.2.variableName? = some name

namespace Env

/-- Gives a variable another value, if it is there. -/
def assign (env : Env H) (name : String) (value : Stored) : Env H :=
  { env with vars := Table.modify env.vars (foldName name) fun v => { v with value } }

/-- Whether related environments look the same to a formula that refers to variables of some names only,
    and stay related when the same is done to both. -/
structure Mirrors (formula : String) (named : String → Prop) (R : Env H → Env H → Prop) : Prop where
  host : ∀ {env env'}, R env env' → env'.host = env.host
  event? : ∀ {env env'}, R env env' → ∀ name, env'.ledger.event? name = env.ledger.event? name
  goal? : ∀ {env env'}, R env env' → ∀ name, env'.ledger.goal? name = env.ledger.goal? name
  latchedAt? : ∀ {env env'}, R env env' → ∀ path,
    env'.ledger.latchedAt? formula path = env.ledger.latchedAt? formula path
  get? : ∀ {env env'}, R env env' → ∀ name, named name → env'.vars.get? name = env.vars.get? name
  /-- the game goes on -/
  play : ∀ {env env'}, R env env' → ∀ host, R { env with host } { env' with host }
  warn : ∀ {env env'}, R env env' → ∀ w, R (env.warn w) (env'.warn w)
  pushDirective : ∀ {env env'}, R env env' → ∀ d, R { env with ledger := env.ledger.pushDirective d }
    { env' with ledger := env'.ledger.pushDirective d }
  latch : ∀ {env env'}, R env env' → ∀ path now,
    R { env with ledger := (env.ledger.latch formula path now).2 }
      { env' with ledger := (env'.ledger.latch formula path now).2 }
  assign : ∀ {env env'}, R env env' → ∀ name, named name → ∀ value,
    R (env.assign name value) (env'.assign name value)
  enter : ∀ {env env'}, R env env' → ∀ path n,
    R (env.record (.enter path n)) (env'.record (.enter path n))
  close : ∀ {env env'}, R env env' → ∀ path offset outcome,
    R (env.close formula path offset outcome) (env'.close formula path offset outcome)

end Env

/-- Whether a computation has the same result in related environments, and leaves them related. -/
def Lockstep (R : Env H → Env H → Prop) (m : EvalM H α) : Prop :=
  ∀ env env', R env env' → (m.run env').1 = (m.run env).1 ∧ R (m.run env).2 (m.run env').2

/-- Whether two computations have the same result in related environments, and leave them related,
    unless the first one comes to where their ways part; it never comes back from there. -/
structure Paired (parted : Env H → Prop) (R : Env H → Env H → Prop) (m m' : EvalM H α) : Prop where
  kept : ∀ env, parted env → parted (m.run env).2
  step : ∀ env env', R env env' → parted (m.run env).2 ∨
    (m'.run env').1 = (m.run env).1 ∧ R (m.run env).2 (m'.run env').2

/-- A computation that is paired with itself goes in lockstep if ways never part. -/
theorem Paired.lockstep {m : EvalM H α} (h : Paired (fun _ => False) R m m) : Lockstep R m :=
  fun env env' hR => (h.step env env' hR).resolve_left id

/-- Whether nothing that an evaluation does leads back from where ways have parted. -/
structure Env.IsFinal [Host H] (parted : Env H → Prop) : Prop where
  effect : Env.Stable parted
  record : ∀ env v, parted env → parted (env.record v)

theorem Env.isFinal_false [Host H] : Env.IsFinal fun _ : Env H => False :=
  ⟨fun _ _ _ => id, fun _ _ => id⟩

section

variable {parted : Env H → Prop}

theorem paired_pure (a : α) : Paired parted R (pure a : EvalM H α) (pure a) :=
  ⟨fun _ h => h, fun _ _ h => Or.inr ⟨rfl, h⟩⟩

theorem Paired.bind {m m' : EvalM H α} {k k' : α → EvalM H β} (hm : Paired parted R m m')
    (hk : ∀ a, Paired parted R (k a) (k' a)) : Paired parted R (m >>= k) (m' >>= k') := by
  refine ⟨fun env h => (hk _).kept _ (hm.kept env h), fun env env' h => ?_⟩
  rw [StateT.run_bind, StateT.run_bind]
  change parted ((k _).run _).2 ∨ ((k' _).run _).1 = ((k _).run _).1 ∧
    R ((k _).run _).2 ((k' _).run _).2
  rcases hm.step env env' h with hparted | ⟨hresult, hrelated⟩
  · exact Or.inl ((hk _).kept _ hparted)
  · rw [hresult]
    exact (hk _).step _ _ hrelated

theorem Paired.bind_pure {m m' : EvalM H α} (hm : Paired parted R m m') (f : α → β) :
    Paired parted R (m >>= fun a => pure (f a)) (m' >>= fun a => pure (f a)) :=
  hm.bind fun _ => paired_pure _

/-- What is read of an environment is the same in both, if it is something in which they agree. -/
theorem paired_get_bind {k k' : Env H → EvalM H β} (hk : ∀ env, Paired parted R (k env) (k' env))
    (hsame : ∀ env env', R env env' → k' env' = k' env) :
    Paired parted R (get >>= k) (get >>= k') := by
  refine ⟨fun env h => (hk env).kept env h, fun env env' h => ?_⟩
  have hrun (k : Env H → EvalM H β) (env : Env H) : (get >>= k : EvalM H β).run env = (k env).run env :=
    rfl
  rw [hrun, hrun, hsame env env' h]
  exact (hk env).step env env' h

theorem paired_modifyGet {f : Env H → α × Env H} (hkept : ∀ env, parted env → parted (f env).2)
    (hf : ∀ env env', R env env' → (f env').1 = (f env).1 ∧ R (f env).2 (f env').2) :
    Paired parted R (modifyGet f : EvalM H α) (modifyGet f) :=
  ⟨hkept, fun env env' h => Or.inr (hf env env' h)⟩

end

/-- Where the same is remembered of a formula, it still is after the same argument has been true. -/
theorem Ledger.latchedAt?_latch_congr {l l' : Ledger}
    (h : ∀ path, l'.latchedAt? formula path = l.latchedAt? formula path) (path : Path) (now : Float)
    (path' : Path) : (l'.latch formula path now).2.latchedAt? formula path' =
      (l.latch formula path now).2.latchedAt? formula path' := by
  have hhere := h path
  have hthere := h path'
  unfold latchedAt? at hhere hthere
  change (l'.latches.insertNew _ now).find? _ = (l.latches.insertNew _ now).find? _
  rw [Table.find?_insertNew, Table.find?_insertNew, hhere, hthere]

/-- Whether two arguments are at one path, name the same variable if they name any, and are evaluated
    in pairs. -/
structure Arg.Pairs (named : String → Prop) (parted : Env H → Prop) (R : Env H → Env H → Prop)
    (arg arg' : Arg H) : Prop where
  path : arg'.path = arg.path
  variableName? : arg'.node.variableName? = arg.node.variableName?
  kind : arg'.node.kind = arg.node.kind
  named : ∀ name, arg.node.variableName? = some name → named name
  eval : Paired parted R arg.eval arg'.eval

namespace Control

variable {parted : Env H → Prop} {args args' : List (Arg H)}

theorem paired_conjunction (hargs : List.Forall₂ (Arg.Pairs named parted R) args args')
    (settled : Bool) : Paired parted R (conjunction settled args) (conjunction settled args') := by
  induction hargs generalizing settled with
  | nil => exact paired_pure _
  | cons harg _ ih =>
    refine harg.eval.bind fun v => ?_
    cases v.truth with
    | knownTrue => exact ih settled
    | trueNow => exact ih false
    | falseNow | knownFalse | unknown => exact paired_pure _

theorem paired_disjunction (hargs : List.Forall₂ (Arg.Pairs named parted R) args args')
    (sofar : Truth) : Paired parted R (disjunction sofar args) (disjunction sofar args') := by
  induction hargs generalizing sofar with
  | nil => exact paired_pure _
  | cons harg _ ih =>
    refine harg.eval.bind fun v => ?_
    cases v.truth with
    | knownTrue | trueNow => exact paired_pure _
    | knownFalse => exact ih sofar
    | falseNow => exact ih _
    | unknown => exact ih .unknown

theorem paired_runAll (hargs : List.Forall₂ (Arg.Pairs named parted R) args args') :
    Paired parted R (runAll args) (runAll args') := by
  induction hargs with
  | nil => exact paired_pure _
  | cons harg _ ih => exact harg.eval.bind fun _ => ih

/-- What is stored in a variable, and whether it is, only depends on this variable. -/
theorem store_congr (operator : String) {name : String} (value : Value) {env env' : Env H}
    (h : env'.vars.get? name = env.vars.get? name) :
    (store operator name value env').1 = (store operator name value env).1 ∧
      ((store operator name value env).2 = env ∧ (store operator name value env').2 = env' ∨
        ∃ stored, (store operator name value env).2 = env.assign name stored ∧
          (store operator name value env').2 = env'.assign name stored) := by
  unfold store
  by_cases hunknown : value.isUnknown = true
  · rw [if_pos hunknown, if_pos hunknown]
    exact ⟨rfl, Or.inl ⟨rfl, rfl⟩⟩
  rw [if_neg hunknown, if_neg hunknown]
  cases hstored : Stored.ofValue? value with
  | none =>
    simp only [Variables.setValue, hstored, h]
    cases env.vars.get? name with
    | none => exact ⟨rfl, Or.inl ⟨rfl, rfl⟩⟩
    | some v => exact ⟨rfl, Or.inl ⟨rfl, rfl⟩⟩
  | some stored =>
    simp only [Variables.setValue, hstored, Variables.set, h]
    cases env.vars.get? name with
    | none => exact ⟨rfl, Or.inl ⟨rfl, rfl⟩⟩
    | some v =>
      dsimp only
      by_cases htype : v.type = stored.type
      · rw [if_neg (not_not_intro htype), if_neg (not_not_intro htype)]
        exact ⟨rfl, Or.inr ⟨stored, rfl, rfl⟩⟩
      · rw [if_pos htype, if_pos htype]
        exact ⟨rfl, Or.inl ⟨rfl, rfl⟩⟩

/-- Which variable an argument is, or why it is none, does not depend on what is below it. -/
theorem target_congr (operator : String) {arg arg' : Arg H} (h : arg.Pairs named parted R arg') :
    target operator arg'.node = target operator arg.node := by
  rw [target, target, h.variableName?, h.kind]

variable [Host H]

/-- A sequence reads and writes what is remembered under the name of its own formula. -/
theorem paired_latchArg (hR : Env.Mirrors formula named R) (hparted : Env.IsFinal parted) (now : Float)
    {arg arg' : Arg H} (harg : arg.Pairs named parted R arg') :
    Paired parted R (latchArg formula now arg) (latchArg formula now arg') := by
  refine harg.eval.bind fun v => ?_
  rw [harg.path]
  dsimp only
  split
  · refine paired_modifyGet (fun env => hparted.effect _ _ (.latch env formula arg.path now))
      fun env env' h => ⟨?_, hR.latch h arg.path now⟩
    exact congrArg (fun time : Option Float => (v.truth, some (time.getD now)))
      (hR.latchedAt? h arg.path)
  · exact paired_get_bind (fun _ => paired_pure _) fun env env' h => by
      rw [hR.latchedAt? h arg.path]

theorem paired_latchAll (hR : Env.Mirrors formula named R) (hparted : Env.IsFinal parted) (now : Float)
    (hargs : List.Forall₂ (Arg.Pairs named parted R) args args') :
    Paired parted R (latchAll formula now args) (latchAll formula now args') := by
  induction hargs with
  | nil => exact paired_pure _
  | cons harg _ ih =>
    exact (paired_latchArg hR hparted now harg).bind fun reading => ih.bind_pure (reading :: ·)

theorem paired_store (hR : Env.Mirrors formula named R) (hparted : Env.IsFinal parted)
    (operator : String) {name : String} (hname : named name) (value : Value) :
    Paired parted R (modifyGet (store operator name value) : EvalM H _)
      (modifyGet (store operator name value)) := by
  refine paired_modifyGet (fun env => store_stable hparted.effect.steady operator name value)
    fun env env' h => ?_
  obtain ⟨hresult, hafter⟩ := store_congr operator value (hR.get? h name hname)
  refine ⟨hresult, ?_⟩
  rcases hafter with ⟨hleft, hright⟩ | ⟨stored, hleft, hright⟩
  · rwa [hleft, hright]
  · rw [hleft, hright]
    exact hR.assign h name hname stored

/-- A control reads the clock, what is remembered of the formula, and the variables that are its
    arguments. -/
theorem paired_run (hR : Env.Mirrors formula named R) (hparted : Env.IsFinal parted) (c : Control)
    (hargs : List.Forall₂ (Arg.Pairs named parted R) args args') :
    Paired parted R (c.run formula args) (c.run formula args') := by
  cases c with
  | and => exact (paired_conjunction hargs true).bind_pure _
  | or => exact (paired_disjunction hargs .knownFalse).bind_pure _
  | andInSequence =>
    exact paired_get_bind (fun _ => (paired_latchAll hR hparted _ hargs).bind_pure _)
      fun env env' h => by rw [hR.host h]
  | «when» | everyTime =>
    rcases hargs with _ | ⟨hcondition, hactions⟩
    · exact paired_pure _
    · refine hcondition.eval.bind fun v => ?_
      dsimp only
      split
      · exact (paired_runAll hactions).bind_pure _
      · exact paired_pure _
  | ifThenElse =>
    rcases hargs with _ | ⟨hcondition, _ | ⟨hyes, _ | ⟨hno, hrest⟩⟩⟩
    · exact paired_pure _
    · exact paired_pure _
    · exact paired_pure _
    · refine hcondition.eval.bind fun v => ?_
      dsimp only
      split
      · exact paired_pure _
      · split
        · exact hyes.eval.bind_pure _
        · exact hno.eval.bind_pure _
  | modifyVariable =>
    rcases hargs with _ | ⟨href, _ | ⟨hvalue, hrest⟩⟩
    · exact paired_pure _
    · exact paired_pure _
    · dsimp only [run]
      rw [target_congr _ href]
      split
      · exact paired_pure _
      · next name htarget =>
        have hname := href.named name (variableName?_of_target htarget)
        exact hvalue.eval.bind fun v => paired_store hR hparted _ hname v
  | variableIsSet =>
    rcases hargs with _ | ⟨href, hrest⟩
    · exact paired_pure _
    · dsimp only [run]
      rw [target_congr _ href]
      split
      · exact paired_pure _
      · next name htarget =>
        have hname := href.named name (variableName?_of_target htarget)
        refine paired_get_bind (fun _ => paired_pure _) fun env env' h => ?_
        rw [isSet, isSet, hR.get? h name hname]

end Control

namespace Action

variable [Host H]

theorem mirrored_spawnWings (hR : Env.Mirrors formula named R) (wings : List String) {env env' : Env H}
    (h : R env env') : (spawnWings env' wings).1 = (spawnWings env wings).1 ∧
      R (spawnWings env wings).2 (spawnWings env' wings).2 := by
  induction wings generalizing env env' with
  | nil => exact ⟨rfl, h⟩
  | cons wing rest ih =>
    rw [spawnWings, spawnWings, hR.host h]
    rcases Host.spawnWing env.host wing with ⟨spawned, host⟩
    have hplay := hR.play h host
    cases spawned with
    | false =>
      obtain ⟨hothers, hafter⟩ := ih (hR.warn hplay (.spawnWingRejected wing))
      exact ⟨congrArg (false && ·) hothers, hafter⟩
    | true =>
      obtain ⟨hothers, hafter⟩ := ih hplay
      exact ⟨congrArg (true && ·) hothers, hafter⟩

omit [Host H] in
theorem mirrored_pushDirectives (hR : Env.Mirrors formula named R) (invalid : Bool)
    (goals : List String) {env env' : Env H} (h : R env env') :
    R { env with ledger := pushDirectives env.ledger invalid goals }
      { env' with ledger := pushDirectives env'.ledger invalid goals } := by
  induction goals generalizing env env' with
  | nil => exact h
  | cons goal rest ih => exact ih (hR.pushDirective h ⟨goal, invalid⟩)

/-- An action reads the game. -/
theorem perform_congr (hR : Env.Mirrors formula named R) (a : Action) (values : List Value)
    {env env' : Env H} (h : R env env') : (a.perform values env').1 = (a.perform values env).1 ∧
      R (a.perform values env).2 (a.perform values env').2 := by
  unfold perform
  cases a with
  | random | sendMessage | selfDestruct =>
    dsimp only
    split
    · exact ⟨rfl, h⟩
    · rw [hR.host h]
      exact ⟨rfl, hR.play h _⟩
  | spawnWing =>
    dsimp only
    split
    · exact ⟨rfl, h⟩
    · next wings _ =>
      obtain ⟨hspawned, hafter⟩ := mirrored_spawnWings hR wings h
      exact ⟨congrArg (fun spawned => Except.ok (Value.bool spawned)) hspawned, hafter⟩
  | invalidateGoal | validateGoal =>
    dsimp only
    split
    · exact ⟨rfl, h⟩
    · exact ⟨rfl, mirrored_pushDirectives hR _ _ h⟩

end Action

namespace Evaluation

/-- A query reads the game and the records of events and goals. -/
theorem answer_of_mirrors [Host H] (hR : Env.Mirrors formula named R) (q : Query)
    (values : List Value) {env env' : Env H} (h : R env env') :
    q.answer env'.host env'.ledger values = q.answer env.host env.ledger values := by
  have hevent := funext (hR.event? h)
  have hgoal := funext (hR.goal? h)
  have heventArg (operator : String) : Query.eventArg operator env'.ledger values =
      Query.eventArg operator env.ledger values := by
    simp only [Query.eventArg, hevent]
  have hgoalArg (operator : String) : Query.goalArg operator env'.ledger values =
      Query.goalArg operator env.ledger values := by
    simp only [Query.goalArg, hgoal]
  rw [hR.host h]
  cases q <;> simp only [Query.answer, heventArg, hgoalArg]

variable [Host H] {parted : Env H → Prop} {args args' : List (Arg H)}

theorem paired_applyEager (hR : Env.Mirrors formula named R) (hparted : Env.IsFinal parted)
    (operator : Operator) (path : Path) (values : List Value) :
    Paired parted R (modifyGet (applyEager operator formula path values) : EvalM H _)
      (modifyGet (applyEager operator formula path values)) := by
  refine paired_modifyGet
    (fun env => applyEager_stable hparted.effect.steady.calm operator formula path values)
    fun env env' h => ?_
  unfold applyEager
  split
  · exact ⟨rfl, h⟩
  · split
    · exact ⟨rfl, h⟩
    · split
      · exact ⟨rfl, h⟩
      · split
        · exact ⟨answer_of_mirrors hR _ values h, h⟩
        · exact Action.perform_congr hR _ values h
        · exact ⟨rfl, h⟩
        · exact ⟨rfl, h⟩

omit [Host H] in
theorem paired_evalAll (hargs : List.Forall₂ (Arg.Pairs named parted R) args args') :
    Paired parted R (evalAll args) (evalAll args') := by
  induction hargs with
  | nil => exact paired_pure _
  | cons harg _ ih => exact harg.eval.bind fun v => ih.bind_pure (v :: ·)

theorem paired_apply (hR : Env.Mirrors formula named R) (hparted : Env.IsFinal parted)
    (registry : Registry) (path : Path) (operator : Option String)
    (hargs : List.Forall₂ (Arg.Pairs named parted R) args args') :
    Paired parted R (apply registry formula path operator args)
      (apply registry formula path operator args') := by
  unfold apply
  split
  · exact paired_pure _
  · split
    · exact paired_pure _
    · split
      · unfold applyLazy
        rw [hargs.length_eq]
        split
        · exact paired_pure _
        · split
          · exact Control.paired_run hR hparted _ hargs
          · exact paired_pure _
          · exact (Control.paired_runAll hargs).bind_pure _
      · exact (paired_evalAll hargs).bind fun values => paired_applyEager hR hparted _ path values

/-- Two nodes at one path, each entered as it is. -/
theorem paired_visit (hR : Env.Mirrors formula named R) (hparted : Env.IsFinal parted) (path : Path)
    {n n' : Node} (hoffset : n'.offset = n.offset)
    (henter : ∀ env env', R env env' → R (env.record (.enter path n)) (env'.record (.enter path n')))
    {attempt attempt' : EvalM H (Except EvalError Value)} (hattempt : Paired parted R attempt attempt') :
    Paired parted R (visit formula path n attempt) (visit formula path n' attempt') := by
  have hclose (env : Env H) (outcome : Except EvalError Value) (h : parted env) :
      parted (env.close formula path n.offset outcome) := by
    cases outcome with
    | ok v => exact hparted.record env _ h
    | error e => exact hparted.record _ _ (hparted.effect.steady.calm.report h formula path n.offset e)
  refine ⟨fun env h => ?_, fun env env' h => ?_⟩
  · have hentered := hparted.record env (.enter path n) h
    rw [run_visit]
    by_cases hdeep : maxEvalDepth ≤ path.length
    · rw [if_pos hdeep]
      exact hclose _ (.error (.depthExceeded maxEvalDepth)) hentered
    · rw [if_neg hdeep]
      exact hclose _ _ (hattempt.kept _ hentered)
  · have hentered := henter env env' h
    rw [run_visit, run_visit, hoffset]
    by_cases hdeep : maxEvalDepth ≤ path.length
    · rw [if_pos hdeep, if_pos hdeep]
      exact Or.inr ⟨rfl, hR.close hentered path n.offset (.error (.depthExceeded maxEvalDepth))⟩
    · rw [if_neg hdeep, if_neg hdeep]
      have hattempted := hattempt.step _ _ hentered
      generalize attempt.run (env.record (.enter path n)) = result at hattempted
      generalize attempt'.run (env'.record (.enter path n')) = result' at hattempted
      obtain ⟨outcome, after⟩ := result
      obtain ⟨outcome', after'⟩ := result'
      rcases hattempted with hafter | ⟨rfl, hafter⟩
      · exact Or.inl (hclose after outcome hafter)
      · exact Or.inr ⟨rfl, hR.close hafter path n.offset outcome'⟩

omit [Host H] in
theorem paired_atomValue (hR : Env.Mirrors formula named R) (a : Atom) (offset : Nat)
    (hnamed : ∀ name, (Node.atom a offset).variableName? = some name → named name) :
    Paired parted R (do return atomValue (← get).vars a : EvalM H _)
      (do return atomValue (← get).vars a) := by
  refine paired_get_bind (fun _ => paired_pure _) fun env env' h => ?_
  cases a with
  | «variable» name =>
    have hname := hnamed name rfl
    rw [atomValue, atomValue, hR.get? h name hname]
  | operator | number | text => rfl

mutual

/-- A formula has the same value where it finds the same, and does the same there. -/
theorem paired_evalNode (hR : Env.Mirrors formula named R) (hparted : Env.IsFinal parted)
    (registry : Registry) (path : Path) (n : Node)
    (hnamed : ∀ place ∈ n.walkFrom path, ∀ name, place.2.variableName? = some name → named name) :
    Paired parted R (evalNode registry formula path n) (evalNode registry formula path n) := by
  have henter (env env' : Env H) (h : R env env') := hR.enter h path n
  cases n with
  | atom a offset =>
    rw [Node.walkFrom, List.forall_mem_singleton] at hnamed
    rw [evalNode]
    exact paired_visit hR hparted path rfl henter (paired_atomValue hR a offset hnamed)
  | list children offset =>
    rw [Node.walkFrom] at hnamed
    rw [evalNode]
    have hargs := List.forall₂_drop 1
      (pairs_childArgs hR hparted registry path 0 children (List.forall_mem_cons.1 hnamed).2)
    rw [List.drop_one] at hargs
    exact paired_visit hR hparted path rfl henter (paired_apply hR hparted registry path _ hargs)

theorem pairs_childArgs (hR : Env.Mirrors formula named R) (hparted : Env.IsFinal parted)
    (registry : Registry) (path : Path) (index : Nat) (nodes : List Node)
    (hnamed : ∀ place ∈ Node.walkAll path index nodes,
      ∀ name, place.2.variableName? = some name → named name) :
    List.Forall₂ (Arg.Pairs named parted R) (childArgs registry formula path index nodes)
      (childArgs registry formula path index nodes) := by
  cases nodes with
  | nil =>
    rw [childArgs]
    exact .nil
  | cons n rest =>
    rw [Node.walkAll, List.forall_mem_append] at hnamed
    obtain ⟨hn, hrest⟩ := hnamed
    rw [childArgs]
    exact .cons ⟨rfl, rfl, rfl, hn (path.child index, n) (n.mem_walkFrom_self _),
      paired_evalNode hR hparted registry (path.child index) n hn⟩
      (pairs_childArgs hR hparted registry path (index + 1) rest hrest)

end

theorem lockstep_evalNode (hR : Env.Mirrors formula named R) (registry : Registry) (path : Path)
    (n : Node) (hnamed : ∀ place ∈ n.walkFrom path, ∀ name, place.2.variableName? = some name →
      named name) : Lockstep R (evalNode registry formula path n) :=
  (paired_evalNode hR Env.isFinal_false registry path n hnamed).lockstep

end Evaluation

/-- Evaluations of a formula, side by side in environments that look the same to it. -/
theorem lockstep_evaluate [Host H] (hR : Env.Mirrors formula named R)
    (hstart : ∀ env env', R env env' → R { env with trace := #[] } { env' with trace := #[] })
    (registry : Registry) (root : Node) (hnamed : ∀ name, root.Mentions name → named name) :
    Lockstep R (evaluate registry formula root) :=
  fun env env' h => Evaluation.lockstep_evalNode hR registry [] root
    (fun place hplace name hname => hnamed name ⟨place, hplace, hname⟩) _ _ (hstart env env' h)

end MissionScript

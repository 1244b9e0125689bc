import MissionScript.Evaluation.Basic
import MissionScript.Proofs.Variable.Store
import Mathlib.Data.List.Forall2

/-!
What an evaluation can do to its environment. Apart from the trace, every change is one of a few
effects; what these effects keep is kept by every formula, whatever the operators are.
-/

namespace MissionScript

variable {H : Type}

namespace Env

/-- What a formula does to the game, the variables, the ledger or the warnings at one moment. -/
inductive Effect [Host H] : Env H → Env H → Prop where
  | warn (env : Env H) (w : Warning) : Effect env (env.warn w)
  | sendMessage (env : Env H) (persona text : String) :
    Effect env { env with host := Host.sendMessage env.host persona text }
  | spawnWing (env : Env H) (wing : String) :
    Effect env { env with host := (Host.spawnWing env.host wing).2 }
  | destroyShip (env : Env H) (ship : String) :
    Effect env { env with host := (Host.destroyShip env.host ship).2 }
  | randomInt (env : Env H) (low high : Int64) :
    Effect env { env with host := (Host.randomInt env.host low high).2 }
  | pushDirective (env : Env H) (d : Directive) :
    Effect env { env with ledger := env.ledger.pushDirective d }
  | latch (env : Env H) (formula : String) (path : Path) (now : Float) :
    Effect env { env with ledger := (env.ledger.latch formula path now).2 }
  | warnOnce (env : Env H) (name : String) :
    Effect env { env with ledger := (env.ledger.warnOnce name).2 }
  | countError (env : Env H) : Effect env { env with ledger := env.ledger.countError }
  | setVariable {env : Env H} {name : String} {value : Stored} {vars : Variables}
    (hset : env.vars.set name value = .ok vars) : Effect env { env with vars }

theorem Effect.trace_eq [Host H] {env env' : Env H} (h : Effect env env') : env'.trace = env.trace := by
  cases h <;> rfl

/-- An effect leaves the variables alone, or stores a value in one of them. -/
theorem Effect.vars [Host H] {env env' : Env H} (h : Effect env env') :
    env'.vars = env.vars ∨ ∃ name value, env.vars.set name value = .ok env'.vars := by
  cases h with
  | setVariable hset => exact Or.inr ⟨_, _, hset⟩
  | _ => exact Or.inl rfl

/-- An invariant that no effect breaks. -/
def Stable [Host H] (I : Env H → Prop) : Prop :=
  ∀ env env', Effect env env' → I env → I env'

/-- An invariant that no effect breaks but those on variables and latches. -/
def Calm [Host H] (I : Env H → Prop) : Prop :=
  ∀ env env', Effect env env' → env'.vars = env.vars →
    env'.ledger.latches = env.ledger.latches → I env → I env'

/-- An invariant that no effect breaks, as far as latches are set to times that the game shows. -/
structure Steady [Host H] (I : Env H → Prop) : Prop where
  effect : ∀ env env', Effect env env' → env'.ledger.latches = env.ledger.latches → I env → I env'
  latch : ∀ earlier env formula path, I earlier → I env →
    I { env with ledger := (env.ledger.latch formula path (Host.time earlier.host)).2 }

theorem Stable.steady [Host H] {I : Env H → Prop} (hI : Stable I) : Steady I :=
  ⟨fun env env' heffect _ => hI env env' heffect, fun _ env formula path _ =>
    hI _ _ (.latch env formula path _)⟩

theorem Steady.calm [Host H] {I : Env H → Prop} (hI : Steady I) : Calm I :=
  fun env env' heffect _ => hI.effect env env' heffect

/-- Reporting an error is a matter of the ledger and the warnings. -/
theorem Calm.report [Host H] {I : Env H → Prop} (hI : Calm I) {env : Env H} (henv : I env)
    (formula : String) (path : Path) (offset : Nat) (e : EvalError) :
    I (env.report formula path offset e) := by
  unfold Env.report
  apply hI _ _ (.countError _) rfl rfl
  cases e with
  | unknownVariable name =>
    have hlatches : (env.ledger.warnOnce name).2.latches = env.ledger.latches := by
      unfold Ledger.warnOnce
      dsimp only
      split <;> rfl
    have hledger := hI _ _ (.warnOnce env name) rfl hlatches henv
    dsimp only
    split
    · exact hI _ _ (.warn _ _) rfl rfl hledger
    · exact hledger
  | _ => exact hI _ _ (.warn _ _) rfl rfl henv

end Env

/-- Whether formulas do not change the time of a game. -/
def Host.KeepsTime (H : Type) [Host H] : Prop :=
  ∀ env env' : Env H, env.Effect env' → Host.time env'.host = Host.time env.host

/-- A computation keeps an invariant of the environment, and its results have a property. -/
def Ensures {α : Type} (I : Env H → Prop) (m : EvalM H α) (Q : α → Prop) : Prop :=
  ∀ env, I env → Q (m.run env).1 ∧ I (m.run env).2

/-- A computation keeps an invariant of the environment. -/
abbrev Preserves {α : Type} (I : Env H → Prop) (m : EvalM H α) : Prop :=
  Ensures I m fun _ => True

section

variable {α β : Type} {I : Env H → Prop}

theorem ensures_pure {Q : α → Prop} {a : α} (h : Q a) : Ensures I (pure a) Q :=
  fun _ henv => ⟨h, henv⟩

theorem Ensures.bind {m : EvalM H α} {k : α → EvalM H β} {Q : α → Prop} {R : β → Prop}
    (hm : Ensures I m Q) (hk : ∀ a, Q a → Ensures I (k a) R) : Ensures I (m >>= k) R := by
  intro env henv
  obtain ⟨hresult, henv'⟩ := hm env henv
  exact hk _ hresult _ henv'

theorem Ensures.mono {m : EvalM H α} {Q R : α → Prop} (hm : Ensures I m Q)
    (h : ∀ a, Q a → R a) : Ensures I m R :=
  fun env henv => ⟨h _ (hm env henv).1, (hm env henv).2⟩

theorem Ensures.preserves {m : EvalM H α} {Q : α → Prop} (hm : Ensures I m Q) : Preserves I m :=
  hm.mono fun _ _ => trivial

theorem ensures_get : Ensures I get I :=
  fun _ henv => ⟨henv, henv⟩

theorem ensures_modify {f : Env H → Env H} (h : ∀ env, I env → I (f env)) :
    Preserves I (modify f : EvalM H PUnit) :=
  fun env henv => ⟨trivial, h env henv⟩

theorem ensures_modifyGet {f : Env H → α × Env H} {Q : α → Prop}
    (h : ∀ env, I env → Q (f env).1 ∧ I (f env).2) : Ensures I (modifyGet f : EvalM H α) Q :=
  fun env henv => h env henv

end

namespace Evaluation

variable {I : Env H → Prop} {args : List (Arg H)}

/-- The values of arguments, each with what is known of the argument. -/
theorem ensures_evalAll {Q : Arg H → Value → Prop}
    (hargs : ∀ arg ∈ args, Ensures I arg.eval (Q arg)) :
    Ensures I (evalAll args) fun values => List.Forall₂ Q args values := by
  induction args with
  | nil => exact ensures_pure .nil
  | cons arg rest ih =>
    obtain ⟨harg, hrest⟩ := List.forall_mem_cons.1 hargs
    refine harg.bind fun v hv => (ih hrest).bind fun values hvalues => ?_
    exact ensures_pure (.cons hv hvalues)

end Evaluation

namespace Control

variable {I : Env H → Prop} {args : List (Arg H)}

theorem preserves_conjunction (hargs : ∀ arg ∈ args, Preserves I arg.eval) (settled : Bool) :
    Preserves I (conjunction settled args) := by
  induction args generalizing settled with
  | nil => exact ensures_pure trivial
  | cons arg rest ih =>
    obtain ⟨harg, hrest⟩ := List.forall_mem_cons.1 hargs
    refine harg.bind fun v _ => ?_
    cases v.truth with
    | knownTrue => exact ih hrest settled
    | trueNow => exact ih hrest false
    | falseNow | knownFalse | unknown => exact ensures_pure trivial

theorem preserves_disjunction (hargs : ∀ arg ∈ args, Preserves I arg.eval) (sofar : Truth) :
    Preserves I (disjunction sofar args) := by
  induction args generalizing sofar with
  | nil => exact ensures_pure trivial
  | cons arg rest ih =>
    obtain ⟨harg, hrest⟩ := List.forall_mem_cons.1 hargs
    refine harg.bind fun v _ => ?_
    cases v.truth with
    | knownTrue | trueNow => exact ensures_pure trivial
    | knownFalse => exact ih hrest sofar
    | falseNow => exact ih hrest _
    | unknown => exact ih hrest .unknown

theorem preserves_runAll (hargs : ∀ arg ∈ args, Preserves I arg.eval) :
    Preserves I (runAll args) := by
  induction args with
  | nil => exact ensures_pure trivial
  | cons arg rest ih =>
    obtain ⟨harg, hrest⟩ := List.forall_mem_cons.1 hargs
    exact harg.bind fun _ _ => ih hrest

theorem preserves_latchArg {formula : String} {now : Float} {arg : Arg H}
    (hlatch : ∀ env, I env → I { env with ledger := (env.ledger.latch formula arg.path now).2 })
    (harg : Preserves I arg.eval) : Preserves I (latchArg formula now arg) := by
  refine harg.bind fun v _ => ?_
  dsimp only
  split
  · exact ensures_modifyGet fun env henv => ⟨trivial, hlatch env henv⟩
  · exact ensures_get.bind fun _ _ => ensures_pure trivial

theorem preserves_latchAll {formula : String} {now : Float}
    (hlatch : ∀ arg ∈ args, ∀ env, I env →
      I { env with ledger := (env.ledger.latch formula arg.path now).2 })
    (hargs : ∀ arg ∈ args, Preserves I arg.eval) : Preserves I (latchAll formula now args) := by
  induction args with
  | nil => exact ensures_pure trivial
  | cons arg rest ih =>
    obtain ⟨harg, hrest⟩ := List.forall_mem_cons.1 hargs
    obtain ⟨hlatchArg, hlatchRest⟩ := List.forall_mem_cons.1 hlatch
    refine (preserves_latchArg hlatchArg harg).bind fun _ _ => ?_
    exact (ih hlatchRest hrest).bind fun _ _ => ensures_pure trivial

theorem variableName?_of_target {operator name : String} {node : Node}
    (h : target operator node = .ok name) : node.variableName? = some name := by
  unfold target at h
  split at h
  · next heq => rw [heq, Except.ok.inj h]
  · cases h

variable [Host H]

theorem store_stable (hI : Env.Steady I) (operator name : String) (value : Value) {env : Env H}
    (henv : I env) : I (store operator name value env).2 := by
  unfold store
  split
  · exact henv
  · split
    · next vars hset =>
      obtain ⟨stored, -, hset⟩ := Variables.exists_set_of_setValue hset
      exact hI.effect _ _ (.setVariable hset) rfl henv
    · exact henv
    · exact henv
    · exact henv

/-- A control only does what its arguments do, and besides a sequence remembers when they were true,
    and a value is stored in the variable that is its target. -/
theorem preserves_run {c : Control} {formula : String}
    (hlatch : c = .andInSequence → ∀ earlier, I earlier → ∀ arg ∈ args, ∀ env, I env →
      I { env with ledger := (env.ledger.latch formula arg.path (Host.time earlier.host)).2 })
    (hstore : c = .modifyVariable → ∀ ref ∈ args.head?, ∀ operator name value env,
      ref.node.variableName? = some name → I env → I (store operator name value env).2)
    (hargs : ∀ arg ∈ args, Preserves I arg.eval) : Preserves I (c.run formula args) := by
  cases c with
  | and => exact (preserves_conjunction hargs true).bind fun _ _ => ensures_pure trivial
  | or => exact (preserves_disjunction hargs .knownFalse).bind fun _ _ => ensures_pure trivial
  | andInSequence =>
    refine ensures_get.bind fun earlier hearlier => ?_
    exact (preserves_latchAll (hlatch rfl earlier hearlier) hargs).bind fun _ _ =>
      ensures_pure trivial
  | «when» | everyTime =>
    cases args with
    | nil => exact ensures_pure trivial
    | cons condition actions =>
      obtain ⟨hcondition, hactions⟩ := List.forall_mem_cons.1 hargs
      refine hcondition.bind fun v _ => ?_
      dsimp only
      split
      · exact (preserves_runAll hactions).bind fun _ _ => ensures_pure trivial
      · exact ensures_pure trivial
  | ifThenElse =>
    rcases args with _ | ⟨condition, _ | ⟨yes, _ | ⟨no, rest⟩⟩⟩
    · exact ensures_pure trivial
    · exact ensures_pure trivial
    · exact ensures_pure trivial
    · simp only [List.forall_mem_cons] at hargs
      obtain ⟨hcondition, hyes, hno, -⟩ := hargs
      refine hcondition.bind fun v _ => ?_
      dsimp only
      split
      · exact ensures_pure trivial
      · split
        · exact hyes.bind fun _ _ => ensures_pure trivial
        · exact hno.bind fun _ _ => ensures_pure trivial
  | modifyVariable =>
    rcases args with _ | ⟨ref, _ | ⟨value, rest⟩⟩
    · exact ensures_pure trivial
    · exact ensures_pure trivial
    · simp only [List.forall_mem_cons] at hargs
      obtain ⟨-, hvalue, -⟩ := hargs
      dsimp only [run]
      split
      · exact ensures_pure trivial
      · next name htarget =>
        refine hvalue.bind fun v _ => ensures_modifyGet fun env henv => ⟨trivial, ?_⟩
        exact hstore rfl ref rfl _ name v env (variableName?_of_target htarget) henv
  | variableIsSet =>
    cases args with
    | nil => exact ensures_pure trivial
    | cons ref rest =>
      dsimp only [run]
      split
      · exact ensures_pure trivial
      · exact ensures_get.bind fun _ _ => ensures_pure trivial

end Control

namespace Action

variable [Host H] {I : Env H → Prop}

theorem spawnWings_stable (hI : Env.Calm I) {env : Env H} (henv : I env) (wings : List String) :
    I (spawnWings env wings).2 := by
  induction wings generalizing env with
  | nil => exact henv
  | cons wing rest ih =>
    have hspawn := hI _ _ (.spawnWing env wing) rfl rfl henv
    unfold spawnWings
    dsimp only
    split
    · exact ih hspawn
    · exact ih (hI _ _ (.warn _ _) rfl rfl hspawn)

theorem destroyShips_stable (hI : Env.Calm I) {env : Env H} (henv : I env) (ships : List String) :
    I { env with host := destroyShips env.host ships } := by
  induction ships generalizing env with
  | nil => exact henv
  | cons ship rest ih => exact ih (hI _ _ (.destroyShip env ship) rfl rfl henv)

theorem pushDirectives_stable (hI : Env.Calm I) {env : Env H} (henv : I env) (invalid : Bool)
    (goals : List String) : I { env with ledger := pushDirectives env.ledger invalid goals } := by
  induction goals generalizing env with
  | nil => exact henv
  | cons goal rest ih => exact ih (hI _ _ (.pushDirective env ⟨goal, invalid⟩) rfl rfl henv)

/-- An action has a few effects, one after the other. -/
theorem perform_stable (hI : Env.Calm I) (a : Action) (values : List Value) {env : Env H}
    (henv : I env) : I (a.perform values env).2 := by
  unfold perform
  cases a with
  | random =>
    dsimp only
    split
    · exact henv
    · exact hI _ _ (.randomInt env _ _) rfl rfl henv
  | sendMessage =>
    dsimp only
    split
    · exact henv
    · exact hI _ _ (.sendMessage env _ _) rfl rfl henv
  | spawnWing =>
    dsimp only
    split
    · exact henv
    · exact spawnWings_stable hI henv _
  | selfDestruct =>
    dsimp only
    split
    · exact henv
    · exact destroyShips_stable hI henv _
  | invalidateGoal | validateGoal =>
    dsimp only
    split
    · exact henv
    · exact pushDirectives_stable hI henv _ _

end Action

namespace Evaluation

variable [Host H] {I : Env H → Prop}

/-- A visit records what it enters and leaves, and what it reports is unknown. -/
theorem ensures_visit (hI : Env.Calm I) {formula : String} {path : Path} {node : Node}
    {attempt : EvalM H (Except EvalError Value)} {Q : Except EvalError Value → Prop}
    (hattempt : Ensures I attempt Q)
    (hdeep : maxEvalDepth ≤ path.length → Q (.error (.depthExceeded maxEvalDepth)))
    (henter : ∀ env, I env → I (env.record (.enter path node)))
    (hleave : ∀ env outcome, Q outcome → I env → I (env.record (.leave path outcome))) :
    Ensures I (visit formula path node attempt) fun v => v = .unknown ∨ Q (.ok v) := by
  refine (ensures_modify henter).bind fun _ _ => ?_
  dsimp only
  split
  on_goal 1 => refine (ensures_pure (hdeep ‹_›)).bind fun outcome hQ => ?_
  on_goal 2 => refine hattempt.bind fun outcome hQ => ?_
  -- however the outcome has come about, the node is left with it
  all_goals
    cases outcome with
    | ok v =>
      refine (ensures_modify fun env henv => hleave env _ hQ henv).bind fun _ _ => ?_
      exact ensures_pure (Or.inr hQ)
    | error e =>
      refine (ensures_modify fun env henv => ?_).bind fun _ _ => ensures_pure (Or.inl rfl)
      exact hleave _ _ hQ (hI.report henv formula path node.offset e)

theorem mismatch?_eq_none {operator : Operator} {values : List Value}
    (h : ∀ i v, values[i]? = some v → (operator.signature.constraintAt i).acceptsValue v = true) :
    mismatch? operator values = none := by
  refine List.findSome?_eq_none_iff.2 fun ⟨v, i⟩ hmem => ?_
  exact if_pos (h i v (List.mk_mem_zipIdx_iff_getElem?.1 hmem))

/-- Only an action leaves anything behind besides what its arguments do. -/
theorem applyEager_eq (operator : Operator) (formula : String) (path : Path) (values : List Value)
    (env : Env H) : (applyEager operator formula path values env).2 = env ∨
      ∃ a, operator.behaviour = .builtin (.action a) ∧
        (applyEager operator formula path values env).2 = (a.perform values env).2 := by
  unfold applyEager
  split
  · exact Or.inl rfl
  · split
    · exact Or.inl rfl
    · split
      · exact Or.inl rfl
      · split
        · exact Or.inl rfl
        · next a ha => exact Or.inr ⟨a, ha, rfl⟩
        · exact Or.inl rfl
        · exact Or.inl rfl

theorem applyEager_stable (hI : Env.Calm I) (operator : Operator) (formula : String) (path : Path)
    (values : List Value) {env : Env H} (henv : I env) :
    I (applyEager operator formula path values env).2 := by
  rcases applyEager_eq operator formula path values env with heq | ⟨a, -, heq⟩
  · rwa [heq]
  · rw [heq]
    exact Action.perform_stable hI a values henv

/-- Applying an operator keeps what it keeps as a control, or after its arguments. -/
theorem preserves_apply {registry : Registry} {formula : String} {path : Path} {name : Option String}
    {args : List (Arg H)} (hargs : ∀ arg ∈ args, Preserves I arg.eval)
    (hcontrol : ∀ operator c, name.bind registry.get? = some operator →
      operator.behaviour = .builtin (.control c) → Preserves I (c.run formula args))
    (heager : ∀ operator, name.bind registry.get? = some operator → Preserves I do
      let values ← evalAll args
      modifyGet (applyEager operator formula path values)) :
    Preserves I (apply registry formula path name args) := by
  unfold apply
  split
  · exact ensures_pure trivial
  · split
    · exact ensures_pure trivial
    · next operator hoperator =>
      split
      · unfold applyLazy
        split
        · exact ensures_pure trivial
        · split
          · next c hc => exact hcontrol operator c hoperator hc
          · exact ensures_pure trivial
          · exact (Control.preserves_runAll hargs).bind fun _ _ => ensures_pure trivial
      · exact heager operator hoperator

theorem preserves_apply_of_steady (hI : Env.Steady I) (registry : Registry) (formula : String)
    (path : Path) (name : Option String) {args : List (Arg H)}
    (hargs : ∀ arg ∈ args, Preserves I arg.eval) :
    Preserves I (apply registry formula path name args) := by
  refine preserves_apply hargs (fun operator c _ _ => ?_) fun operator _ => ?_
  · refine Control.preserves_run (fun _ earlier hearlier arg _ env => ?_)
      (fun _ _ _ operator name value env _ => Control.store_stable hI operator name value) hargs
    exact hI.latch earlier env formula arg.path hearlier
  · refine (ensures_evalAll (Q := fun _ _ => True) hargs).bind fun values _ => ?_
    exact ensures_modifyGet fun env henv =>
      ⟨trivial, applyEager_stable hI.calm operator formula path values henv⟩

mutual

/-- Evaluating a node keeps what no effect and no record breaks. -/
theorem preserves_evalNode (hI : Env.Steady I) (hrecord : ∀ env v, I env → I (env.record v))
    (registry : Registry) (formula : String) (path : Path) (n : Node) :
    Preserves I (evalNode registry formula path n) := by
  cases n with
  | atom a offset =>
    rw [evalNode]
    exact (ensures_visit hI.calm (Q := fun _ => True)
      (ensures_get.bind fun _ _ => ensures_pure trivial) (fun _ => trivial)
      (fun env => hrecord env _) fun env _ _ => hrecord env _).preserves
  | list children offset =>
    rw [evalNode]
    have hargs : ∀ arg ∈ (childArgs registry formula path 0 children).tail,
        Preserves I arg.eval := fun arg harg =>
      preserves_childArgs hI hrecord registry formula path 0 children arg (List.mem_of_mem_tail harg)
    exact (ensures_visit hI.calm (preserves_apply_of_steady hI registry formula path _ hargs)
      (fun _ => trivial) (fun env => hrecord env _) fun env _ _ => hrecord env _).preserves

theorem preserves_childArgs (hI : Env.Steady I) (hrecord : ∀ env v, I env → I (env.record v))
    (registry : Registry) (formula : String) (path : Path) (index : Nat) (nodes : List Node) :
    ∀ arg ∈ childArgs registry formula path index nodes, Preserves I arg.eval := by
  cases nodes with
  | nil =>
    rw [childArgs]
    exact fun arg harg => absurd harg List.not_mem_nil
  | cons n rest =>
    rw [childArgs]
    exact List.forall_mem_cons.2 ⟨preserves_evalNode hI hrecord registry formula (path.child index) n,
      preserves_childArgs hI hrecord registry formula path (index + 1) rest⟩

end

/-- The arguments of a list, from an index on. -/
theorem getElem?_childArgs (registry : Registry) (formula : String) (path : Path) (index : Nat)
    (nodes : List Node) (i : Nat) :
    (childArgs (H := H) registry formula path index nodes)[i]? = nodes[i]?.map fun n =>
      ⟨n, path.child (index + i), evalNode registry formula (path.child (index + i)) n⟩ := by
  induction nodes generalizing index i with
  | nil => rfl
  | cons n rest ih =>
    rw [childArgs]
    cases i with
    | zero => rfl
    | succ i =>
      rw [List.getElem?_cons_succ, List.getElem?_cons_succ, ih,
        show index + 1 + i = index + (i + 1) by omega]

theorem length_childArgs (registry : Registry) (formula : String) (path : Path) (index : Nat)
    (nodes : List Node) :
    (childArgs (H := H) registry formula path index nodes).length = nodes.length := by
  induction nodes generalizing index with
  | nil => rfl
  | cons n rest ih => rw [childArgs, List.length_cons, ih, List.length_cons]

theorem exists_of_mem_childArgs {registry : Registry} {formula : String} {path : Path} {index : Nat}
    {nodes : List Node} {arg : Arg H} (harg : arg ∈ childArgs registry formula path index nodes) :
    ∃ i n, nodes[i]? = some n ∧ arg =
      ⟨n, path.child (index + i), evalNode registry formula (path.child (index + i)) n⟩ := by
  obtain ⟨i, hi⟩ := List.mem_iff_getElem?.1 harg
  rw [getElem?_childArgs, Option.map_eq_some_iff] at hi
  obtain ⟨n, hn, rfl⟩ := hi
  exact ⟨i, n, hn, rfl⟩

end Evaluation

/-- Evaluating a formula keeps what no effect breaks, if it does not depend on the trace. -/
theorem preserves_evaluate [Host H] {I : Env H → Prop} (hI : Env.Steady I)
    (htrace : ∀ env trace, I env → I { env with trace }) (registry : Registry) (formula : String)
    (root : Node) : Preserves I (evaluate registry formula root) := by
  refine (ensures_modify fun env henv => htrace env #[] henv).bind fun _ _ => ?_
  exact Evaluation.preserves_evalNode hI (fun env v => htrace env _) registry formula [] root

/-- What has become of events and goals is not for formulas to write down. -/
theorem records_evaluate [Host H] (registry : Registry) (formula : String) (root : Node)
    (env : Env H) :
    ((evaluate registry formula root).run env).2.ledger.events = env.ledger.events ∧
      ((evaluate registry formula root).run env).2.ledger.goals = env.ledger.goals := by
  have hstable : Env.Stable fun env' : Env H =>
      env'.ledger.events = env.ledger.events ∧ env'.ledger.goals = env.ledger.goals := by
    intro env₁ env₂ heffect h
    cases heffect with
    | warnOnce name =>
      unfold Ledger.warnOnce
      dsimp only
      split <;> exact h
    | _ => exact h
  exact (preserves_evaluate hstable.steady (fun _ _ h => h) registry formula root env ⟨rfl, rfl⟩).2

end MissionScript

import MissionScript.Proofs.Evaluation.Account

/-!
How operators use their arguments. Every operator but a sequence evaluates some of them, each at most
once and in order, and what it does besides is neither traced, nor remembered, nor reported.
-/

namespace MissionScript

variable {H : Type}

/-- What can become of an environment when some arguments of a row are evaluated, each at most once
    and in order, and nothing is reported or remembered in between. -/
inductive Uses : List (Arg H) → Env H → Env H → Prop where
  | stop (args : List (Arg H)) (env : Env H) : Uses args env env
  | skip {arg : Arg H} {rest : List (Arg H)} {env env' : Env H} (h : Uses rest env env') :
    Uses (arg :: rest) env env'
  | evaluate {arg : Arg H} {rest : List (Arg H)} {env env' : Env H}
    (h : Uses rest (arg.eval.run env).2 env') : Uses (arg :: rest) env env'
  | quiet {args : List (Arg H)} {env env₁ env' : Env H} (hquiet : env.Quiet env₁)
    (h : Uses args env₁ env') : Uses args env env'

theorem Uses.concat {args : List (Arg H)} {env env₁ env' : Env H} (h : Uses args env env₁)
    (hquiet : env₁.Quiet env') : Uses args env env' := by
  induction h with
  | stop => exact .quiet hquiet (.stop _ _)
  | skip _ ih => exact .skip (ih hquiet)
  | evaluate _ ih => exact .evaluate (ih hquiet)
  | quiet hfirst _ ih => exact .quiet hfirst (ih hquiet)

theorem Uses.bind {α : Type} {arg : Arg H} {rest : List (Arg H)} {k : Value → EvalM H α}
    (h : ∀ v env, Uses rest env ((k v).run env).2) (env : Env H) :
    Uses (arg :: rest) env ((arg.eval >>= k).run env).2 :=
  .evaluate (h _ _)

namespace Control

variable {args : List (Arg H)}

theorem uses_conjunction (settled : Bool) (env : Env H) :
    Uses args env ((conjunction settled args).run env).2 := by
  induction args generalizing settled env with
  | nil => exact .stop _ _
  | cons arg rest ih =>
    refine Uses.bind (fun v env => ?_) env
    cases v.truth with
    | knownTrue => exact ih settled env
    | trueNow => exact ih false env
    | falseNow | knownFalse | unknown => exact .stop _ _

theorem uses_disjunction (sofar : Truth) (env : Env H) :
    Uses args env ((disjunction sofar args).run env).2 := by
  induction args generalizing sofar env with
  | nil => exact .stop _ _
  | cons arg rest ih =>
    refine Uses.bind (fun v env => ?_) env
    cases v.truth with
    | knownTrue | trueNow => exact .stop _ _
    | knownFalse => exact ih sofar env
    | falseNow => exact ih _ env
    | unknown => exact ih .unknown env

theorem uses_runAll (env : Env H) : Uses args env ((runAll args).run env).2 := by
  induction args generalizing env with
  | nil => exact .stop _ _
  | cons arg rest ih => exact Uses.bind (fun _ env => ih env) env

theorem quiet_store (operator name : String) (value : Value) (env : Env H) :
    env.Quiet (store operator name value env).2 := by
  have hvars (vars : Variables) : env.Quiet { env with vars } :=
    ⟨rfl, rfl, rfl, rfl, [], (List.append_nil _).symm, nofun⟩
  unfold store
  split
  · exact .refl env
  · split
    · exact hvars _
    · exact .refl env
    · exact .refl env
    · exact .refl env

variable [Host H]

/-- A control evaluates its arguments at most once and in order; a sequence, which also remembers
    when they were true, evaluates all of them. -/
theorem uses_run {c : Control} (hc : c ≠ .andInSequence) (formula : String) (env : Env H) :
    Uses args env ((c.run formula args).run env).2 := by
  cases c with
  | and => exact uses_conjunction true env
  | or => exact uses_disjunction .knownFalse env
  | andInSequence => exact absurd rfl hc
  | «when» | everyTime =>
    cases args with
    | nil => exact .stop _ _
    | cons condition actions =>
      refine Uses.bind (fun v env => ?_) env
      dsimp only
      split
      · exact uses_runAll env
      · exact .stop _ _
  | ifThenElse =>
    rcases args with _ | ⟨condition, _ | ⟨yes, _ | ⟨no, rest⟩⟩⟩
    · exact .stop _ _
    · exact .stop _ _
    · exact .stop _ _
    · refine Uses.bind (fun v env => ?_) env
      dsimp only
      split
      · exact .stop _ _
      · split
        · exact Uses.bind (fun _ _ => .stop _ _) env
        · exact .skip (Uses.bind (fun _ _ => .stop _ _) env)
  | modifyVariable =>
    rcases args with _ | ⟨ref, _ | ⟨value, rest⟩⟩
    · exact .stop _ _
    · exact .stop _ _
    · dsimp only [run]
      split
      · exact .stop _ _
      · exact .skip (Uses.bind (fun v env => .quiet (quiet_store _ _ v env) (.stop _ _)) env)
  | variableIsSet =>
    cases args with
    | nil => exact .stop _ _
    | cons ref rest =>
      dsimp only [run]
      split
      · exact .stop _ _
      · exact .stop _ _

end Control

namespace Action

variable [Host H]

theorem quiet_spawnWings (env : Env H) (wings : List String) :
    env.Quiet (spawnWings env wings).2 := by
  induction wings generalizing env with
  | nil => exact .refl env
  | cons wing rest ih =>
    have hhost (host : H) : env.Quiet { env with host } :=
      ⟨rfl, rfl, rfl, rfl, [], (List.append_nil _).symm, nofun⟩
    have hwarn (env : Env H) : env.Quiet (env.warn (.spawnWingRejected wing)) :=
      ⟨rfl, rfl, rfl, rfl, [_], Array.toList_push, List.forall_mem_singleton.2 rfl⟩
    unfold spawnWings
    dsimp only
    split
    · exact (hhost _).trans (ih _)
    · exact (hhost _).trans ((hwarn _).trans (ih _))

theorem quiet_perform (a : Action) (values : List Value) (env : Env H) :
    env.Quiet (a.perform values env).2 := by
  have hsame (host : H) (l : Ledger) (hlatches : l.latches = env.ledger.latches)
      (hwarned : l.warned = env.ledger.warned) (herrors : l.errors = env.ledger.errors) :
      env.Quiet { env with host, ledger := l } :=
    ⟨rfl, hlatches, hwarned, herrors, [], (List.append_nil _).symm, nofun⟩
  have hdirectives (l : Ledger) (invalid : Bool) (goals : List String) :
      let l' := pushDirectives l invalid goals
      l'.latches = l.latches ∧ l'.warned = l.warned ∧ l'.errors = l.errors := by
    unfold pushDirectives
    induction goals generalizing l with
    | nil => exact ⟨rfl, rfl, rfl⟩
    | cons goal rest ih => exact ih _
  unfold perform
  cases a with
  | spawnWing =>
    dsimp only
    split
    · exact .refl env
    · exact quiet_spawnWings env _
  | random | sendMessage | selfDestruct =>
    dsimp only
    split
    · exact .refl env
    · exact hsame _ _ rfl rfl rfl
  | invalidateGoal | validateGoal =>
    dsimp only
    split
    · exact .refl env
    · obtain ⟨hlatches, hwarned, herrors⟩ := hdirectives env.ledger _ _
      exact hsame env.host _ hlatches hwarned herrors

end Action

namespace Evaluation

variable {args : List (Arg H)}

theorem uses_evalAll (env : Env H) : Uses args env ((evalAll args).run env).2 := by
  induction args generalizing env with
  | nil => exact .stop _ _
  | cons arg rest ih => exact Uses.bind (fun _ env => ih env) env

variable [Host H]

theorem quiet_applyEager (operator : Operator) (formula : String) (path : Path) (values : List Value)
    (env : Env H) : env.Quiet (applyEager operator formula path values env).2 := by
  unfold applyEager
  split
  · exact .refl env
  · split
    · exact .refl env
    · split
      · exact .refl env
      · split
        · exact .refl env
        · exact Action.quiet_perform _ values env
        · exact .refl env
        · exact .refl env

/-- Applying any operator but a sequence uses the arguments, and reports nothing itself. -/
theorem uses_apply {registry : Registry} {name : Option String}
    (hname : (name.bind registry.get?).any Operator.isSequence = false) (formula : String)
    (path : Path) (env : Env H) :
    Uses args env ((apply registry formula path name args).run env).2 := by
  unfold apply
  split
  · exact .stop _ _
  · next name =>
    split
    · exact .stop _ _
    · next operator hoperator =>
      split
      · unfold applyLazy
        split
        · exact .stop _ _
        · split
          · next c hc =>
            refine Control.uses_run (fun hsequence => ?_) formula env
            rw [Option.bind_some, hoperator, Option.any_some, Operator.isSequence, hc,
              hsequence] at hname
            cases hname
          · exact .stop _ _
          · exact Control.uses_runAll env
      · exact (uses_evalAll env).concat (quiet_applyEager operator formula path _ _)

end Evaluation

end MissionScript

import MissionScript.Proofs.Evaluation.Journey
import MissionScript.Proofs.Evaluation.Query
import MissionScript.Proofs.Operator.Builtin
import MissionScript.Proofs.Variable.Store
import Mathlib.Logic.Relation

/-!
What an evaluation may write. Everything that it does is allowed by a node of the formula, and what no
node allows stays as it is.
-/

namespace MissionScript

variable {H : Type}

/-- The built-in operator that the node at a path applies. -/
def Node.builtinAt? (registry : Registry) (root : Node) (path : Path) : Option Builtin := do
  let n ← root.at? path
  let operator ← registry.get? (← n.operator?)
  match operator.behaviour with
  | .builtin b => some b
  | .scripted .. => none

theorem Node.builtinAt?_eq_some_iff {registry : Registry} {root n : Node} {path : Path} {b : Builtin}
    (hn : root.at? path = some n) : root.builtinAt? registry path = some b ↔
      ∃ operator, n.operator?.bind registry.get? = some operator ∧ operator.behaviour = .builtin b := by
  rw [builtinAt?, hn]
  simp only [Option.bind_eq_bind, Option.bind_some, Option.bind_eq_some_iff]
  constructor
  · rintro ⟨name, hname, operator, hget, hbehaviour⟩
    refine ⟨operator, ⟨name, hname, hget⟩, ?_⟩
    split at hbehaviour
    · next hb => exact hb.trans (congrArg Behaviour.builtin (Option.some.inj hbehaviour))
    · cases hbehaviour
  · rintro ⟨operator, ⟨name, hname, hget⟩, hbehaviour⟩
    exact ⟨name, hname, operator, hget, by rw [hbehaviour]⟩

/-- In the registry of the built-in operators they are known by their names. -/
theorem Node.builtinAt?_builtin_iff {root : Node} {path : Path} {b : Builtin} :
    root.builtinAt? Registry.builtin path = some b ↔ ∃ n name, root.at? path = some n ∧
      n.operator? = some name ∧ sameName name b.definition.name = true := by
  constructor
  · intro h
    simp only [builtinAt?, Option.bind_eq_bind, Option.bind_eq_some_iff] at h
    obtain ⟨n, hn, name, hname, operator, hget, hbehaviour⟩ := h
    obtain ⟨b', rfl, hsame⟩ := Registry.exists_builtin_of_get? hget
    obtain rfl : b' = b := Option.some.inj hbehaviour
    exact ⟨n, name, hn, hname, sameName_iff.2 hsame.symm⟩
  · rintro ⟨n, name, hn, hname, hsame⟩
    have hget : Registry.builtin.get? name = some b.operator := by
      rw [OperatorTable.get?, sameName_iff.1 hsame]
      exact Registry.get?_builtin b
    simp [builtinAt?, hn, hname, hget, Builtin.operator]

/-- The variable that the node at a path names, to give it a value. -/
def Node.targetAt? (root : Node) (path : Path) : Option String :=
  (root.at? (path.child 1)).bind Node.variableName?

/-- The action that marks goals as invalid, or as valid again. -/
def Action.marking : Bool → Action
  | true => .invalidateGoal
  | false => .validateGoal

/-- Whether an operator marks goals as invalid, or as valid again. -/
def Builtin.isMarking : Builtin → Bool
  | .action .invalidateGoal | .action .validateGoal => true
  | _ => false

/-- Whether a step is the end of a node that has asked for changes to goals: it holds as a condition. -/
def Visit.isAsking (registry : Registry) (root : Node) : Visit → Bool
  | .leave path (.ok v) => v.isTrue && (root.builtinAt? registry path).any (·.isMarking)
  | _ => false

/-- Whether directives are what a step asks for. They are of the kind of the node that it leaves, and
    about the goals that the arguments of this node have named, in order. -/
def Visit.Asks (registry : Registry) (root : Node) (visits : List Visit) (v : Visit)
    (ds : List Directive) : Prop :=
  ∃ path value n invalid, ∃ goals : List String, v = .leave path (.ok value) ∧ value.isTrue = true ∧
    root.at? path = some n ∧ root.builtinAt? registry path = some (.action (.marking invalid)) ∧
    goals.length = n.args.length ∧
    (∀ goal i, (goal, i) ∈ goals.zipIdx 1 → Returns visits (path.child i) (.text goal)) ∧
    ds = goals.map (⟨·, invalid⟩)

/-- Whether directives are what the steps of an evaluation ask for, one after the other. -/
def Node.Asks (registry : Registry) (root : Node) (visits : List Visit) (ds : List Directive) : Prop :=
  ∃ groups, List.Forall₂ (Visit.Asks registry root visits) (visits.filter (Visit.isAsking registry root))
    groups ∧ ds = groups.flatten

/-- One thing that the evaluation of a formula does, with the node that allows it. -/
inductive Env.Allowed [Host H] (registry : Registry) (formula : String) (root : Node) :
    Env H → Env H → Prop where
  | record (env : Env H) {v : Visit} (hidle : v.isAsking registry root = false) :
    Allowed registry formula root env (env.record v)
  | report (env : Env H) (path : Path) (offset : Nat) (e : EvalError) :
    Allowed registry formula root env (env.report formula path offset e)
  | play {path : Path} {a : Action} (hnode : root.builtinAt? registry path = some (.action a))
    (ha : a ∈ [.sendMessage, .spawnWing, .selfDestruct, .random]) (env : Env H) (host : H)
    (log : Array Warning) : Allowed registry formula root env { env with host, log }
  /-- what a node has asked for waits when it is left -/
  | ask (env : Env H) {v : Visit} {ds : List Directive}
    (hasks : v.Asks registry root env.trace.toList ds) :
    Allowed registry formula root env
      ({ env with ledger.directives := env.ledger.directives ++ ds }.record v)
  | latch {path : Path} {i : Nat} (hnode : root.builtinAt? registry path = some (.control .andInSequence))
    (hargument : (root.at? (path.child (i + 1))).isSome = true) (env : Env H) (now : Float) :
    Allowed registry formula root env
      { env with ledger := (env.ledger.latch formula (path.child (i + 1)) now).2 }
  | store {path : Path} {name : String}
    (hnode : root.builtinAt? registry path = some (.control .modifyVariable))
    (htarget : root.targetAt? path = some name) (operator : String) (value : Value) (env : Env H) :
    Allowed registry formula root env (Control.store operator name value env).2

/-- What an evaluation leaves of an environment, as far as the formula does not allow a change. -/
structure Env.Frame (registry : Registry) (formula : String) (root : Node) (env env' : Env H) :
    Prop where
  /-- the same variables are declared -/
  declared : env'.vars.keys = env.vars.keys
  /-- a variable has at most another value, of its type, and only if a node names it as its target -/
  values : ∀ key v, env.vars.find? key = some v →
    ∃ value, env'.vars.find? key = some { v with value } ∧ (value ≠ v.value → value.type = v.type ∧
      ∃ path name, root.builtinAt? registry path = some (.control .modifyVariable) ∧
        root.targetAt? path = some name ∧ key = foldName name)
  events : env'.ledger.events = env.ledger.events
  goals : env'.ledger.goals = env.ledger.goals
  /-- directives are added, and only what nodes for directives ask for -/
  directives : ∃ ds, env'.ledger.directives = env.ledger.directives ++ ds ∧
    root.Asks registry env'.trace.toList ds
  /-- what is remembered stays -/
  kept : ∀ key time, env.ledger.latches.find? key = some time →
    env'.ledger.latches.find? key = some time
  /-- what is remembered anew is an argument of a sequence, under the name of the formula -/
  latched : ∀ key, env'.ledger.latches.contains key = true → env.ledger.latches.contains key = true ∨
    ∃ path i, root.builtinAt? registry path = some (.control .andInSequence) ∧
      (root.at? (path.child (i + 1))).isSome = true ∧
      key = Ledger.latchKey formula (path.child (i + 1))
  errors : env.ledger.errors ≤ env'.ledger.errors
  /-- the game is as it was, unless there is a node that changes games -/
  host : env'.host ≠ env.host → ∃ path a, root.builtinAt? registry path = some (.action a) ∧
    a ∈ [.sendMessage, .spawnWing, .selfDestruct, .random]

section

variable {registry : Registry} {root : Node} {visits visits' : List Visit} {v : Visit}
  {ds ds' : List Directive}

theorem Visit.Asks.mono (h : v.Asks registry root visits ds) (hsub : visits ⊆ visits') :
    v.Asks registry root visits' ds := by
  obtain ⟨path, value, n, invalid, goals, hv, htrue, hn, hnode, hlength, hgoals, hds⟩ := h
  exact ⟨path, value, n, invalid, goals, hv, htrue, hn, hnode, hlength,
    fun goal i hi => (hgoals goal i hi).mono hsub, hds⟩

theorem Visit.Asks.isAsking (h : v.Asks registry root visits ds) : v.isAsking registry root = true := by
  obtain ⟨path, value, n, invalid, goals, rfl, htrue, -, hnode, -⟩ := h
  rw [Visit.isAsking, htrue, hnode]
  cases invalid <;> rfl

theorem Node.Asks.of_nil (registry : Registry) (root : Node) : root.Asks registry [] [] :=
  ⟨[], .nil, rfl⟩

/-- One more step asks for nothing, -/
theorem Node.Asks.idle (h : root.Asks registry visits ds) (hidle : v.isAsking registry root = false) :
    root.Asks registry (visits ++ [v]) ds := by
  obtain ⟨groups, hgroups, hds⟩ := h
  refine ⟨groups, ?_, hds⟩
  rw [List.filter_append, List.filter_singleton, hidle, cond_false, List.append_nil]
  exact hgroups.imp fun _ _ hasks => hasks.mono (List.subset_append_left ..)

/-- or for more after all that has been asked for before. -/
theorem Node.Asks.concat (h : root.Asks registry visits ds) (hasks : v.Asks registry root visits ds') :
    root.Asks registry (visits ++ [v]) (ds ++ ds') := by
  obtain ⟨groups, hgroups, rfl⟩ := h
  refine ⟨groups ++ [ds'], ?_, by rw [List.flatten_append, List.flatten_singleton]⟩
  rw [List.filter_append, List.filter_singleton, hasks.isAsking, cond_true]
  have hsub : visits ⊆ visits ++ [v] := List.subset_append_left ..
  exact List.rel_append (hgroups.imp fun _ _ hasks => hasks.mono hsub) (.cons (hasks.mono hsub) .nil)

end

/-- What is remembered after one more argument has been true. -/
theorem Ledger.contains_latch {l : Ledger} {formula : String} {path : Path} {now : Float}
    {key : String × Path} (h : (l.latch formula path now).2.latches.contains key = true) :
    l.latches.contains key = true ∨ key = latchKey formula path := by
  rw [latch, Table.contains, Table.find?_insertNew] at h
  split at h
  · next hkey => exact Or.inr hkey
  · exact Or.inl h

namespace Env

/-- Reporting an error changes nothing but the log, and what the ledger knows of errors. -/
theorem report_eq (env : Env H) (formula : String) (path : Path) (offset : Nat) (e : EvalError) :
    ∃ warned log, env.report formula path offset e = { env with
      ledger := { env.ledger with warned, errors := env.ledger.errors + 1 }
      log } := by
  unfold report
  cases e with
  | unknownVariable name =>
    unfold Ledger.warnOnce
    dsimp only
    split
    · exact ⟨_, _, rfl⟩
    · exact ⟨_, _, rfl⟩
  | _ => exact ⟨_, _, rfl⟩

end Env

theorem Control.store_eq (operator name : String) (value : Value) (env : Env H) :
    (store operator name value env).2 = env ∨ ∃ stored vars, env.vars.set name stored = .ok vars ∧
      (store operator name value env).2 = { env with vars } := by
  unfold store
  split
  · exact Or.inl rfl
  · split
    · next vars hset =>
      obtain ⟨stored, -, hset⟩ := Variables.exists_set_of_setValue hset
      exact Or.inr ⟨stored, vars, hset, rfl⟩
    · exact Or.inl rfl
    · exact Or.inl rfl
    · exact Or.inl rfl

namespace Action

variable [Host H]

theorem spawnWings_eq (env : Env H) (wings : List String) :
    ∃ host log, (spawnWings env wings).2 = { env with host, log } := by
  induction wings generalizing env with
  | nil => exact ⟨_, _, rfl⟩
  | cons wing rest ih =>
    unfold spawnWings
    dsimp only
    split
    · obtain ⟨host, log, heq⟩ := ih { env with host := (Host.spawnWing env.host wing).2 }
      exact ⟨host, log, heq⟩
    · obtain ⟨host, log, heq⟩ := ih
        ({ env with host := (Host.spawnWing env.host wing).2 }.warn (.spawnWingRejected wing))
      exact ⟨host, log, heq⟩

theorem pushDirectives_eq (l : Ledger) (invalid : Bool) (goals : List String) :
    pushDirectives l invalid goals =
      { l with directives := l.directives ++ goals.map (⟨·, invalid⟩) } := by
  unfold pushDirectives
  induction goals generalizing l with
  | nil => rw [List.foldl_nil, List.map_nil, List.append_nil]
  | cons goal rest ih => rw [List.foldl_cons, ih, List.map_cons, Ledger.pushDirective,
      List.append_assoc, List.singleton_append]

/-- An action that marks no goals does nothing, or changes the game. -/
theorem perform_playing {a : Action} (ha : (Builtin.action a).isMarking = false) (values : List Value)
    (env : Env H) : (a.perform values env).2 = env ∨
      a ∈ [.sendMessage, .spawnWing, .selfDestruct, .random] ∧
        ∃ host log, (a.perform values env).2 = { env with host, log } := by
  unfold perform
  cases a with
  | random | sendMessage | selfDestruct =>
    dsimp only
    split
    · exact Or.inl rfl
    · exact Or.inr ⟨by decide, _, _, rfl⟩
  | spawnWing =>
    dsimp only
    split
    · exact Or.inl rfl
    · obtain ⟨host, log, heq⟩ := spawnWings_eq env _
      exact Or.inr ⟨by decide, host, log, heq⟩
  | invalidateGoal | validateGoal => cases ha

/-- One that marks goals fails, or asks for this for each of the goals that its arguments name. -/
theorem perform_marking (invalid : Bool) (values : List Value) (env : Env H) :
    (∃ e, (marking invalid).perform values env = (.error e, env)) ∨
      ∃ goals : List String, values = goals.map .text ∧
        (marking invalid).perform values env = (.ok Truth.trueNow.toValue,
          { env with ledger.directives := env.ledger.directives ++ goals.map (⟨·, invalid⟩) }) := by
  have hpush (goals : List String) : { env with ledger := pushDirectives env.ledger invalid goals } =
      { env with ledger.directives := env.ledger.directives ++ goals.map (⟨·, invalid⟩) } :=
    congrArg (fun ledger => { env with ledger }) (pushDirectives_eq env.ledger invalid goals)
  unfold perform
  cases invalid
  all_goals
    dsimp only [marking]
    split
    · exact Or.inl ⟨_, rfl⟩
    · next goals hgoals =>
      exact Or.inr ⟨goals, Query.eq_map_of_textsFrom hgoals, congrArg (Prod.mk _) (hpush goals)⟩

end Action

namespace Env

variable {registry : Registry} {formula : String} {root : Node} {env env₁ env₂ env' : Env H}

theorem Allowed.trace [Host H] (h : Allowed registry formula root env env') :
    env.trace.toList <+: env'.trace.toList := by
  cases h with
  | @record env v => exact ⟨[v], by rw [Env.record, Array.toList_push]⟩
  | report env path offset e => exact (trace_report env formula path offset e).symm ▸ List.prefix_rfl
  | @ask env v => exact ⟨[v], by rw [Env.record, Array.toList_push]⟩
  | play | latch => exact List.prefix_rfl
  | store => exact (Control.quiet_store _ _ _ env).trace.symm ▸ List.prefix_rfl

/-- The trace of an evaluation begins anew. -/
theorem frame_start (env : Env H) : Frame registry formula root env { env with trace := #[] } where
  declared := rfl
  values _ v hv := ⟨v.value, hv, fun hne => absurd rfl hne⟩
  events := rfl
  goals := rfl
  directives := ⟨[], (List.append_nil _).symm, .of_nil registry root⟩
  kept _ _ h := h
  latched _ h := Or.inl h
  errors := Nat.le_refl _
  host hne := absurd rfl hne

theorem Frame.step [Host H] (h : Frame registry formula root env env₁)
    (hstep : Allowed registry formula root env₁ env₂) : Frame registry formula root env env₂ := by
  obtain ⟨ds, hds, hasked⟩ := h.directives
  cases hstep with
  | @record env v hidle =>
    have hlater := hasked.idle hidle
    rw [← Array.toList_push] at hlater
    exact { h with directives := ⟨ds, hds, hlater⟩ }
  | report env path offset e =>
    obtain ⟨warned, log, heq⟩ := report_eq env₁ formula path offset e
    rw [heq]
    exact { h with errors := Nat.le_succ_of_le h.errors }
  | @play path a hnode ha env host log => exact { h with host := fun _ => ⟨path, a, hnode, ha⟩ }
  | @ask env v ds' hasks =>
    have hlater := hasked.concat hasks
    rw [← Array.toList_push] at hlater
    refine { h with directives := ⟨ds ++ ds', ?_, hlater⟩ }
    rw [← List.append_assoc, ← hds]
    rfl
  | @latch path i hnode hargument env now =>
    refine { h with kept := fun key time htime => ?_, latched := fun key hkey => ?_ }
    · have hkept := h.kept key time htime
      rw [Ledger.latch, Table.find?_insertNew]
      split
      · next hkey => rw [← hkey, hkept, Option.getD_some]
      · exact hkept
    · rcases Ledger.contains_latch hkey with hkey | rfl
      · exact h.latched key hkey
      · exact Or.inr ⟨path, i, hnode, hargument, rfl⟩
  | @store path name hnode htarget operator value env =>
    rcases Control.store_eq operator name value env₁ with heq | ⟨stored, vars, hset, heq⟩
    · rwa [heq]
    · rw [heq]
      refine { h with declared := ?_, values := fun key v hv => ?_ }
      · obtain ⟨-, -, -, rfl⟩ := Variables.eq_modify_of_set hset
        exact (Table.keys_modify ..).trans h.declared
      · obtain ⟨value, hvalue, hchange⟩ := h.values key v hv
        obtain ⟨value', hvalue', hchange'⟩ := Variables.find?_set hset hvalue
        refine ⟨value', hvalue', fun hne => ?_⟩
        by_cases hsame : value' = value
        · exact hsame ▸ hchange (hsame ▸ hne)
        · obtain ⟨htype, hkey⟩ := hchange' hsame
          exact ⟨htype, path, name, hnode, htarget, hkey⟩

end Env

/-- Whether one environment can become another one by what the nodes of a formula allow. -/
abbrev Env.Reaches [Host H] (registry : Registry) (formula : String) (root : Node) :
    Env H → Env H → Prop :=
  Relation.ReflTransGen (Env.Allowed registry formula root)

/-- Whether an argument is evaluated as the formula allows, and leaves its value behind. -/
def Arg.IsAllowed [Host H] (registry : Registry) (formula : String) (root : Node) (arg : Arg H) : Prop :=
  ∀ env, Env.Reaches registry formula root env (arg.eval.run env).2 ∧
    Visit.Returns (arg.eval.run env).2.trace.toList arg.path (arg.eval.run env).1

section

variable [Host H] {registry : Registry} {formula : String} {root n : Node} {path : Path}
  {args : List (Arg H)} {env env' : Env H}

theorem Env.trace_of_reaches (h : Env.Reaches registry formula root env env') :
    env.trace.toList <+: env'.trace.toList := by
  induction h with
  | refl => exact List.prefix_rfl
  | tail _ hstep ih => exact ih.trans hstep.trace

theorem Env.reaches_close_error (env : Env H) (offset : Nat) (e : EvalError) :
    Env.Reaches registry formula root env (env.close formula path offset (.error e)) :=
  .tail (.single (.report env path offset e)) (.record _ rfl)

/-- A node is left as the formula allows if it asks for nothing then. -/
theorem Env.reaches_close {outcome : Except EvalError Value}
    (hidle : ∀ v, outcome = .ok v → (Visit.leave path (.ok v)).isAsking registry root = false)
    (env : Env H) (offset : Nat) :
    Env.Reaches registry formula root env (env.close formula path offset outcome) := by
  cases outcome with
  | ok v => exact .single (.record env (hidle v rfl))
  | error e => exact env.reaches_close_error offset e

theorem Arg.IsAllowed.preserves {arg : Arg H} (h : arg.IsAllowed registry formula root) (env : Env H) :
    Preserves (Env.Reaches registry formula root env) arg.eval :=
  fun env' henv' => ⟨trivial, henv'.trans (h env').1⟩

namespace Evaluation

/-- The arguments of an operator are evaluated as the formula allows, and leave all their values
    behind. -/
theorem reaches_evalAll (hargs : ∀ arg ∈ args, arg.IsAllowed registry formula root) (env : Env H) :
    Env.Reaches registry formula root env ((evalAll args).run env).2 ∧
      List.Forall₂ (fun arg v => Visit.Returns ((evalAll args).run env).2.trace.toList arg.path v)
        args ((evalAll args).run env).1 := by
  induction args generalizing env with
  | nil => exact ⟨.refl, .nil⟩
  | cons arg rest ih =>
    obtain ⟨harg, hrest⟩ := List.forall_mem_cons.1 hargs
    obtain ⟨hreaches, hreturns⟩ := harg env
    obtain ⟨hlater, hvalues⟩ := ih hrest (arg.eval.run env).2
    exact ⟨hreaches.trans hlater, .cons (hreturns.mono (Env.trace_of_reaches hlater).subset) hvalues⟩

/-- Whether arguments are the ones of the node at a path. -/
structure AreBelow (root : Node) (path : Path) (n : Node) (args : List (Arg H)) : Prop where
  length_eq : args.length = n.args.length
  placed : ∀ i arg, args[i]? = some arg →
    arg.path = path.child (i + 1) ∧ root.at? (path.child (i + 1)) = some arg.node

omit [Host H] in
theorem AreBelow.returns {visits : List Visit} {values : List Value} (h : AreBelow root path n args)
    (hvalues : List.Forall₂ (fun arg v => Visit.Returns visits arg.path v) args values) :
    values.length = n.args.length ∧
      ∀ v i, (v, i) ∈ values.zipIdx 1 → Visit.Returns visits (path.child i) v := by
  refine ⟨hvalues.length_eq.symm.trans h.length_eq, fun v i hi => ?_⟩
  obtain ⟨hle, hv⟩ := List.mk_mem_zipIdx_iff_le_and_getElem?_sub.1 hi
  obtain ⟨j, rfl⟩ := Nat.exists_eq_add_of_le' hle
  rw [Nat.add_sub_cancel] at hv
  obtain ⟨hj, rfl⟩ := List.getElem?_eq_some_iff.1 hv
  have hj' : j < args.length := hvalues.length_eq.symm ▸ hj
  obtain ⟨hpath, -⟩ := h.placed j _ (List.getElem?_eq_getElem hj')
  rw [← hpath]
  exact (List.forall₂_iff_get.1 hvalues).2 j hj' hj

/-- Applying the operator of a node to its arguments does what the node allows, unless it marks
    goals. -/
theorem reaches_apply (hn : root.at? path = some n) (hbelow : AreBelow root path n args)
    (hargs : ∀ arg ∈ args, arg.IsAllowed registry formula root)
    (hidle : (root.builtinAt? registry path).any (·.isMarking) = false) (env : Env H) :
    Env.Reaches registry formula root env ((apply registry formula path n.operator? args).run env).2 := by
  have hpreserves : Preserves (Env.Reaches registry formula root env)
      (apply registry formula path n.operator? args) := by
    refine preserves_apply (fun arg harg => (hargs arg harg).preserves env)
      (fun operator c hoperator hc => ?_) fun operator hoperator => ?_
    · have hnode := (Node.builtinAt?_eq_some_iff hn).2 ⟨operator, hoperator, hc⟩
      refine Control.preserves_run ?_ ?_ fun arg harg => (hargs arg harg).preserves env
      · rintro rfl earlier - arg harg env' henv'
        obtain ⟨i, hi⟩ := List.mem_iff_getElem?.1 harg
        obtain ⟨hpath, hargument⟩ := hbelow.placed i arg hi
        rw [hpath]
        exact henv'.tail (.latch hnode (Option.isSome_of_eq_some hargument) env' _)
      · rintro rfl ref href operator name value env' hname henv'
        have hfirst : args[0]? = some ref := by rwa [← List.head?_eq_getElem?]
        obtain ⟨-, hargument⟩ := hbelow.placed 0 ref hfirst
        refine henv'.tail (.store hnode ?_ operator value env')
        rw [Node.targetAt?, hargument, Option.bind_some, hname]
    · intro env' henv'
      obtain ⟨hreaches, -⟩ := reaches_evalAll hargs env'
      refine ⟨trivial, (henv'.trans hreaches).trans ?_⟩
      rcases applyEager_eq operator formula path ((evalAll args).run env').1
        ((evalAll args).run env').2 with heq | ⟨a, ha, heq⟩
      · exact heq ▸ .refl
      · have hnode := (Node.builtinAt?_eq_some_iff hn).2 ⟨operator, hoperator, ha⟩
        rw [hnode] at hidle
        rcases Action.perform_playing hidle ((evalAll args).run env').1 ((evalAll args).run env').2
          with hnothing | ⟨hplay, host, log, hgame⟩
        · exact (heq.trans hnothing) ▸ .refl
        · exact (heq.trans hgame) ▸ .single (.play hnode hplay _ host log)
  exact (hpreserves env .refl).2

/-- An operator that does not evaluate its arguments itself is applied to the values of all of them. -/
theorem run_apply_of_eager {operator : Operator} {name : Option String}
    (hoperator : name.bind registry.get? = some operator) (heager : operator.behaviour.isLazy = false)
    (env : Env H) : (apply registry formula path name args).run env =
      applyEager operator formula path ((evalAll args).run env).1 ((evalAll args).run env).2 := by
  obtain ⟨name, rfl, hget⟩ := Option.bind_eq_some_iff.1 hoperator
  unfold apply
  dsimp only
  rw [hget]
  dsimp only
  rw [heager, if_neg Bool.false_ne_true]
  rfl

/-- An action is performed, unless the values of its arguments are wrong or not known. -/
theorem applyEager_action {operator : Operator} {a : Action}
    (ha : operator.behaviour = .builtin (.action a)) (values : List Value) (env : Env H) :
    applyEager operator formula path values env = a.perform values env ∨
      ∃ outcome, applyEager operator formula path values env = (outcome, env) ∧
        ∀ v, outcome = .ok v → v = .unknown := by
  unfold applyEager
  rw [ha]
  split
  · exact Or.inr ⟨_, rfl, nofun⟩
  · split
    · exact Or.inr ⟨_, rfl, nofun⟩
    · split
      · exact Or.inr ⟨_, rfl, fun v hv => (Except.ok.inj hv).symm⟩
      · exact Or.inl rfl

/-- If it marks goals, it is left with what it has asked for. -/
theorem reaches_close_of_marking {invalid : Bool} (hn : root.at? path = some n)
    (hnode : root.builtinAt? registry path = some (.action (.marking invalid)))
    (hbelow : AreBelow root path n args)
    (hargs : ∀ arg ∈ args, arg.IsAllowed registry formula root) (env : Env H) :
    let result := (apply registry formula path n.operator? args).run env
    Env.Reaches registry formula root env (result.2.close formula path n.offset result.1) := by
  obtain ⟨operator, hoperator, ha⟩ := (Node.builtinAt?_eq_some_iff hn).1 hnode
  have heager : operator.behaviour.isLazy = false := by rw [ha]; rfl
  obtain ⟨hreaches, hvalues⟩ := reaches_evalAll hargs env
  dsimp only
  rw [run_apply_of_eager hoperator heager]
  generalize (evalAll args).run env = result at hreaches hvalues ⊢
  obtain ⟨values, env'⟩ := result
  dsimp only at hreaches hvalues ⊢
  obtain ⟨hlength, hreturns⟩ := hbelow.returns hvalues
  rcases applyEager_action ha values env' with heq | ⟨outcome, heq, hunknown⟩
  · rw [heq]
    rcases Action.perform_marking invalid values env' with ⟨e, heq⟩ | ⟨goals, rfl, heq⟩
    · rw [heq]
      exact hreaches.trans (env'.reaches_close_error n.offset e)
    · rw [heq]
      rw [List.length_map] at hlength
      refine hreaches.tail (.ask env' ⟨path, _, n, invalid, goals, rfl, rfl, hn, hnode, hlength,
        fun goal i hi => hreturns _ i ?_, rfl⟩)
      rw [List.zipIdx_map]
      exact List.mem_map_of_mem hi
  · rw [heq]
    refine hreaches.trans (Env.reaches_close (fun v hv => ?_) env' _)
    rw [hunknown v hv]
    rfl

/-- Applying the operator of a node, and leaving the node with the outcome, is allowed by it. -/
theorem reaches_attempt (hn : root.at? path = some n) (hbelow : AreBelow root path n args)
    (hargs : ∀ arg ∈ args, arg.IsAllowed registry formula root) (env : Env H) :
    let result := (apply registry formula path n.operator? args).run env
    Env.Reaches registry formula root env (result.2.close formula path n.offset result.1) := by
  cases hmarking : (root.builtinAt? registry path).any (·.isMarking) with
  | false =>
    refine (reaches_apply hn hbelow hargs hmarking env).trans (Env.reaches_close (fun v _ => ?_) _ _)
    rw [Visit.isAsking, hmarking, Bool.and_false]
  | true =>
    obtain ⟨b, hb, hmarking⟩ := (Option.any_eq_true _ _).1 hmarking
    have hinvalid : ∃ invalid, b = .action (.marking invalid) := by
      unfold Builtin.isMarking at hmarking
      split at hmarking
      · exact ⟨true, rfl⟩
      · exact ⟨false, rfl⟩
      · cases hmarking
    obtain ⟨invalid, rfl⟩ := hinvalid
    exact reaches_close_of_marking hn hb hbelow hargs env

theorem isAllowed_visit {attempt : EvalM H (Except EvalError Value)}
    (h : ∀ env, Env.Reaches registry formula root env
      ((attempt.run env).2.close formula path n.offset (attempt.run env).1)) (env : Env H) :
    let result := (visit formula path n attempt).run env
    Env.Reaches registry formula root env result.2 ∧
      Visit.Returns result.2.trace.toList path result.1 := by
  have henter : Env.Reaches registry formula root env (env.record (.enter path n)) :=
    .single (.record env rfl)
  refine ⟨?_, returns_visit formula path n attempt env⟩
  rw [run_visit]
  by_cases hdeep : maxEvalDepth ≤ path.length
  · rw [if_pos hdeep]
    exact henter.trans (Env.reaches_close_error _ n.offset _)
  · rw [if_neg hdeep]
    exact henter.trans (h _)

mutual

/-- Evaluating a node at its path is allowed by the node and the ones below it. -/
theorem reaches_evalNode (registry : Registry) (formula : String) (root : Node) (path : Path) (n : Node)
    (hn : root.at? path = some n) (env : Env H) :
    let result := (evalNode registry formula path n).run env
    Env.Reaches registry formula root env result.2 ∧
      Visit.Returns result.2.trace.toList path result.1 := by
  cases n with
  | atom a offset =>
    rw [evalNode]
    refine isAllowed_visit (fun env => Env.reaches_close (fun v _ => ?_) env _) env
    rw [Visit.isAsking, Node.builtinAt?, hn]
    exact Bool.and_false _
  | list children offset =>
    rw [evalNode]
    have hchild (i : Nat) (n : Node) (hi : children[i]? = some n) :
        root.at? (path.child (0 + i)) = some n := by
      rw [Node.at?_child, hn, Option.bind_some, Nat.zero_add]
      exact hi
    refine isAllowed_visit (fun env => reaches_attempt hn ⟨?_, ?_⟩ (fun arg harg => ?_) env) env
    · rw [List.length_tail, length_childArgs]
      exact List.length_tail.symm
    · intro i arg hi
      rw [List.getElem?_tail, getElem?_childArgs, Option.map_eq_some_iff] at hi
      obtain ⟨n, hi, rfl⟩ := hi
      have hnode := hchild (i + 1) n hi
      rw [Nat.zero_add] at hnode ⊢
      exact ⟨rfl, hnode⟩
    · exact isAllowed_childArgs registry formula root path 0 children hchild arg
        (List.mem_of_mem_tail harg)

theorem isAllowed_childArgs (registry : Registry) (formula : String) (root : Node) (path : Path)
    (index : Nat) (nodes : List Node)
    (hnodes : ∀ i n, nodes[i]? = some n → root.at? (path.child (index + i)) = some n) :
    ∀ arg ∈ childArgs (H := H) registry formula path index nodes,
      arg.IsAllowed registry formula root := by
  cases nodes with
  | nil =>
    rw [childArgs]
    exact fun arg harg => absurd harg List.not_mem_nil
  | cons n rest =>
    rw [childArgs]
    refine List.forall_mem_cons.2 ⟨fun env => ?_, ?_⟩
    · exact reaches_evalNode registry formula root (path.child index) n (hnodes 0 n rfl) env
    · refine isAllowed_childArgs registry formula root path (index + 1) rest fun i n hi => ?_
      rw [Nat.add_assoc, Nat.add_comm 1]
      exact hnodes (i + 1) n hi

end

end Evaluation

/-- What evaluating a formula leaves of the environment, step by step. -/
theorem frame_of_reaches (h : Env.Reaches registry formula root { env with trace := #[] } env') :
    Env.Frame registry formula root env env' := by
  induction h with
  | refl => exact Env.frame_start env
  | tail _ hstep ih => exact ih.step hstep

end

/-- Evaluating a formula writes only what its nodes allow, in any environment. Variables stay declared
    as they are, and only targets of assignments in the formula get another value, of their type; the
    records of events and goals stay; directives are only added, those that nodes for directives ask
    for; what is remembered stays, and only arguments of sequences of the formula are remembered anew,
    under its name; errors are only added; and a formula without a node that changes games leaves the
    game alone. -/
theorem frame_evaluate [Host H] (registry : Registry) (formula : String) (root : Node) (env : Env H) :
    Env.Frame registry formula root env ((evaluate registry formula root).run env).2 :=
  frame_of_reaches (Evaluation.reaches_evalNode registry formula root [] root (Node.at?_nil root) _).1

end MissionScript

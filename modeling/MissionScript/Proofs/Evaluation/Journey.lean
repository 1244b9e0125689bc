import MissionScript.Proofs.Evaluation.Ensures
import MissionScript.Proofs.Evaluation.Usage

/-!
The way of an evaluation through a formula. Whatever the operators do with their arguments, it is a
tour that enters every node under its own path, and each argument at most once and in order.
-/

namespace MissionScript

variable {H : Type}

/-- Whether the node at a path has been left with a value. -/
def Visit.Returns (visits : List Visit) (path : Path) (v : Value) : Prop :=
  ∃ outcome, .leave path outcome ∈ visits ∧ v = Evaluation.given outcome

/-- Whether the answer of a sequence goes by what its arguments have said, and by what is remembered
    under the paths of these arguments. -/
def Visit.IsAnswer (formula : String) (visits : List Visit) (l : Ledger) (path : Path) (n : Node)
    (answer : Value) : Prop :=
  ∃ values : List Value, values.length = n.args.length ∧
    (∀ v i, (v, i) ∈ values.zipIdx 1 → Returns visits (path.child i) v) ∧
    answer = (Control.sequenceTruth ((values.zipIdx 1).map fun (v, i) =>
      (v.truth, l.latchedAt? formula (path.child i)))).toValue

/-- Whether every sequence that has been left has the right answer. -/
def Visit.Answers (registry : Registry) (formula : String) (root : Node) (visits : List Visit)
    (l : Ledger) : Prop :=
  ∀ (path : Path) (n : Node) (answer : Value), .leave path (.ok answer) ∈ visits →
    root.at? path = some n → n.isSequence registry = true → IsAnswer formula visits l path n answer

/-- Whether steps are a tour that accounts for what has been written, and sequences have the right
    answers. -/
structure Travels (registry : Registry) (formula : String) (root : Node) (path : Path) (index : Nat)
    (visits : List Visit) (env env' : Env H) : Prop where
  tour : Tour root path index visits
  account : Env.Account registry formula root visits env env'
  answers : Visit.Answers registry formula root visits env'.ledger

/-- What a visit of a node gives: its value, and an environment in which the tour below the node and
    what came of it are written. -/
def Visits (registry : Registry) (formula : String) (root : Node) (path : Path) (n : Node)
    (env : Env H) (result : Value × Env H) : Prop :=
  ∃ inner env' outcome, Travels registry formula root path 1 inner (env.record (.enter path n)) env' ∧
    (∀ answer, outcome = .ok answer → n.isSequence registry = true →
      Visit.IsAnswer formula inner env'.ledger path n answer) ∧
    result = (Evaluation.given outcome, env'.close formula path n.offset outcome)

namespace Visit

variable {formula : String} {visits visits' : List Visit} {l l' : Ledger} {path : Path} {n : Node}
  {answer : Value} {registry : Registry} {root : Node}

theorem Returns.mono {v : Value} (h : Returns visits path v) (hsub : visits ⊆ visits') :
    Returns visits' path v := by
  obtain ⟨outcome, hmem, hv⟩ := h
  exact ⟨outcome, hsub hmem, hv⟩

theorem IsAnswer.mono (h : IsAnswer formula visits l path n answer) (hsub : visits ⊆ visits')
    (hlatches : ∀ i, l'.latchedAt? formula (path.child i) = l.latchedAt? formula (path.child i)) :
    IsAnswer formula visits' l' path n answer := by
  obtain ⟨values, hlength, hreturns, rfl⟩ := h
  refine ⟨values, hlength, fun v i hv => (hreturns v i hv).mono hsub, ?_⟩
  simp only [hlatches]

theorem Answers.append (h : Answers registry formula root visits l)
    (h' : Answers registry formula root visits' l) :
    Answers registry formula root (visits ++ visits') l := by
  intro path n answer hleave hn hsequence
  rcases List.mem_append.1 hleave with hleave | hleave
  · exact (h path n answer hleave hn hsequence).mono (List.subset_append_left _ _) fun _ => rfl
  · exact (h' path n answer hleave hn hsequence).mono (List.subset_append_right _ _) fun _ => rfl

end Visit

section

variable {registry : Registry} {formula : String} {root n : Node} {path : Path} {index i : Nat}
  {inner rest visits : List Visit} {outcome : Except EvalError Value} {env env₁ env₂ env' : Env H}

/-- The answers below a node and its own stay right if no step is taken below the node any more. -/
theorem answers_visit
    (hinner : Travels registry formula root path 1 inner (env.record (.enter path n)) env₁)
    (hn : root.at? path = some n)
    (hanswer : ∀ answer, outcome = .ok answer → n.isSequence registry = true →
      Visit.IsAnswer formula inner env₁.ledger path n answer)
    (hafter : Env.Account registry formula root (.leave path outcome :: rest) env₁ env')
    (hrest : ∀ v ∈ rest, ∀ i below, v.path ≠ path ++ i :: below) :
    Visit.Answers registry formula root (.enter path n :: (inner ++ [.leave path outcome]))
      env'.ledger := by
  have hlatches (below : List Nat) (i : Nat) :
      env'.ledger.latchedAt? formula (Path.child (path ++ below) i) =
        env₁.ledger.latchedAt? formula (Path.child (path ++ below) i) := by
    have hpath : Path.child (path ++ below) i = path ++ (below ++ [i]) := List.append_assoc _ _ _
    refine hafter.latchedAt?_eq (List.forall_mem_cons.2 ⟨fun heq => ?_, fun v hv heq => ?_⟩)
    · rw [hpath] at heq
      exact absurd (List.append_right_eq_self.1 heq.symm) (by simp)
    · rw [hpath] at heq
      cases below with
      | nil => exact hrest v hv i [] heq
      | cons j below => exact hrest v hv j _ heq
  have hsub : inner ⊆ .enter path n :: (inner ++ [.leave path outcome]) :=
    List.subset_cons_of_subset _ (List.subset_append_left _ _)
  intro path' n' answer hleave hn' hsequence
  rw [List.mem_cons, List.mem_append, List.mem_singleton] at hleave
  rcases hleave with hleave | hleave | hleave
  · cases hleave
  · obtain ⟨j, below, -, hbelow⟩ := hinner.tour.path_of_mem _ hleave
    obtain rfl : path' = path ++ j :: below := hbelow
    exact (hinner.answers _ n' answer hleave hn' hsequence).mono hsub (hlatches _)
  · cases hleave
    obtain rfl := Option.some.inj (hn.symm.trans hn')
    refine (hanswer answer rfl hsequence).mono hsub fun i => ?_
    have hown := hlatches [] i
    rwa [List.append_nil] at hown

/-- A visit of a child, and then of later ones. -/
theorem Travels.visit (hi : index ≤ i) (hn : root.at? (path.child i) = some n)
    (hinner : Travels registry formula root (path.child i) 1 inner
      (env.record (.enter (path.child i) n)) env₁)
    (hanswer : ∀ answer, outcome = .ok answer → n.isSequence registry = true →
      Visit.IsAnswer formula inner env₁.ledger (path.child i) n answer)
    (hleave : Env.Account registry formula root [.leave (path.child i) outcome] env₁ env₂)
    (hrest : Travels registry formula root path (i + 1) rest env₂ env') :
    Travels registry formula root path index
      (.enter (path.child i) n :: (inner ++ .leave (path.child i) outcome :: rest)) env env' := by
  have hafter := hleave.trans hrest.account
  refine ⟨.visit outcome hi hn hinner.tour hrest.tour,
    (Env.account_enter env (path.child i) n).trans (hinner.account.trans hafter), ?_⟩
  have hlater : ∀ v ∈ rest, ∀ j below, v.path ≠ path.child i ++ j :: below := by
    intro v hv j below heq
    obtain ⟨k, below', hk, hpath⟩ := hrest.tour.path_of_mem v hv
    rw [hpath, Path.child, List.append_assoc, List.append_cancel_left_eq, List.singleton_append,
      List.cons.injEq] at heq
    omega
  have hhere := answers_visit hinner hn hanswer hafter hlater
  have hall := hhere.append hrest.answers
  rwa [List.cons_append, List.append_assoc, List.singleton_append] at hall

theorem Env.Quiet.travels (h : env.Quiet env') :
    Travels registry formula root path index [] env env' :=
  ⟨.stop path index, h.account, fun _ _ _ hleave => absurd hleave List.not_mem_nil⟩

theorem Travels.of_le {index' : Nat} (h : Travels registry formula root path index' visits env env')
    (hindex : index ≤ index') : Travels registry formula root path index visits env env' :=
  ⟨h.tour.of_le hindex, h.account, h.answers⟩

theorem Travels.after (h : Travels registry formula root path index visits env₁ env')
    (hquiet : env.Quiet env₁) : Travels registry formula root path index visits env env' :=
  ⟨h.tour, hquiet.account.trans h.account, h.answers⟩

end

/-- A row of arguments, from the child of an index on: each one is a visit of its own node. -/
inductive Placed (registry : Registry) (formula : String) (root : Node) (path : Path) :
    Nat → List (Arg H) → Prop where
  | nil (index : Nat) : Placed registry formula root path index []
  | cons {index : Nat} {arg : Arg H} {rest : List (Arg H)} (hpath : arg.path = path.child index)
    (hnode : root.at? (path.child index) = some arg.node)
    (hvisits : ∀ env, Visits registry formula root (path.child index) arg.node env (arg.eval.run env))
    (hrest : Placed registry formula root path (index + 1) rest) :
    Placed registry formula root path index (arg :: rest)

section

variable {registry : Registry} {formula : String} {root n : Node} {path : Path} {index : Nat}
  {args : List (Arg H)} {env env' : Env H}

/-- Using the arguments of a node is a tour below it, unless it is a sequence. -/
theorem Uses.travels (h : Uses args env env') (hargs : Placed registry formula root path index args)
    (hn : root.at? path = some n) (hsequence : n.isSequence registry = false) :
    ∃ visits, Travels registry formula root path index visits env env' := by
  induction h generalizing index with
  | stop args env => exact ⟨[], (Env.Quiet.refl env).travels⟩
  | skip _ ih =>
    cases hargs with
    | cons _ _ _ hrest =>
      obtain ⟨visits, hvisits⟩ := ih hrest
      exact ⟨visits, hvisits.of_le (Nat.le_succ index)⟩
  | @evaluate arg rest env env' _ ih =>
    cases hargs with
    | cons _ hnode hvisits hrest =>
      obtain ⟨inner, env₁, outcome, hinner, hanswer, hresult⟩ := hvisits env
      obtain ⟨visits, hlater⟩ := ih hrest
      rw [hresult] at hlater
      have hlatched : Visit.latched? registry formula root (.leave (path.child index) outcome) =
          none := by
        cases outcome <;> simp [Visit.latched?, hn, hsequence]
      exact ⟨_, .visit (Nat.le_refl index) hnode hinner hanswer
        (Env.account_close hnode hlatched env₁) hlater⟩
  | quiet hquiet _ ih =>
    obtain ⟨visits, hvisits⟩ := ih hargs
    exact ⟨visits, hvisits.after hquiet⟩

/-- An argument of a sequence is left, and is remembered if it is true. -/
theorem account_leave_argument (formula : String) (outcome : Except EvalError Value) {n : Node}
    (hn : root.at? path = some n)
    (hsequence : (path.parent?.bind root.at?).any (·.isSequence registry) = true) (env : Env H)
    (now : Float) :
    let env' := env.close formula path n.offset outcome
    Env.Account registry formula root [.leave path outcome] env
      (if (Evaluation.given outcome).isTrue then
        { env' with ledger := (env'.ledger.latch formula path now).2 } else env') := by
  dsimp only
  split
  · next htrue =>
    refine Env.account_latch hn ?_ env now
    cases outcome with
    | ok v =>
      rw [Visit.latched?, hsequence, Bool.and_true]
      exact if_pos htrue
    | error e => cases htrue
  · next htrue =>
    refine Env.account_close hn ?_ env
    cases outcome with
    | ok v =>
      rw [Visit.latched?, hsequence, Bool.and_true]
      exact if_neg htrue
    | error e => rfl

namespace Control

/-- What the argument of a sequence says, and when it was first true as far as is remembered then. -/
theorem run_latchArg (formula : String) (now : Float) (arg : Arg H) (env : Env H) :
    (latchArg formula now arg).run env =
      let (v, env₁) := arg.eval.run env
      let env₂ := if v.isTrue then
        { env₁ with ledger := (env₁.ledger.latch formula arg.path now).2 } else env₁
      ((v.truth, env₂.ledger.latchedAt? formula arg.path), env₂) := by
  unfold latchArg
  rw [StateT.run_bind]
  generalize arg.eval.run env = result
  obtain ⟨v, env₁⟩ := result
  change (if v.truth.isTrue then
      modifyGet fun env =>
        let latched := env.ledger.latch formula arg.path now
        ((v.truth, some latched.1), { env with ledger := latched.2 })
    else do return (v.truth, (← get).ledger.latchedAt? formula arg.path) :
      EvalM H (Truth × Option Float)).run env₁ = _
  dsimp only
  rw [Value.isTrue]
  split
  · rw [Ledger.latchedAt?_latch]
    rfl
  · rfl

/-- Evaluating the arguments of a sequence is a tour below it, and gives what they say and what is
    remembered of them when all have been evaluated. -/
theorem travels_latchAll (now : Float) (hargs : Placed registry formula root path index args)
    (hn : root.at? path = some n) (hsequence : n.isSequence registry = true) (env : Env H) :
    ∃ (visits : List Visit) (values : List Value),
      Travels registry formula root path index visits env ((latchAll formula now args).run env).2 ∧
      values.length = args.length ∧
      (∀ v i, (v, i) ∈ values.zipIdx index → Visit.Returns visits (path.child i) v) ∧
      ((latchAll formula now args).run env).1 = (values.zipIdx index).map fun (v, i) =>
        (v.truth, ((latchAll formula now args).run env).2.ledger.latchedAt? formula
          (path.child i)) := by
  induction hargs generalizing env with
  | nil index => exact ⟨[], [], (Env.Quiet.refl env).travels, rfl, nofun, rfl⟩
  | @cons index arg rest hpath hnode hvisits _ ih =>
    obtain ⟨inner, env₁, outcome, hinner, hanswer, hresult⟩ := hvisits env
    have hparent : ((path.child index).parent?.bind root.at?).any (·.isSequence registry) = true := by
      rw [Path.parent?_child, Option.bind_some, hn, Option.any_some, hsequence]
    have hleave := account_leave_argument formula outcome hnode hparent env₁ now
    have hrun : (latchAll formula now (arg :: rest)).run env =
        let (reading, env₂) := (latchArg formula now arg).run env
        let (readings, env') := (latchAll formula now rest).run env₂
        (reading :: readings, env') := rfl
    rw [run_latchArg, hresult, hpath] at hrun
    dsimp only at hleave hrun
    generalize (if (Evaluation.given outcome).isTrue = true then _ else _ : Env H) = env₂ at hleave hrun
    obtain ⟨visits, values, hlater, hlength, hreturns, hreadings⟩ := ih env₂
    generalize (latchAll formula now rest).run env₂ = result at hrun hlater hreadings
    obtain ⟨readings, env'⟩ := result
    rw [hrun]
    have htravels := Travels.visit (Nat.le_refl index) hnode hinner hanswer hleave hlater
    refine ⟨_, Evaluation.given outcome :: values, htravels, congrArg (· + 1) hlength, ?_, ?_⟩
    · intro v i hv
      rw [List.zipIdx_cons, List.mem_cons] at hv
      rcases hv with heq | hv
      · cases heq
        exact ⟨outcome, by simp, rfl⟩
      · exact (hreturns v i hv).mono fun w hw => by simp [hw]
    · have hkept : env'.ledger.latchedAt? formula (path.child index) =
          env₂.ledger.latchedAt? formula (path.child index) := by
        refine hlater.account.latchedAt?_eq fun v hv heq => ?_
        obtain ⟨j, below, hj, hbelow⟩ := hlater.tour.path_of_mem v hv
        rw [hbelow, Path.child, List.append_cancel_left_eq, List.cons.injEq] at heq
        omega
      rw [List.zipIdx_cons, List.map_cons]
      dsimp only at hreadings ⊢
      rw [hkept, ← hreadings]

end Control

end

namespace Evaluation

variable {registry : Registry} {formula : String} {root n : Node} {path : Path}

theorem run_visit (formula : String) (path : Path) (n : Node)
    (attempt : EvalM H (Except EvalError Value)) (env : Env H) :
    (visit formula path n attempt).run env =
      let (outcome, env') := if maxEvalDepth ≤ path.length then
          (.error (.depthExceeded maxEvalDepth), env.record (.enter path n))
        else attempt.run (env.record (.enter path n))
      (given outcome, env'.close formula path n.offset outcome) := by
  unfold visit
  rw [StateT.run_bind]
  split
  · rfl
  · change StateT.run (attempt >>= _) (env.record (.enter path n)) = _
    rw [StateT.run_bind]
    generalize attempt.run (env.record (.enter path n)) = result
    obtain ⟨outcome, env'⟩ := result
    cases outcome <;> rfl

/-- However a visit has gone, what came of it is written down last. -/
theorem returns_visit (formula : String) (path : Path) (n : Node)
    (attempt : EvalM H (Except EvalError Value)) (env : Env H) :
    let result := (visit formula path n attempt).run env
    Visit.Returns result.2.trace.toList path result.1 := by
  dsimp only
  rw [run_visit]
  refine ⟨_, ?_, rfl⟩
  rw [Env.trace_close, Array.toList_push]
  exact List.mem_concat_self

/-- A visit of a node, given what an attempt at it does. -/
theorem visits_visit {attempt : EvalM H (Except EvalError Value)} {env : Env H} {inner : List Visit}
    (htravels : Travels registry formula root path 1 inner (env.record (.enter path n))
      (attempt.run (env.record (.enter path n))).2)
    (hanswer : ∀ answer, (attempt.run (env.record (.enter path n))).1 = .ok answer →
      n.isSequence registry = true → Visit.IsAnswer formula inner
        (attempt.run (env.record (.enter path n))).2.ledger path n answer) :
    Visits registry formula root path n env ((visit formula path n attempt).run env) := by
  rw [run_visit]
  by_cases hdeep : maxEvalDepth ≤ path.length
  · rw [if_pos hdeep]
    exact ⟨[], _, .error _, (Env.Quiet.refl _).travels, nofun, rfl⟩
  · rw [if_neg hdeep]
    exact ⟨inner, _, _, htravels, hanswer, rfl⟩

variable [Host H]

/-- Applying a sequence to its arguments is a tour below it, and gives the right answer unless their
    number is wrong. -/
theorem travels_apply_of_isSequence {args : List (Arg H)}
    (hargs : Placed registry formula root path 1 args) (hlength : args.length = n.args.length)
    (hn : root.at? path = some n) (hsequence : n.isSequence registry = true) (env : Env H) :
    let result := (apply registry formula path n.operator? args).run env
    ∃ inner, Travels registry formula root path 1 inner env result.2 ∧
      ∀ answer, result.1 = .ok answer →
        Visit.IsAnswer formula inner result.2.ledger path n answer := by
  have hoperator := hsequence
  rw [Node.isSequence, Option.any_eq_true] at hoperator
  obtain ⟨operator, hoperator, hbehaviour⟩ := hoperator
  obtain ⟨name, hname, hget⟩ := Option.bind_eq_some_iff.1 hoperator
  have hcontrol : operator.behaviour = .builtin (.control .andInSequence) := by
    unfold Operator.isSequence at hbehaviour
    split at hbehaviour
    · assumption
    · cases hbehaviour
  have hrun : (apply registry formula path n.operator? args).run env =
      if !operator.signature.acceptsCount args.length then
        (.error (arityError operator args.length), env)
      else
        let (readings, env') := (Control.latchAll formula (Host.time env.host) args).run env
        (.ok (Control.sequenceTruth readings).toValue, env') := by
    rw [hname]
    unfold apply
    dsimp only
    rw [hget]
    dsimp only
    rw [hcontrol, if_pos (show Behaviour.isLazy (.builtin (.control .andInSequence)) = true from rfl)]
    unfold applyLazy
    rw [hcontrol]
    split <;> rfl
  dsimp only
  rw [hrun]
  split
  · exact ⟨[], (Env.Quiet.refl env).travels, nofun⟩
  · obtain ⟨inner, values, htravels, hvalues, hreturns, hreadings⟩ :=
      Control.travels_latchAll (Host.time env.host) hargs hn hsequence env
    refine ⟨inner, htravels, fun answer hanswer => ?_⟩
    refine ⟨values, hvalues.trans hlength, hreturns, (Except.ok.inj hanswer).symm.trans ?_⟩
    exact congrArg (fun readings => (Control.sequenceTruth readings).toValue) hreadings

/-- Evaluating a list is a visit if its arguments are. -/
theorem visits_list {children : List Node} {offset : Nat}
    (hn : root.at? path = some (.list children offset))
    (hargs : Placed (H := H) registry formula root path 1
      (childArgs registry formula path 0 children).tail) (env : Env H) :
    Visits registry formula root path (.list children offset) env
      ((evalNode registry formula path (.list children offset)).run env) := by
  rw [evalNode]
  cases hsequence : (Node.list children offset).isSequence registry with
  | true =>
    have hlength : (childArgs (H := H) registry formula path 0 children).tail.length =
        (Node.list children offset).args.length := by
      rw [List.length_tail, length_childArgs]
      exact List.length_tail.symm
    obtain ⟨inner, htravels, hanswer⟩ :=
      travels_apply_of_isSequence hargs hlength hn hsequence (env.record (.enter path _))
    exact visits_visit htravels fun answer hok _ => hanswer answer hok
  | false =>
    have huses : Uses (childArgs registry formula path 0 children).tail _ _ :=
      uses_apply hsequence formula path (env.record (.enter path (.list children offset)))
    obtain ⟨inner, htravels⟩ := huses.travels hargs hn hsequence
    refine visits_visit htravels fun answer _ htrue => ?_
    rw [hsequence] at htrue
    cases htrue

mutual

/-- Evaluating a node at its path is a visit of it. -/
theorem visits_evalNode (registry : Registry) (formula : String) (root : Node) (path : Path)
    (n : Node) (hn : root.at? path = some n) (env : Env H) :
    Visits registry formula root path n env ((evalNode registry formula path n).run env) := by
  cases n with
  | atom a offset =>
    rw [evalNode]
    exact visits_visit (Env.Quiet.refl _).travels fun _ _ hsequence => nomatch hsequence
  | list children offset =>
    refine visits_list hn ?_ env
    cases children with
    | nil => exact .nil 1
    | cons head rest =>
      exact placed_childArgs registry formula root path 1 rest fun i n hi => by
        rw [Node.at?_child, hn, Option.bind_some, Nat.add_comm]
        exact hi

/-- The arguments of a node are placed below it. -/
theorem placed_childArgs (registry : Registry) (formula : String) (root : Node) (path : Path)
    (index : Nat) (nodes : List Node)
    (hnodes : ∀ i n, nodes[i]? = some n → root.at? (path.child (index + i)) = some n) :
    Placed registry formula root path index (childArgs (H := H) registry formula path index nodes) := by
  cases nodes with
  | nil =>
    rw [childArgs]
    exact .nil index
  | cons n rest =>
    have hn : root.at? (path.child index) = some n := hnodes 0 n rfl
    rw [childArgs]
    refine .cons rfl hn (visits_evalNode registry formula root (path.child index) n hn) ?_
    exact placed_childArgs registry formula root path (index + 1) rest fun i n hi => by
      rw [Nat.add_assoc, Nat.add_comm 1]
      exact hnodes (i + 1) n hi

end

end Evaluation

/-- The way of a whole evaluation: the root is entered and left, with a tour below it in between. -/
theorem travels_evaluate [Host H] (registry : Registry) (formula : String) (root : Node) (env : Env H) :
    let env' := ((evaluate registry formula root).run env).2
    ∃ inner outcome, env'.trace.toList = .enter [] root :: (inner ++ [.leave [] outcome]) ∧
      Tour root [] 1 inner ∧
      Env.Account registry formula root env'.trace.toList { env with trace := #[] } env' ∧
      Visit.Answers registry formula root env'.trace.toList env'.ledger := by
  have hrun : (evaluate registry formula root).run env =
      (Evaluation.evalNode registry formula [] root).run { env with trace := #[] } := rfl
  obtain ⟨inner, env₁, outcome, hinner, hanswer, hresult⟩ := Evaluation.visits_evalNode registry
    formula root [] root (Node.at?_nil root) { env with trace := #[] }
  rw [hrun, hresult]
  have hleave : Env.Account registry formula root [.leave [] outcome] env₁
      (env₁.close formula [] root.offset outcome) :=
    Env.account_close (Node.at?_nil root)
      (by cases outcome <;> simp [Visit.latched?, Path.parent?]) env₁
  have haccount := (Env.account_enter { env with trace := #[] } [] root).trans
    (hinner.account.trans hleave)
  have hanswers := answers_visit hinner (Node.at?_nil root) hanswer hleave (List.forall_mem_nil _)
  have htrace : (env₁.close formula [] root.offset outcome).trace.toList =
      .enter [] root :: (inner ++ [.leave [] outcome]) := haccount.trace
  dsimp only
  rw [htrace]
  exact ⟨inner, outcome, rfl, hinner.tour, haccount, hanswers⟩

/-- Evaluating a formula writes down what its steps say, and sequences have the right answers. -/
theorem account_evaluate [Host H] (registry : Registry) (formula : String) (root : Node)
    (env : Env H) :
    let env' := ((evaluate registry formula root).run env).2
    Env.Account registry formula root env'.trace.toList { env with trace := #[] } env' ∧
      Visit.Answers registry formula root env'.trace.toList env'.ledger := by
  obtain ⟨-, -, -, -, haccount, hanswers⟩ := travels_evaluate registry formula root env
  exact ⟨haccount, hanswers⟩

/-- No node is left twice in an evaluation. -/
theorem nodup_left_evaluate [Host H] (registry : Registry) (formula : String) (root : Node)
    (env : Env H) :
    (((evaluate registry formula root).run env).2.trace.toList.filterMap Visit.left?).Nodup := by
  obtain ⟨inner, outcome, htrace, htour, -⟩ := travels_evaluate registry formula root env
  have hleft : ((evaluate registry formula root).run env).2.trace.toList.filterMap Visit.left? =
      inner.filterMap Visit.left? ++ [[]] := by
    rw [htrace]
    change (inner ++ [Visit.leave [] outcome]).filterMap Visit.left? = _
    rw [List.filterMap_append]
    rfl
  rw [hleft, List.nodup_append]
  refine ⟨htour.nodup_left, List.pairwise_singleton _ _, fun p hp p' hp' => ?_⟩
  obtain ⟨i, below, -, rfl⟩ := htour.left_of_mem hp
  rw [List.mem_singleton.1 hp', List.nil_append]
  exact List.cons_ne_nil i below

/-- Whether a computation evaluates a formula: begun without a trace, it ends with one. -/
def EvalM.evaluates {α : Type} (m : EvalM H α) (env : Env H) : Bool :=
  !(m.run { env with trace := #[] }).2.trace.isEmpty

theorem isEmpty_trace_evaluate [Host H] (registry : Registry) (formula : String) (root : Node)
    (env : Env H) : ((evaluate registry formula root).run env).2.trace.isEmpty = false := by
  obtain ⟨inner, outcome, htrace, -⟩ := travels_evaluate registry formula root env
  rw [← Array.isEmpty_toList, htrace]
  rfl

end MissionScript

import MissionScript.Evaluation.Basic
import MissionScript.Proofs.Evaluation.Tour

/-!
What steps account for in an environment. What is reported names the node that failed, and what a
sequence remembers of an argument is kept under the path of that argument.
-/

namespace MissionScript

variable {H : Type}

/-- Whether a warning reports a node that failed. -/
def Warning.isReport : Warning → Bool
  | .unknownVariable .. | .argumentMismatch .. | .subtreeUnknown .. => true
  | _ => false

/-- Whether a warning reports a node that failed, and would do so again. -/
def Warning.isFault : Warning → Bool
  | .argumentMismatch .. | .subtreeUnknown .. => true
  | _ => false

namespace Warning

/-- The folded name of the variable that a warning reports as unknown. -/
def unknown? : Warning → Option String
  | .unknownVariable _ _ name => some (foldName name)
  | _ => none

/-- What is told of warnings that are raised one after the other, where some unknown variables have been
    told of before. None is told of twice. -/
def told (known : List String) : List Warning → List Warning
  | [] => []
  | w :: rest =>
    match w.unknown? with
    | none => w :: told known rest
    | some key => if key ∈ known then told known rest else w :: told (key :: known) rest

variable {known known' : List String}

theorem told_congr (h : ∀ key, key ∈ known ↔ key ∈ known') (ws : List Warning) :
    told known ws = told known' ws := by
  induction ws generalizing known known' with
  | nil => rfl
  | cons w rest ih =>
    rw [told, told]
    cases w.unknown? with
    | none => exact congrArg (w :: ·) (ih h)
    | some key =>
      dsimp only
      rw [ih h, if_congr (h key) rfl rfl]
      exact congrArg _ (congrArg (w :: ·) (ih fun other => by rw [List.mem_cons, List.mem_cons, h]))

theorem told_append (known : List String) (ws ws' : List Warning) :
    told known (ws ++ ws') = told known ws ++ told (ws.filterMap unknown? ++ known) ws' := by
  induction ws generalizing known with
  | nil => rfl
  | cons w rest ih =>
    rw [List.cons_append, told, told]
    cases hw : w.unknown? with
    | none =>
      rw [List.filterMap_cons_none hw]
      exact congrArg (w :: ·) (ih known)
    | some key =>
      rw [List.filterMap_cons_some hw, List.cons_append]
      dsimp only
      split
      · next hknown =>
        rw [ih known]
        exact congrArg (_ ++ ·) (told_congr (fun other => by grind) ws')
      · rw [ih (key :: known), List.cons_append]
        exact congrArg (w :: told _ rest ++ ·) (told_congr (fun other => by grind) ws')

theorem told_sublist (known : List String) (ws : List Warning) : (told known ws).Sublist ws := by
  induction ws generalizing known with
  | nil => exact .slnil
  | cons w rest ih =>
    rw [told]
    cases w.unknown? with
    | none => exact (ih known).cons_cons w
    | some key =>
      dsimp only
      split
      · exact (ih known).cons w
      · exact (ih _).cons_cons w

/-- Of what would be raised again everything is told. -/
theorem filter_isFault_told (known : List String) (ws : List Warning) :
    (told known ws).filter isFault = ws.filter isFault := by
  induction ws generalizing known with
  | nil => rfl
  | cons w rest ih =>
    rw [told]
    cases hw : w.unknown? with
    | none =>
      dsimp only
      rw [List.filter_cons, List.filter_cons, ih]
    | some key =>
      have hfault : ¬ w.isFault = true := by
        unfold unknown? at hw
        split at hw
        · nofun
        · cases hw
      dsimp only
      rw [List.filter_cons_of_neg hfault]
      split
      · exact ih known
      · rw [List.filter_cons_of_neg hfault, ih]

/-- Of a variable that was not known to be unknown the first warning is told. -/
theorem filter_unknown_told (known : List String) (ws : List Warning) (key : String) :
    (told known ws).filter (·.unknown? = some key) =
      if key ∈ known then [] else (ws.filter (·.unknown? = some key)).take 1 := by
  induction ws generalizing known with
  | nil => simp [told]
  | cons w rest ih =>
    rw [told]
    cases hw : w.unknown? with
    | none =>
      dsimp only
      rw [List.filter_cons_of_neg (by simp [hw]), List.filter_cons_of_neg (by simp [hw]), ih]
    | some other =>
      dsimp only
      by_cases hkey : other = key
      · subst hkey
        rw [List.filter_cons_of_pos (by simp [hw])]
        split
        · next hknown => rw [ih, if_pos hknown]
        · rw [List.filter_cons_of_pos (by simp [hw]), ih, if_pos List.mem_cons_self]
          rfl
      · rw [List.filter_cons_of_neg (by simp [hw, hkey])]
        split
        · exact ih known
        · rw [List.filter_cons_of_neg (by simp [hw, hkey]), ih]
          simp only [List.mem_cons, Ne.symm hkey, false_or]

end Warning

/-- The warning that reports an error of a node. -/
def EvalError.warning (formula : String) (path : Path) (offset : Nat) (e : EvalError) : Warning :=
  match e with
  | .unknownVariable name => .unknownVariable formula path name
  | .argumentMismatch .. | .arityMismatch .. => .argumentMismatch formula path offset e
  | e => .subtreeUnknown formula path offset e

/-- Whether an operator is the one that remembers when its arguments were true. -/
def Operator.isSequence (operator : Operator) : Bool :=
  match operator.behaviour with
  | .builtin (.control .andInSequence) => true
  | _ => false

/-- Whether a node applies the operator that remembers when its arguments were true. -/
def Node.isSequence (registry : Registry) (n : Node) : Bool :=
  (n.operator?.bind registry.get?).any Operator.isSequence

/-- The value of a node, given what came of it. -/
def Evaluation.given : Except EvalError Value → Value
  | .ok v => v
  | .error _ => .unknown

namespace Visit

/-- Whether a step is the end of a node that has failed. -/
def isFailure : Visit → Bool
  | .leave _ (.error _) => true
  | _ => false

/-- The report of a node that is left with an error. -/
def report? (formula : String) (root : Node) : Visit → Option Warning
  | .leave path (.error e) => (root.at? path).map fun n => e.warning formula path n.offset
  | _ => none

/-- The key that is latched when an argument of a sequence is left and is true. -/
def latched? (registry : Registry) (formula : String) (root : Node) : Visit → Option (String × Path)
  | .leave path (.ok v) =>
    if v.isTrue && (path.parent?.bind root.at?).any (·.isSequence registry) then
      some (Ledger.latchKey formula path)
    else none
  | _ => none

end Visit

namespace Env

/-- What came of a node is written down, and an error is reported. -/
def close (env : Env H) (formula : String) (path : Path) (offset : Nat)
    (outcome : Except EvalError Value) : Env H :=
  match outcome with
  | .ok _ => env.record (.leave path outcome)
  | .error e => (env.report formula path offset e).record (.leave path outcome)

/-- Whether nothing of what is reported or remembered of a formula changes. -/
structure Quiet (env env' : Env H) : Prop where
  trace : env'.trace = env.trace
  latches : env'.ledger.latches = env.ledger.latches
  warned : env'.ledger.warned = env.ledger.warned
  errors : env'.ledger.errors = env.ledger.errors
  log : ∃ ws, env'.log.toList = env.log.toList ++ ws ∧ ∀ w ∈ ws, w.isReport = false

theorem Quiet.refl (env : Env H) : env.Quiet env :=
  ⟨rfl, rfl, rfl, rfl, [], (List.append_nil _).symm, nofun⟩

theorem Quiet.trans {env₁ env₂ env₃ : Env H} (h₁₂ : env₁.Quiet env₂) (h₂₃ : env₂.Quiet env₃) :
    env₁.Quiet env₃ := by
  obtain ⟨ws, hlog, hws⟩ := h₁₂.log
  obtain ⟨ws', hlog', hws'⟩ := h₂₃.log
  refine ⟨h₂₃.trace.trans h₁₂.trace, h₂₃.latches.trans h₁₂.latches, h₂₃.warned.trans h₁₂.warned,
    h₂₃.errors.trans h₁₂.errors, ws ++ ws', ?_, List.forall_mem_append.2 ⟨hws, hws'⟩⟩
  rw [hlog', hlog, List.append_assoc]

/-- Whether steps account for what has been written into an environment. -/
structure Account (registry : Registry) (formula : String) (root : Node) (visits : List Visit)
    (env env' : Env H) : Prop where
  trace : env'.trace.toList = env.trace.toList ++ visits
  reports : ∃ ws, env'.log.toList = env.log.toList ++ ws ∧ ws.filter Warning.isReport =
    Warning.told env.ledger.warned (visits.filterMap (Visit.report? formula root))
  warned : ∀ key, key ∈ env'.ledger.warned ↔ key ∈ env.ledger.warned ∨
    key ∈ (visits.filterMap (Visit.report? formula root)).filterMap Warning.unknown?
  errors : env'.ledger.errors = env.ledger.errors + visits.countP Visit.isFailure
  kept : ∀ key time, env.ledger.latches.find? key = some time →
    env'.ledger.latches.find? key = some time
  latched : ∀ key, env'.ledger.latches.contains key = true ↔
    env.ledger.latches.contains key = true ∨
      key ∈ visits.filterMap (Visit.latched? registry formula root)

section

variable {registry : Registry} {formula : String} {root n : Node} {path : Path}
  {visits visits' : List Visit} {outcome : Except EvalError Value} {env env₁ env₂ env' : Env H}

theorem Quiet.account (h : env.Quiet env') : Account registry formula root [] env env' := by
  obtain ⟨htrace, hlatches, hwarned, herrors, ws, hlog, hws⟩ := h
  refine ⟨by rw [htrace, List.append_nil], ⟨ws, hlog, ?_⟩, fun key => by simp [hwarned], herrors,
    fun key time htime => by rwa [hlatches], fun key => by simp [hlatches]⟩
  exact List.filter_eq_nil_iff.2 fun w hw => by simp [hws w hw]

theorem Account.trans (h₁₂ : Account registry formula root visits env₁ env₂)
    (h₂₃ : Account registry formula root visits' env₂ env') :
    Account registry formula root (visits ++ visits') env₁ env' := by
  obtain ⟨ws, hlog, hws⟩ := h₁₂.reports
  obtain ⟨ws', hlog', hws'⟩ := h₂₃.reports
  refine ⟨?_, ⟨ws ++ ws', ?_, ?_⟩, fun key => ?_, ?_,
    fun key time htime => h₂₃.kept key time (h₁₂.kept key time htime), fun key => ?_⟩
  · rw [h₂₃.trace, h₁₂.trace, List.append_assoc]
  · rw [hlog', hlog, List.append_assoc]
  · rw [List.filter_append, List.filterMap_append, Warning.told_append, hws, hws']
    refine congrArg (_ ++ ·) (Warning.told_congr (fun key => ?_) _)
    rw [h₁₂.warned, List.mem_append, or_comm]
  · rw [h₂₃.warned, h₁₂.warned, List.filterMap_append, List.filterMap_append, List.mem_append,
      or_assoc]
  · rw [h₂₃.errors, h₁₂.errors, List.countP_append, Nat.add_assoc]
  · rw [h₂₃.latched, h₁₂.latched, List.filterMap_append, List.mem_append, or_assoc]

/-- Unknown variables are not reported every time, other errors are. -/
theorem Account.sublist_reports (h : Account registry formula root visits env env') :
    ∃ ws, env'.log.toList = env.log.toList ++ ws ∧
      (ws.filter Warning.isReport).Sublist (visits.filterMap (Visit.report? formula root)) ∧
      ws.filter Warning.isFault =
        (visits.filterMap (Visit.report? formula root)).filter Warning.isFault := by
  obtain ⟨ws, hlog, hws⟩ := h.reports
  refine ⟨ws, hlog, hws ▸ Warning.told_sublist _ _, ?_⟩
  have hfaults : ws.filter Warning.isFault = (ws.filter Warning.isReport).filter Warning.isFault := by
    rw [List.filter_filter]
    exact List.filter_congr fun w _ => by cases w <;> rfl
  rw [hfaults, hws, Warning.filter_isFault_told]

theorem account_enter (env : Env H) (path : Path) (n : Node) :
    Account registry formula root [.enter path n] env (env.record (.enter path n)) := by
  refine ⟨by simp [record], ⟨[], (List.append_nil _).symm, rfl⟩, fun key => ?_, rfl, fun _ _ h => h,
    fun key => ?_⟩
  · simp [record, Visit.report?]
  · simp [record, Visit.latched?]

/-- A report is about the formula and the node, and it is told unless it is about a variable that has
    been told of before. -/
theorem report_told (env : Env H) (formula : String) (path : Path) (offset : Nat) (e : EvalError) :
    let env' := env.report formula path offset e
    let w := e.warning formula path offset
    env'.log.toList = env.log.toList ++ Warning.told env.ledger.warned [w] ∧
      (∀ key, key ∈ env'.ledger.warned ↔ key ∈ env.ledger.warned ∨ w.unknown? = some key) ∧
      env'.ledger.errors = env.ledger.errors + 1 := by
  cases e with
  | unknownVariable name =>
    have hknown : env.ledger.warned.contains (foldName name) = decide (foldName name ∈ env.ledger.warned) :=
      List.contains_eq_mem _ _
    unfold report Ledger.warnOnce
    dsimp only [EvalError.warning, Warning.unknown?, Warning.told]
    rw [hknown]
    by_cases hmem : foldName name ∈ env.ledger.warned
    · simp only [decide_eq_true hmem, if_true, if_pos hmem]
      exact ⟨(List.append_nil _).symm, fun key => by grind [Ledger.countError], rfl⟩
    · simp only [decide_eq_false hmem, if_neg hmem]
      exact ⟨Array.toList_push, fun key => by grind [Ledger.countError, warn], rfl⟩
  | _ =>
    exact ⟨Array.toList_push, fun key => (or_iff_left (by simp [EvalError.warning, Warning.unknown?])).symm,
      rfl⟩

theorem latches_report (env : Env H) (formula : String) (path : Path) (offset : Nat)
    (e : EvalError) : (env.report formula path offset e).ledger.latches = env.ledger.latches := by
  unfold report
  cases e with
  | unknownVariable name =>
    unfold Ledger.warnOnce
    dsimp only
    split <;> rfl
  | _ => rfl

theorem trace_report (env : Env H) (formula : String) (path : Path) (offset : Nat)
    (e : EvalError) : (env.report formula path offset e).trace = env.trace := by
  unfold report
  cases e with
  | unknownVariable name =>
    dsimp only
    split <;> rfl
  | _ => rfl

theorem latches_close (env : Env H) (formula : String) (path : Path) (offset : Nat)
    (outcome : Except EvalError Value) :
    (env.close formula path offset outcome).ledger.latches = env.ledger.latches := by
  cases outcome with
  | ok v => rfl
  | error e => exact latches_report env formula path offset e

theorem trace_close (env : Env H) (formula : String) (path : Path) (offset : Nat)
    (outcome : Except EvalError Value) :
    (env.close formula path offset outcome).trace = env.trace.push (.leave path outcome) := by
  cases outcome with
  | ok v => rfl
  | error e =>
    unfold Env.close
    dsimp only
    rw [record, trace_report]

/-- What is written when a node is left, but for the latch that a sequence may set. -/
theorem reports_close (formula : String) (outcome : Except EvalError Value)
    (hn : root.at? path = some n) (env : Env H) :
    let env' := env.close formula path n.offset outcome
    let reports := [Visit.leave path outcome].filterMap (Visit.report? formula root)
    (∃ ws, env'.log.toList = env.log.toList ++ ws ∧
      ws.filter Warning.isReport = Warning.told env.ledger.warned reports) ∧
      (∀ key, key ∈ env'.ledger.warned ↔ key ∈ env.ledger.warned ∨
        key ∈ reports.filterMap Warning.unknown?) ∧
      env'.ledger.errors = env.ledger.errors + [Visit.leave path outcome].countP Visit.isFailure := by
  cases outcome with
  | ok v => exact ⟨⟨[], (List.append_nil _).symm, rfl⟩, fun key => (or_iff_left nofun).symm, rfl⟩
  | error e =>
    have hreports : [Visit.leave path (.error e)].filterMap (Visit.report? formula root) =
        [e.warning formula path n.offset] := by
      simp [Visit.report?, hn]
    have hreport : ∀ w ∈ [e.warning formula path n.offset], w.isReport = true :=
      List.forall_mem_singleton.2 (by cases e <;> rfl)
    obtain ⟨hlog, hwarned, herrors⟩ := report_told env formula path n.offset e
    simp only [hreports]
    refine ⟨⟨_, hlog, ?_⟩, fun key => ?_, herrors⟩
    · exact List.filter_eq_self.2 fun w hw => hreport w ((Warning.told_sublist _ _).subset hw)
    · rw [List.mem_filterMap]
      change key ∈ (env.report formula path n.offset e).ledger.warned ↔ _
      simpa using hwarned key

/-- A node is left that latches nothing. -/
theorem account_close (hn : root.at? path = some n)
    (hlatched : Visit.latched? registry formula root (.leave path outcome) = none) (env : Env H) :
    Account registry formula root [.leave path outcome] env
      (env.close formula path n.offset outcome) := by
  obtain ⟨hreports, hwarned, herrors⟩ := reports_close formula outcome hn env
  have hlatches := latches_close env formula path n.offset outcome
  refine ⟨?_, hreports, hwarned, herrors, fun key time htime => by rwa [hlatches], fun key => ?_⟩
  · rw [trace_close, Array.toList_push]
  · simp [hlatches, hlatched]

/-- An argument of a sequence is left, and it is true. -/
theorem account_latch (hn : root.at? path = some n)
    (hlatched : Visit.latched? registry formula root (.leave path outcome) =
      some (Ledger.latchKey formula path)) (env : Env H) (now : Float) :
    let env' := env.close formula path n.offset outcome
    Account registry formula root [.leave path outcome] env
      { env' with ledger := (env'.ledger.latch formula path now).2 } := by
  obtain ⟨hreports, hwarned, herrors⟩ := reports_close formula outcome hn env
  have hlatches := latches_close env formula path n.offset outcome
  refine ⟨?_, hreports, hwarned, herrors, fun key time htime => ?_, fun key => ?_⟩
  · rw [trace_close, Array.toList_push]
  · simp only [Ledger.latch, hlatches, Table.find?_insertNew]
    split
    · next heq =>
      subst heq
      rw [htime, Option.getD_some]
    · exact htime
  · simp only [Ledger.latch, Table.contains, hlatches, Table.find?_insertNew]
    by_cases hkey : key = Ledger.latchKey formula path
    · simp [hkey, hlatched]
    · simp [hkey, hlatched]

/-- What is remembered of a node stays unless a step is taken there. -/
theorem Account.latchedAt?_eq (h : Account registry formula root visits env env')
    (hpath : ∀ v ∈ visits, v.path ≠ path) :
    env'.ledger.latchedAt? formula path = env.ledger.latchedAt? formula path := by
  unfold Ledger.latchedAt?
  cases hfind : env.ledger.latches.find? (Ledger.latchKey formula path) with
  | some time => exact h.kept _ time hfind
  | none =>
    have hkey : Ledger.latchKey formula path ∉
        visits.filterMap (Visit.latched? registry formula root) := by
      intro hmem
      obtain ⟨v, hv, hlatched⟩ := List.mem_filterMap.1 hmem
      refine hpath v hv ?_
      unfold Visit.latched? at hlatched
      split at hlatched
      · split at hlatched
        · exact (Prod.mk.inj (Option.some.inj hlatched)).2
        · cases hlatched
      · cases hlatched
    have hcontains := h.latched (Ledger.latchKey formula path)
    rw [Table.contains, Table.contains, hfind] at hcontains
    simpa [hkey] using hcontains

end

end Env

end MissionScript

import MissionScript.Game.Simulation
import MissionScript.Proofs.Evaluation.Errors
import MissionScript.Proofs.Evaluation.Journey
import MissionScript.Proofs.Formula.Acceptance
import MissionScript.Proofs.Operator.Builtin

/-!
How deep formulas are. The reader limits how many lists are inside each other, and this bounds how
far below the root an evaluation can get, so that it stays clear of the limit on that.
-/

namespace MissionScript

namespace Node

mutual

/-- On the way down there is one node for each list, and an atom at the end. -/
theorem depth_le_nesting (n : Node) : n.depth ≤ n.nesting + 1 := by
  cases n with
  | atom a offset => exact Nat.le_refl 1
  | list children offset =>
    rw [depth, nesting]
    exact Nat.succ_le_succ (depthAll_le_nestingAll children)

theorem depthAll_le_nestingAll (nodes : List Node) : depthAll nodes ≤ nestingAll nodes + 1 := by
  cases nodes with
  | nil => exact Nat.zero_le _
  | cons n rest =>
    have hn := depth_le_nesting n
    have hrest := depthAll_le_nestingAll rest
    rw [depthAll, nestingAll]
    omega

end

/-- Every step of a path goes into a list. -/
theorem length_le_nesting {root n : Node} {path : Path} (h : root.at? path = some n) :
    path.length ≤ root.nesting := by
  induction path generalizing root with
  | nil => exact Nat.zero_le _
  | cons i rest ih =>
    rw [at?] at h
    obtain ⟨child, hchild, hrest⟩ := Option.bind_eq_some_iff.1 h
    cases root with
    | atom => cases hchild
    | list children offset =>
      have hnesting := nestingAll_le_iff.1 (Nat.le_refl _) child (List.mem_of_getElem? hchild)
      rw [nesting, List.length_cons]
      exact Nat.succ_le_succ ((ih hrest).trans hnesting)

end Node

section

variable {known : String → Bool} {allowUnknown : Bool} {limit limit' : Nat} {text : List Char}
  {f : Formula}

theorem nesting_le_of_parseChars (h : parseChars known ⟨allowUnknown, limit⟩ text = .ok f) :
    f.root.nesting ≤ limit := by
  obtain ⟨row, -, -, hnesting, -⟩ := parseChars_eq_ok_iff_derives.1 h
  exact hnesting

/-- The limit of nesting decides whether a formula is let through, and nothing else. -/
theorem parseChars_eq_ok_iff_of_le (hle : limit ≤ limit') :
    parseChars known ⟨allowUnknown, limit⟩ text = .ok f ↔
      parseChars known ⟨allowUnknown, limit'⟩ text = .ok f ∧ f.root.nesting ≤ limit := by
  constructor
  · intro h
    obtain ⟨row, hsplits, hderives, hnesting, hunresolved⟩ := parseChars_eq_ok_iff_derives.1 h
    refine ⟨parseChars_eq_ok_iff_derives.2 ?_, hnesting⟩
    exact ⟨row, hsplits, hderives.of_allowUnknown id, hnesting.trans hle, hunresolved⟩
  · rintro ⟨h, hnesting⟩
    obtain ⟨row, hsplits, hderives, -, hunresolved⟩ := parseChars_eq_ok_iff_derives.1 h
    exact parseChars_eq_ok_iff_derives.2
      ⟨row, hsplits, hderives.of_allowUnknown id, hnesting, hunresolved⟩

end

/-- Whether it has come of a node that it is too far below the root. -/
def Evaluation.IsTooDeep (outcome : Except EvalError Value) : Prop :=
  ∃ limit, outcome = .error (.depthExceeded limit)

/-- Whether a step leaves a node that is too far below the root. -/
def Visit.IsTooDeep : Visit → Prop
  | .enter .. => False
  | .leave _ outcome => Evaluation.IsTooDeep outcome

/-- Whether a warning reports a node that is too far below the root. -/
def Warning.IsTooDeep (w : Warning) : Prop :=
  ∃ formula path offset limit, w = .subtreeUnknown formula path offset (.depthExceeded limit)

variable {H : Type}

/-- Whether nothing in a trace is too far below the root. -/
def Env.IsShallow (env : Env H) : Prop :=
  ∀ v ∈ env.trace, ¬ v.IsTooDeep

/-- The error that is kept for nodes that are not attempted is raised too far below the root only. -/
theorem Node.Raises.le_length {registry : Registry} {path : Path} {n : Node} {limit : Nat}
    (h : n.Raises registry path (.depthExceeded limit)) : maxEvalDepth ≤ path.length := by
  cases h with
  | tooDeep hdeep => exact hdeep
  | @application children _ _ h =>
    generalize headName? children = name at h
    cases h with
    | complaint _ _ he => cases he

variable [Host H]

/-- A formula with fewer lists inside each other than an evaluation may take steps down is evaluated
    without coming too far below its root, and nothing else is reported. -/
theorem isShallow_evaluate (registry : Registry) (formula : String) {root : Node}
    (hdepth : root.nesting < maxEvalDepth) (env : Env H) :
    let env' := ((evaluate registry formula root).run env).2
    env'.IsShallow ∧
      ∃ ws, env'.log.toList = env.log.toList ++ ws ∧ ∀ w ∈ ws, ¬ w.IsTooDeep := by
  have hshallow : ((evaluate registry formula root).run env).2.IsShallow := by
    intro v hv hdeep
    cases v with
    | enter path n => exact hdeep
    | leave path outcome =>
      obtain ⟨limit, rfl⟩ := hdeep
      obtain ⟨n, hn, hraises⟩ := owns_evaluate registry formula root env _ hv
      have hlength := Node.length_le_nesting hn
      have hpath := hraises.le_length
      omega
  obtain ⟨ws, hlog, hreports, -⟩ := (account_evaluate registry formula root env).1.sublist_reports
  refine ⟨hshallow, ws, hlog, ?_⟩
  rintro w hw ⟨formula', path, offset, limit, rfl⟩
  -- the report comes of a step that leaves a node, with the same error
  have hmem := hreports.subset (List.mem_filter.2 ⟨hw, rfl⟩)
  obtain ⟨v, hv, hreport⟩ := List.mem_filterMap.1 hmem
  cases v with
  | enter path n => cases hreport
  | leave path outcome =>
    cases outcome with
    | ok answer => cases hreport
    | error e =>
      obtain ⟨n, -, hwarning⟩ := Option.map_eq_some_iff.1 hreport
      cases e with
      | depthExceeded limit => exact hshallow _ (Array.mem_toList_iff.1 hv) ⟨limit, rfl⟩
      | _ => cases hwarning

/-- The limit of nesting is exact, for every registry and every text. What is read has no more lists
    inside each other, and is at most one node deeper than that; a greater limit lets the same
    formulas through, and besides only such as are nested more deeply. A formula that is read with a
    limit below that of evaluation is evaluated by the built-in operators, in any game and any
    environment, without one node that is left or reported as too deep. -/
theorem depth_limit_exact (registry : Registry) (allowUnknown : Bool) (text : String)
    {limit limit' : Nat} (hle : limit ≤ limit') (f : Formula) :
    let read (limit : Nat) := parseChars registry.has ⟨allowUnknown, limit⟩ text.toList
    (read limit = .ok f → f.root.nesting ≤ limit ∧ f.root.depth ≤ limit + 1) ∧
    (read limit = .ok f ↔ read limit' = .ok f ∧ f.root.nesting ≤ limit) ∧
    (limit ≤ 511 → read limit = .ok f → ∀ (H : Type) [Host H] (formula : String) (env : Env H),
      let env' := ((evaluate Registry.builtin formula f.root).run env).2
      (∀ v ∈ env'.trace, ¬ v.IsTooDeep) ∧
        ∃ ws, env'.log.toList = env.log.toList ++ ws ∧ ∀ w ∈ ws, ¬ w.IsTooDeep) := by
  refine ⟨fun hread => ?_, parseChars_eq_ok_iff_of_le hle, fun hlimit hread H _ formula env => ?_⟩
  · have hnesting := nesting_le_of_parseChars hread
    exact ⟨hnesting, f.root.depth_le_nesting.trans (Nat.succ_le_succ hnesting)⟩
  · have hnesting := nesting_le_of_parseChars hread
    exact isShallow_evaluate Registry.builtin formula (Nat.lt_succ_of_le (hnesting.trans hlimit)) env

/-- A comparison in which two lists are inside each other is read with a limit of two, and not with a
    limit of one; a game that has just begun evaluates it without coming too deep. -/
theorem depth_limit_exact_time : 2 ≤ defaultMaxDepth ∧ ∃ f,
    parseChars Registry.builtin.has ⟨false, 2⟩ "(> (mission-time) 30)".toList = .ok f ∧
    parseChars Registry.builtin.has .default "(> (mission-time) 30)".toList = .ok f ∧
    f.root.nesting = 2 ∧ f.root.depth ≤ 3 ∧
    parseChars Registry.builtin.has ⟨false, 1⟩ "(> (mission-time) 30)".toList ≠ .ok f ∧
    ∀ v ∈ ((evaluate Registry.builtin "timer" f.root).run
      (.start (Simulation.start ⟨[], []⟩ (.rolls [])) .empty .empty #[])).2.trace, ¬ v.IsTooDeep := by
  have hle : 2 ≤ defaultMaxDepth := by decide
  have hcheck : (parseChars Registry.builtin.has ⟨false, 2⟩ "(> (mission-time) 30)".toList).map
      (·.root.nesting) = .ok 2 := by
    rw [Registry.builtin_eq]
    decide +kernel
  cases hread : parseChars Registry.builtin.has ⟨false, 2⟩ "(> (mission-time) 30)".toList with
  | error e =>
    rw [hread] at hcheck
    cases hcheck
  | ok f =>
    rw [hread] at hcheck
    have hnesting : f.root.nesting = 2 := Except.ok.inj hcheck
    obtain ⟨hdepth, hiff, hshallow⟩ :=
      depth_limit_exact Registry.builtin false "(> (mission-time) 30)" hle f
    obtain ⟨-, hless, -⟩ := depth_limit_exact Registry.builtin false "(> (mission-time) 30)"
      (show 1 ≤ 2 by decide) f
    refine ⟨hle, f, rfl, (hiff.1 hread).1, hnesting, (hdepth hread).2, fun hone => ?_, ?_⟩
    · obtain ⟨-, hlt⟩ := hless.1 hone
      rw [hnesting] at hlt
      exact absurd hlt (by decide)
    · exact (hshallow (by decide) hread Simulation "timer" _).1

end MissionScript

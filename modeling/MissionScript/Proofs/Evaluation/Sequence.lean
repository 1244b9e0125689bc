import MissionScript.Proofs.Evaluation.Journey
import MissionScript.Proofs.Evaluation.Yields

/-!
What one evaluation of a sequence does. It evaluates all arguments, remembers those that are true with
its own time unless they are remembered already, and answers by what they say and by what is
remembered of them then.
-/

namespace MissionScript

theorem Path.child_inj {path : Path} {i j : Nat} : path.child i = path.child j ↔ i = j := by
  simp [child]

/-- A true argument is remembered from now on, unless it was before; the others are left alone. -/
theorem Ledger.latchedAt?_latch_eq (l : Ledger) (formula : String) (path path' : Path) (now : Float) :
    (l.latch formula path now).2.latchedAt? formula path' =
      (l.latchedAt? formula path').or (if path' = path then some now else none) := by
  have hkey : latchKey formula path' = latchKey formula path ↔ path' = path := by
    simp [latchKey]
  unfold latch latchedAt?
  rw [Table.find?_insertNew]
  by_cases hpath : path' = path
  · rw [if_pos (hkey.2 hpath), if_pos hpath, hpath]
    cases l.latches.find? (latchKey formula path) <;> rfl
  · rw [if_neg (mt hkey.1 hpath), if_neg hpath, Option.or_none]

/-- What is said at a path, by the step that leaves it. -/
def Visit.told? (path : Path) : Visit → Option Truth
  | .enter .. => none
  | .leave here outcome => if here = path then some (Evaluation.given outcome).truth else none

theorem Visit.told?_eq_none {path : Path} {v : Visit} (h : v.path ≠ path) : v.told? path = none := by
  cases v with
  | enter here n => rfl
  | leave here outcome => exact if_neg h

namespace Tour

variable {root : Node} {path p : Path} {index : Nat} {visits : List Visit}

theorem findSome?_told?_eq_none (h : ∀ v ∈ visits, v.path ≠ p) :
    visits.findSome? (Visit.told? p) = none :=
  List.findSome?_eq_none_iff.2 fun v hv => Visit.told?_eq_none (h v hv)

/-- What a tour leaves, it does not come back to: what is said there is said once. -/
theorem findSome?_told? (h : Tour root path index visits) {outcome : Except EvalError Value}
    (hleave : .leave p outcome ∈ visits) :
    visits.findSome? (Visit.told? p) = some (Evaluation.given outcome).truth := by
  induction h with
  | stop => cases hleave
  | @visit path index i n inner rest here _ _ hinner hrest ihinner ihrest =>
    rw [List.findSome?_cons_of_isNone (by rfl), List.findSome?_append]
    rw [List.mem_cons, List.mem_append, List.mem_cons] at hleave
    rcases hleave with hleave | hleave | hleave | hleave
    · cases hleave
    · rw [ihinner hleave, Option.some_or]
    · cases hleave
      have hbelow : inner.findSome? (Visit.told? (path.child i)) = none := by
        refine findSome?_told?_eq_none fun v hv heq => ?_
        obtain ⟨j, below, -, hpath⟩ := hinner.path_of_mem v hv
        rw [hpath] at heq
        exact absurd (List.append_right_eq_self.1 heq) (by simp)
      rw [hbelow, Option.none_or, List.findSome?_cons]
      simp [Visit.told?]
    · -- the rest of the tour goes to later children only
      obtain ⟨j, below, hj, hpath⟩ := hrest.path_of_mem _ hleave
      obtain rfl : p = path ++ j :: below := hpath
      have hbelow : inner.findSome? (Visit.told? (path ++ j :: below)) = none := by
        refine findSome?_told?_eq_none fun v hv heq => ?_
        obtain ⟨k, below', -, hpath⟩ := hinner.path_of_mem v hv
        rw [hpath, Path.child, List.append_assoc, List.append_cancel_left_eq, List.singleton_append,
          List.cons.injEq] at heq
        omega
      have hhere : Visit.told? (path ++ j :: below) (.leave (path.child i) here) = none := by
        refine Visit.told?_eq_none fun heq => ?_
        simp only [Visit.path, Path.child, List.append_cancel_left_eq, List.cons.injEq] at heq
        omega
      rw [hbelow, Option.none_or, List.findSome?_cons, hhere]
      exact ihrest hleave

end Tour

namespace Control

theorem ascending_iff {times : List Float} : ascending times = true ↔ times.IsChain (· ≤ ·) := by
  induction times with
  | nil => simp [ascending]
  | cons time rest ih =>
    cases rest with
    | nil => simp [ascending]
    | cons next rest => rw [ascending, Bool.and_eq_true, decide_eq_true_iff, ih, List.isChain_cons_cons]

variable {readings : List (Truth × Option Float)} {times : List Float}

/-- Either all arguments are remembered, or one of them is not. -/
theorem remembered_cases (readings : List (Truth × Option Float)) :
    (∃ times : List Float, readings.map (·.2) = times.map some ∧ readings.mapM (·.2) = some times) ∨
      (none ∈ readings.map (·.2) ∧ readings.mapM (·.2) = none) := by
  induction readings with
  | nil => exact Or.inl ⟨[], rfl, rfl⟩
  | cons r rest ih =>
    obtain ⟨truth, time⟩ := r
    rw [List.map_cons, List.mapM_cons]
    cases time with
    | none => exact Or.inr ⟨List.mem_cons_self .., rfl⟩
    | some time =>
      rcases ih with ⟨times, hmap, hall⟩ | ⟨hmissing, hnone⟩
      · rw [hmap, hall]
        exact Or.inl ⟨time :: times, rfl, rfl⟩
      · rw [hnone]
        exact Or.inr ⟨List.mem_cons_of_mem _ hmissing, rfl⟩

theorem mapM_eq_some (h : readings.map (·.2) = times.map some) :
    readings.mapM (·.2) = some times := by
  rcases remembered_cases readings with ⟨times', hmap, hall⟩ | ⟨hmissing, -⟩
  · rw [hall, (List.map_inj_right fun _ _ => Option.some.inj).1 (hmap.symm.trans h)]
  · rw [h] at hmissing
    simp at hmissing

theorem mapM_eq_none (h : none ∈ readings.map (·.2)) : readings.mapM (·.2) = none := by
  rcases remembered_cases readings with ⟨times, hmap, -⟩ | ⟨-, hnone⟩
  · rw [hmap] at h
    simp at h
  · exact hnone

/-- Where all arguments are remembered, a sequence is true if they were true in order, and otherwise it
    is settled false. -/
theorem isTrue_sequenceTruth_of_remembered (h : readings.map (·.2) = times.map some) :
    (times.IsChain (· ≤ ·) → (sequenceTruth readings).isTrue = true) ∧
      (¬ times.IsChain (· ≤ ·) → sequenceTruth readings = .knownFalse) := by
  unfold sequenceTruth
  rw [mapM_eq_some h]
  dsimp only
  constructor
  · intro hchain
    rw [if_pos (ascending_iff.2 hchain)]
    split <;> rfl
  · intro hchain
    exact if_neg (mt ascending_iff.1 hchain)

/-- Where one argument is not, a sequence is false, and settled if any argument says so. -/
theorem sequenceTruth_of_missing (h : none ∈ readings.map (·.2)) : sequenceTruth readings =
    if readings.any (·.1 == .knownFalse) then .knownFalse else .falseNow := by
  rw [sequenceTruth, mapM_eq_none h]

variable {H : Type} {registry : Registry} {formula : String} {root n : Node} {path : Path} {index : Nat}
  {args : List (Arg H)}

/-- Evaluating an argument of a sequence, it is remembered if it is true now, and no other argument
    is. -/
theorem latchedAt?_latchArg (now : Float) {arg : Arg H} (hpath : arg.path = path.child index)
    (hvisits : ∀ env, Visits registry formula root (path.child index) arg.node env (arg.eval.run env))
    (env : Env H) (i : Nat) :
    let result := (latchArg formula now arg).run env
    result.2.ledger.latchedAt? formula (path.child i) =
      (env.ledger.latchedAt? formula (path.child i)).or
        (if i = index ∧ result.1.1.isTrue = true then some now else none) := by
  obtain ⟨inner, env₁, outcome, hinner, -, hresult⟩ := hvisits env
  have hleft : (env₁.close formula (path.child index) arg.node.offset outcome).ledger.latchedAt? formula
      (path.child i) = env.ledger.latchedAt? formula (path.child i) := by
    rw [Ledger.latchedAt?, Env.latches_close]
    refine hinner.account.latchedAt?_eq fun v hv heq => ?_
    obtain ⟨j, below, -, hbelow⟩ := hinner.tour.path_of_mem v hv
    have hlength := congrArg List.length (hbelow.symm.trans heq)
    simp [Path.child] at hlength
  rw [run_latchArg, hresult, hpath]
  dsimp only
  rw [← Value.isTrue]
  by_cases htrue : (Evaluation.given outcome).isTrue = true
  · rw [if_pos htrue]
    dsimp only
    rw [Ledger.latchedAt?_latch_eq, hleft]
    simp only [Path.child_inj, htrue, and_true]
  · rw [if_neg htrue, hleft, if_neg (fun h => htrue h.2), Option.or_none]

/-- Of its arguments a sequence remembers those that are true now, with the time that it was given,
    unless they are remembered already. -/
theorem latchedAt?_latchAll (now : Float) (hargs : Placed registry formula root path index args)
    (hn : root.at? path = some n) (hsequence : n.isSequence registry = true) (env : Env H) :
    ∀ reading i, (reading, i) ∈ ((latchAll formula now args).run env).1.zipIdx index →
      ((latchAll formula now args).run env).2.ledger.latchedAt? formula (path.child i) =
        (env.ledger.latchedAt? formula (path.child i)).or
          (if reading.1.isTrue then some now else none) := by
  induction hargs generalizing env with
  | nil index => exact nofun
  | @cons index arg rest hpath hnode hvisits hrest ih =>
    have hrun : (latchAll formula now (arg :: rest)).run env =
        let first := (latchArg formula now arg).run env
        let later := (latchAll formula now rest).run first.2
        (first.1 :: later.1, later.2) := rfl
    have hfirst := latchedAt?_latchArg now hpath hvisits env
    generalize (latchArg formula now arg).run env = result at hrun hfirst
    obtain ⟨reading, env₂⟩ := result
    dsimp only at hrun hfirst
    rw [hrun]
    intro other i hmem
    rw [List.zipIdx_cons, List.mem_cons] at hmem
    rcases hmem with heq | hmem
    · cases heq
      obtain ⟨visits, values, hlater, -⟩ := travels_latchAll now hrest hn hsequence env₂
      have hkept : ((latchAll formula now rest).run env₂).2.ledger.latchedAt? formula
          (path.child index) = env₂.ledger.latchedAt? formula (path.child index) := by
        refine hlater.account.latchedAt?_eq fun v hv heq => ?_
        obtain ⟨j, below, hj, hbelow⟩ := hlater.tour.path_of_mem v hv
        rw [hbelow, Path.child, List.append_cancel_left_eq, List.cons.injEq] at heq
        omega
      refine hkept.trans ((hfirst index).trans ?_)
      simp
    · have hlater : index < i := (List.mem_zipIdx hmem).1
      refine (ih env₂ other i hmem).trans ?_
      rw [hfirst i, if_neg (fun h => by omega), Option.or_none]

end Control

/-- A node of a formula that is a sequence of some arguments. -/
structure Sequence (registry : Registry) where
  /-- the name that the formula is evaluated under -/
  formula : String
  root : Node
  path : Path
  name : String
  headOffset : Nat
  offset : Nat
  args : List Node
  applies : registry.get? name = some (Builtin.control .andInSequence).operator
  placed : root.at? path = some (.list (.atom (.operator name) headOffset :: args) offset)
  nonempty : args ≠ []

namespace Sequence

variable {registry : Registry} {H : Type} [Host H]

/-- The node itself. -/
def node (s : Sequence registry) : Node :=
  .list (.atom (.operator s.name) s.headOffset :: s.args) s.offset

/-- The children that the arguments are. -/
def places (s : Sequence registry) : List Nat :=
  List.range' 1 s.args.length

/-- An evaluation of the node. -/
def run (s : Sequence registry) (env : Env H) : Value × Env H :=
  (Evaluation.evalNode registry s.formula s.path s.node).run env

/-- What the node says. -/
def truth (s : Sequence registry) (env : Env H) : Truth :=
  (s.run env).1.truth

/-- What the evaluation leaves behind. -/
def after (s : Sequence registry) (env : Env H) : Env H :=
  (s.run env).2

/-- The steps of the evaluation. -/
def steps (s : Sequence registry) (env : Env H) : List Visit :=
  (s.after env).trace.toList.drop env.trace.toList.length

/-- What an argument says, if it is evaluated. -/
def said? (s : Sequence registry) (i : Nat) (env : Env H) : Option Truth :=
  (s.steps env).findSome? (Visit.told? (s.path.child i))

/-- What an argument says; nothing is known of one that is not evaluated. -/
def reading (s : Sequence registry) (i : Nat) (env : Env H) : Truth :=
  (s.said? i env).getD .unknown

/-- Whether an argument is true. -/
def confirms (s : Sequence registry) (i : Nat) (env : Env H) : Bool :=
  (s.reading i env).isTrue

/-- When an argument was first true, as far as is remembered. -/
def remembered? (s : Sequence registry) (i : Nat) (env : Env H) : Option Float :=
  env.ledger.latchedAt? s.formula (s.path.child i)

variable (s : Sequence registry) (env : Env H)

theorem isSequence_node : s.node.isSequence registry = true := by
  have hoperator : s.node.operator? = some s.name := rfl
  rw [Node.isSequence, hoperator, Option.bind_some, s.applies]
  rfl

/-- A node that lies too deep is not evaluated: it says nothing and remembers nothing. -/
theorem run_deep (h : maxEvalDepth ≤ s.path.length) :
    s.truth env = .unknown ∧ (∀ i, s.said? i env = none) ∧
      (s.after env).ledger.latches = env.ledger.latches := by
  have hrun : s.run env = (.unknown, (env.record (.enter s.path s.node)).close s.formula s.path s.offset
      (.error (.depthExceeded maxEvalDepth))) := by
    unfold run node
    rw [Evaluation.evalNode, Evaluation.run_visit, if_pos h]
    rfl
  refine ⟨?_, ?_, ?_⟩
  · rw [truth, hrun]
    rfl
  · have hsteps : s.steps env =
        [.enter s.path s.node, .leave s.path (.error (.depthExceeded maxEvalDepth))] := by
      rw [steps, after, hrun]
      simp [Env.close, Env.record, Env.report, Env.warn]
    intro i
    rw [said?, hsteps]
    have hpath : s.path ≠ s.path.child i := fun heq => by simpa using congrArg List.length heq
    refine Tour.findSome?_told?_eq_none fun v hv => ?_
    rw [List.mem_pair] at hv
    rcases hv with rfl | rfl
    · exact hpath
    · exact hpath
  · rw [after, hrun]
    exact Env.latches_close ..

/-- Any other node evaluates all arguments, and answers by what they have said. -/
theorem run_eq (h : s.path.length < maxEvalDepth) :
    let args := Evaluation.childArgs registry s.formula s.path 1 s.args
    let result := (Control.latchAll s.formula (Host.time env.host) args).run
      (env.record (.enter s.path s.node))
    let answer := (Control.sequenceTruth result.1).toValue
    s.run env = (answer, result.2.close s.formula s.path s.offset (.ok answer)) := by
  have hcount : (Builtin.control .andInSequence).operator.signature.acceptsCount
      (Evaluation.childArgs (H := H) registry s.formula s.path 1 s.args).length = true := by
    have hpos : 1 ≤ s.args.length := List.length_pos_iff.2 s.nonempty
    rw [Evaluation.length_childArgs]
    exact Signature.acceptsCount_of_le rfl hpos
  have happly := Evaluation.apply_control s.applies s.formula s.path hcount
  unfold run node
  rw [Evaluation.evalNode, Evaluation.childArgs, List.tail_cons, Node.headName?, happly,
    Evaluation.run_visit, if_neg (by omega)]
  rfl

/-- What the arguments have said when the node is evaluated, and what is remembered of them then. -/
theorem exists_values (h : s.path.length < maxEvalDepth) : ∃ values : List Value,
    values.length = s.args.length ∧
    (∀ v i, (v, i) ∈ values.zipIdx 1 → s.said? i env = some v.truth ∧
      s.remembered? i (s.after env) =
        (s.remembered? i env).or (if v.isTrue then some (Host.time env.host) else none)) ∧
    s.truth env = Control.sequenceTruth ((values.zipIdx 1).map fun (v, i) =>
      (v.truth, s.remembered? i (s.after env))) := by
  have hargs : Placed (H := H) registry s.formula s.root s.path 1
      (Evaluation.childArgs registry s.formula s.path 1 s.args) := by
    refine Evaluation.placed_childArgs registry s.formula s.root s.path 1 s.args fun i n hi => ?_
    rw [Node.at?_child, s.placed, Option.bind_some, Nat.add_comm]
    exact hi
  have hrun := s.run_eq env h
  obtain ⟨visits, values, htravels, hlength, hreturns, hreadings⟩ := Control.travels_latchAll
    (Host.time env.host) hargs s.placed s.isSequence_node (env.record (.enter s.path s.node))
  have hlatched := Control.latchedAt?_latchAll (Host.time env.host) hargs s.placed s.isSequence_node
    (env.record (.enter s.path s.node))
  dsimp only at hrun
  generalize (Control.latchAll s.formula (Host.time env.host) _).run _ = result
    at hrun htravels hreadings hlatched
  obtain ⟨readings, env'⟩ := result
  dsimp only at hrun htravels hreadings hlatched
  have htruth : s.truth env = Control.sequenceTruth readings := by
    rw [truth, hrun, Value.truth_toValue]
  have hsteps : s.steps env = .enter s.path s.node :: (visits ++
      [.leave s.path (.ok (Control.sequenceTruth readings).toValue)]) := by
    have htrace := htravels.account.trace
    rw [steps, after, hrun]
    simp [Env.close, Env.record, htrace]
  have hremembered (i : Nat) : s.remembered? i (s.after env) =
      env'.ledger.latchedAt? s.formula (s.path.child i) := by
    rw [remembered?, after, hrun]
    rfl
  rw [Evaluation.length_childArgs] at hlength
  refine ⟨values, hlength, fun v i hv => ⟨?_, ?_⟩, ?_⟩
  · obtain ⟨outcome, hleave, rfl⟩ := hreturns v i hv
    rw [said?, hsteps, List.findSome?_cons_of_isNone (by rfl), List.findSome?_append,
      htravels.tour.findSome?_told? hleave, Option.some_or]
  · rw [hremembered]
    have hmem : ((v.truth, env'.ledger.latchedAt? s.formula (s.path.child i)), i) ∈
        readings.zipIdx 1 := by
      rw [List.mem_zipIdx_iff_le_and_getElem?_sub] at hv ⊢
      obtain ⟨hi, hv⟩ := hv
      refine ⟨hi, ?_⟩
      rw [hreadings, List.getElem?_map, List.getElem?_zipIdx, hv]
      simp [Nat.add_sub_cancel' hi]
    exact hlatched _ i hmem
  · rw [htruth, hreadings]
    simp only [hremembered]

variable {s env} {i : Nat}

/-- All arguments are evaluated whenever the node is. -/
theorem isSome_said? (h : s.path.length < maxEvalDepth) (hi : i ∈ s.places) :
    (s.said? i env).isSome = true := by
  obtain ⟨values, hlength, hvalues, -⟩ := s.exists_values env h
  rw [places, ← hlength, ← List.zipIdx_map_snd] at hi
  obtain ⟨⟨v, i⟩, hmem, rfl⟩ := List.mem_map.1 hi
  exact Option.isSome_of_eq_some (hvalues v i hmem).1

/-- An argument that is true is remembered with the time of the evaluation, unless it is remembered
    already. -/
theorem remembered?_after (hi : i ∈ s.places) : s.remembered? i (s.after env) =
    (s.remembered? i env).or (if s.confirms i env then some (Host.time env.host) else none) := by
  by_cases h : s.path.length < maxEvalDepth
  · obtain ⟨values, hlength, hvalues, -⟩ := s.exists_values env h
    rw [places, ← hlength, ← List.zipIdx_map_snd] at hi
    obtain ⟨⟨v, i⟩, hmem, rfl⟩ := List.mem_map.1 hi
    obtain ⟨hsaid, hremembered⟩ := hvalues v i hmem
    rw [hremembered, confirms, reading, hsaid]
    rfl
  · obtain ⟨-, hsilent, hlatches⟩ := s.run_deep env (by omega)
    have hquiet : s.confirms i env = false := by
      rw [confirms, reading, hsilent]
      rfl
    rw [hquiet, remembered?, Ledger.latchedAt?, hlatches]
    exact (Option.or_none ..).symm

/-- The node answers by what its arguments say, and by when each was first true. -/
theorem truth_eq (h : s.path.length < maxEvalDepth) : s.truth env =
    Control.sequenceTruth (s.places.map fun i => (s.reading i env, s.remembered? i (s.after env))) := by
  obtain ⟨values, hlength, hvalues, htruth⟩ := s.exists_values env h
  rw [htruth, places, ← hlength, ← List.zipIdx_map_snd, List.map_map]
  refine congrArg Control.sequenceTruth (List.map_congr_left fun (v, i) hmem => ?_)
  rw [Function.comp_apply, reading, (hvalues v i hmem).1]
  rfl

end Sequence

end MissionScript

import MissionScript.Proofs.Evaluation.Errors
import MissionScript.Proofs.Mission.Occasions
import MissionScript.Proofs.Operator.Builtin

/-!
What is told of the errors in a mission. Every failure of a node is counted and raises a warning that
says where it was; an unknown variable is told of once, and every other failure each time.
-/

namespace MissionScript

/-- Whether a warning is raised by a step that leaves a node with an error. The error is the node's own,
    and the warning names the formula, the path, and where the node begins. -/
def Visit.RaisesAt (registry : Registry) (formula : String) (root : Node) (v : Visit) (w : Warning) :
    Prop :=
  ∃ path e n, v = .leave path (.error e) ∧ root.at? path = some n ∧ n.Raises registry path e ∧
    w = e.warning formula path n.offset

/-- Each failure raises one warning, in the order of the failures. -/
theorem Visit.forall₂_raisesAt {registry : Registry} (formula : String) {root : Node} {visits : List Visit}
    (h : ∀ v ∈ visits, v.Owns registry root) :
    List.Forall₂ (RaisesAt registry formula root) (visits.filter isFailure)
      (visits.filterMap (report? formula root)) := by
  induction visits with
  | nil => exact .nil
  | cons v rest ih =>
    obtain ⟨hv, hrest⟩ := List.forall_mem_cons.1 h
    cases v with
    | enter path n => exact ih hrest
    | leave path outcome =>
      cases outcome with
      | ok answer => exact ih hrest
      | error e =>
        obtain ⟨n, hn, hraises⟩ := hv
        have hreport : report? formula root (.leave path (.error e)) =
            some (e.warning formula path n.offset) := by
          rw [report?, hn, Option.map_some]
        rw [List.filter_cons_of_pos rfl, List.filterMap_cons_some hreport]
        exact .cons ⟨path, e, n, rfl, hn, hraises, rfl⟩ (ih hrest)

variable {H : Type}

namespace Occasion

/-- The part of an environment that says which variables are known to be unknown, and how many errors there
    have been. -/
def diagnosed (env : Env H) : List String × Nat :=
  (env.ledger.warned, env.ledger.errors)

theorem diagnosed_start (host : H) (vars : Variables) (ledger : Ledger) (log : Array Warning) :
    diagnosed (.start host vars ledger log) = (ledger.warned, ledger.errors) :=
  rfl

variable [Host H] {registry : Registry}

/-- The warnings that are raised on an occasion. -/
def raised (registry : Registry) (o : Occasion H) : List Warning :=
  (o.trace registry).filterMap (Visit.report? o.name o.root)

/-- What is told on an occasion of nodes that have failed. -/
def told (registry : Registry) (o : Occasion H) : List Warning :=
  ((o.after registry).log.toList.drop o.env.log.size).filter Warning.isReport

/-- What is counted and told on some occasions, from what is known before to what is known after them. -/
structure Diagnoses (registry : Registry) (first : List String × Nat) (os : List (Occasion H))
    (last : List String × Nat) : Prop where
  /-- every failure is an error more -/
  counted : last.2 = first.2 + (os.flatMap (trace registry)).countP Visit.isFailure
  /-- of what is raised all is told, in this order, but what is about a variable that has been told of -/
  told : os.flatMap (told registry) = Warning.told first.1 (os.flatMap (raised registry))
  /-- and these variables are known from then on -/
  known : ∀ key, key ∈ last.1 ↔
    key ∈ first.1 ∨ key ∈ (os.flatMap (raised registry)).filterMap Warning.unknown?

theorem diagnoses_singleton (registry : Registry) (o : Occasion H) :
    Diagnoses registry (diagnosed o.env) [o] (diagnosed (o.after registry)) := by
  have haccount := (account_evaluate registry o.name o.root o.env).1
  obtain ⟨ws, hlog, hws⟩ := haccount.reports
  have htold : o.told registry = ws.filter Warning.isReport := by
    have hlog : (o.after registry).log.toList = o.env.log.toList ++ ws := hlog
    rw [told, hlog, ← Array.length_toList, List.drop_left]
  refine ⟨?_, ?_, ?_⟩
  · rw [List.flatMap_singleton]
    exact haccount.errors
  · rw [List.flatMap_singleton, List.flatMap_singleton, htold]
    exact hws
  · rw [List.flatMap_singleton]
    exact haccount.warned

theorem Diagnoses.append {first between last : List String × Nat} {os os' : List (Occasion H)}
    (h : Diagnoses registry first os between) (h' : Diagnoses registry between os' last) :
    Diagnoses registry first (os ++ os') last := by
  refine ⟨?_, ?_, fun key => ?_⟩
  · rw [h'.counted, h.counted, List.flatMap_append, List.countP_append, Nat.add_assoc]
  · rw [List.flatMap_append, List.flatMap_append, Warning.told_append, h.told, h'.told]
    refine congrArg (_ ++ ·) (Warning.told_congr (fun key => ?_) _)
    rw [h.known, List.mem_append, or_comm]
  · rw [h'.known, h.known, List.flatMap_append, List.filterMap_append, List.mem_append, or_assoc]

theorem HandOn.diagnoses {first last : List String × Nat} {os : List (Occasion H)}
    (h : HandOn diagnosed registry first os last) : Diagnoses registry first os last := by
  induction os generalizing first with
  | nil =>
    obtain rfl := h
    exact ⟨rfl, rfl, fun key => (or_iff_left nofun).symm⟩
  | cons o rest ih =>
    obtain ⟨rfl, hrest⟩ := h
    exact (diagnoses_singleton registry o).append (ih hrest)

/-- The failures of an occasion: each node fails once at most, and raises one warning. -/
structure OwnsFailures (registry : Registry) (o : Occasion H) : Prop where
  distinct : ((o.trace registry).filterMap Visit.left?).Nodup
  raised : List.Forall₂ (Visit.RaisesAt registry o.name o.root) ((o.trace registry).filter Visit.isFailure)
    (o.raised registry)
  /-- what has been told before stays -/
  kept : o.env.log.toList <+: (o.after registry).log.toList

theorem ownsFailures (registry : Registry) (o : Occasion H) : o.OwnsFailures registry := by
  refine ⟨nodup_left_evaluate registry o.name o.root o.env, ?_, ?_⟩
  · refine Visit.forall₂_raisesAt o.name fun v hv => ?_
    exact owns_evaluate registry o.name o.root o.env v (Array.mem_toList_iff.1 hv)
  · obtain ⟨ws, hlog, -⟩ := (account_evaluate registry o.name o.root o.env).1.reports
    exact ⟨ws, hlog.symm⟩

/-- Evaluations that follow each other, of whatever formulas and wherever, with nothing handed on but the
    number of errors and the variables that are known to be unknown. The number grows by the failures of
    nodes, each of which raises an error of its own, at most one in an evaluation. Each failure raises a
    warning with its formula and path, and these are told in their order; only of a variable, in whatever
    spelling, the first warning alone is told, unless it was known before. -/
theorem failures_told {first last : List String × Nat} {os : List (Occasion H)}
    (h : HandOn diagnosed registry first os last) :
    last.2 = first.2 + (os.flatMap (trace registry)).countP Visit.isFailure ∧
    (∀ o ∈ os, o.OwnsFailures registry) ∧
    os.flatMap (told registry) = Warning.told first.1 (os.flatMap (raised registry)) ∧
    (∀ key, (os.flatMap (told registry)).filter (·.unknown? = some key) =
      if key ∈ first.1 then []
      else ((os.flatMap (raised registry)).filter (·.unknown? = some key)).take 1) ∧
    (os.flatMap (told registry)).filter Warning.isFault =
      (os.flatMap (raised registry)).filter Warning.isFault := by
  obtain ⟨hcounted, htold, -⟩ := h.diagnoses
  refine ⟨hcounted, fun o _ => o.ownsFailures registry, htold, fun key => ?_, ?_⟩
  · rw [htold, Warning.filter_unknown_told]
  · rw [htold, Warning.filter_isFault_told]

namespace Ghosts

/-- A reference to a variable. None is ever declared. -/
def ref (name : String) (offset : Nat) : Node :=
  .atom (.variable name) offset

def apply (name : String) (args : List Node) (offset : Nat) : Node :=
  .list (.atom (.operator name) (offset + 1) :: args) offset

/-- An event asks twice about one variable, in different ways. -/
def first : Occasion Simulation :=
  let equals := apply "=" [ref "Ghost" 7, .atom (.number 1) 14] 4
  let isSet := apply "variable-is-set" [ref "GHOST" 34] 17
  ⟨.event 0, "alarm", apply "or" [equals, isSet] 0, .start (.start .empty (.rolls [])) .empty .empty #[]⟩

/-- Later a goal adds the same one to the length of what has no length, and to one that it sets. -/
def second : Occasion Simulation :=
  let length := apply "string-length" [.atom (.number 7) 18] 3
  let set := apply "modify-variable" [ref "Phantom" 45, .atom (.number 1) 54] 28
  let ledger := (first.after Registry.builtin).ledger
  ⟨.goal 0, "escort", apply "+" [length, ref "ghost" 21, set] 0,
    .start ((Simulation.start .empty (.rolls [])).setTime 2) .empty ledger #[]⟩

/-- Of five failures three are told. -/
theorem failures_told_five :
    let last := diagnosed (second.after Registry.builtin)
    let os := [first, second]
    let raised := os.flatMap (raised Registry.builtin)
    let told := os.flatMap (told Registry.builtin)
    HandOn diagnosed Registry.builtin ([], 0) os last ∧ last.2 = 5 ∧
      told = [.unknownVariable "alarm" [1, 1] "Ghost",
        .argumentMismatch "escort" [1] 3 (.argumentMismatch "string-length" 0 "string" "number"),
        .unknownVariable "escort" [3] "Phantom"] ∧
      (∀ o ∈ os, o.OwnsFailures Registry.builtin) ∧
      told.filter (·.unknown? = some "ghost") = (raised.filter (·.unknown? = some "ghost")).take 1 := by
  have hhand : HandOn diagnosed Registry.builtin ([], 0) [first, second]
      (diagnosed (second.after Registry.builtin)) := ⟨rfl, diagnosed_start .., rfl⟩
  obtain ⟨hcounted, howns, -, hkey, -⟩ := failures_told hhand
  obtain ⟨hcount, htold⟩ :
      ([first, second].flatMap (trace Registry.builtin)).countP Visit.isFailure = 5 ∧
      [first, second].flatMap (told Registry.builtin) =
        [.unknownVariable "alarm" [1, 1] "Ghost",
          .argumentMismatch "escort" [1] 3 (.argumentMismatch "string-length" 0 "string" "number"),
          .unknownVariable "escort" [3] "Phantom"] := by
    rw [Registry.builtin_eq]
    decide +kernel
  rw [hcount, Nat.zero_add] at hcounted
  exact ⟨hhand, hcounted, htold, howns, (hkey "ghost").trans (if_neg List.not_mem_nil)⟩

end Ghosts

end Occasion

end MissionScript

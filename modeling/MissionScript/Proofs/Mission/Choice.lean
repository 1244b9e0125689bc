import MissionScript.Proofs.Mission.Occasions
import MissionScript.Proofs.Mission.Settled

/-!
Choices between two conditions. A choice says what the branch says that its condition takes, settled if
the branch is. It upholds that as long as the condition takes the same branch; whether the branch will
be taken again, it does not ask.
-/

namespace MissionScript

/-- What an environment says of a node at a path. -/
def Env.readingAt (registry : Registry) (formula : String) (path : Path) (n : Node)
    (env : Env Simulation) : Truth :=
  ((Evaluation.evalNode registry formula path n).run env).1.truth

theorem Env.readingAt_of_yields {registry : Registry} {formula : String} {path : Path} {n : Node}
    {env : Env Simulation} {t : Truth}
    (h : Yields env.host env.ledger (Evaluation.evalNode registry formula path n) t.toValue) :
    env.readingAt registry formula path n = t :=
  (congrArg Value.truth (h env ⟨rfl, rfl⟩).1).trans (Value.truth_toValue t)

/-- What is settled does not change sides. -/
theorem Truth.Upholds.isTrue_eq {earlier later : Truth} (h : earlier.Upholds later)
    (hsettled : earlier.isSettled = true) : later.isTrue = earlier.isTrue := by
  cases earlier with
  | knownTrue => rcases h.1 rfl with rfl | rfl <;> rfl
  | knownFalse => rcases h.2 rfl with rfl | rfl <;> rfl
  | trueNow | falseNow | unknown => cases hsettled

/-- A formula that chooses between two others by a third. -/
structure Choice (registry : Registry) where
  name : String
  headOffset : Nat
  offset : Nat
  condition : Node
  yes : Node
  no : Node
  applies : registry.get? name = some (Builtin.control .ifThenElse).operator

namespace Choice

variable {registry : Registry}

def root (c : Choice registry) : Node :=
  .list [.atom (.operator c.name) c.headOffset, c.condition, c.yes, c.no] c.offset

/-- What the condition says. -/
def asked (c : Choice registry) (formula : String) (env : Env Simulation) : Truth :=
  env.readingAt registry formula (Path.child [] 1) c.condition

/-- What a branch says. -/
def branch (c : Choice registry) (formula : String) (yes : Bool) (env : Env Simulation) : Truth :=
  if yes then env.readingAt registry formula (Path.child [] 2) c.yes
  else env.readingAt registry formula (Path.child [] 3) c.no

/-- Whether all parts of a choice are conditions, and none of them reaches too deep. -/
structure IsSound (c : Choice registry) (game : Simulation) (mission : Mission) : Prop where
  condition : c.condition.IsCondition registry game mission
  yes : c.yes.IsCondition registry game mission
  no : c.no.IsCondition registry game mission
  reach : c.root.reach < maxEvalDepth

end Choice

/-- A choice says what the branch says that its condition takes. -/
theorem Control.yields_ifThenElse {H : Type} [Host H] {g : H} {l : Ledger} (formula : String)
    {condition yes no : Arg H} {t tYes tNo : Truth} (ht : t ≠ .unknown)
    (hcondition : Yields g l condition.eval t.toValue) (hyes : Yields g l yes.eval tYes.toValue)
    (hno : Yields g l no.eval tNo.toValue) :
    Yields g l (run .ifThenElse formula [condition, yes, no])
      (.ok (if t.isTrue then tYes else tNo).toValue) := by
  refine hcondition.bind ?_
  dsimp only
  rw [Value.truth_toValue, if_neg ht]
  split
  · exact hyes.bind (yields_pure _)
  · exact hno.bind (yields_pure _)

namespace Node.IsCondition

variable {registry : Registry} {game : Simulation} {mission : Mission} {n : Node}
  {env env' : Env Simulation}

/-- A condition says something at its place in a formula, and upholds what it has settled. -/
theorem keepsAt (h : n.IsCondition registry game mission) {path : Path}
    (hpath : path.length + n.reach < maxEvalDepth) (formula : String)
    (hknown : mission.IsKnown game env.host env.ledger) (hleads : env.Leads env') :
    Yields env.host env.ledger (Evaluation.evalNode registry formula path n)
        (env.readingAt registry formula path n).toValue ∧
      (env.readingAt registry formula path n).Keeps (env'.readingAt registry formula path n) := by
  obtain ⟨t, t', ht, ht', hkeeps⟩ := h.keeps hknown hleads.1 hleads.2 formula hpath
  rw [Env.readingAt_of_yields ht, Env.readingAt_of_yields ht']
  exact ⟨ht, hkeeps⟩

end Node.IsCondition

namespace Choice

variable {registry : Registry} {game : Simulation} {mission : Mission} {c : Choice registry}
  {env env' : Env Simulation}

theorem IsSound.reaches (h : c.IsSound game mission) (i : Nat) {n : Node}
    (hn : n ∈ [c.condition, c.yes, c.no]) : (Path.child [] i).length + n.reach < maxEvalDepth := by
  have hreach := h.reach
  have hlt := Node.reach_lt_reachAll hn
  rw [root, Node.reach] at hreach
  rw [Path.length_child, List.length_nil]
  omega

theorem IsSound.reading_eq (h : c.IsSound game mission) (formula : String)
    (hknown : mission.IsKnown game env.host env.ledger) :
    env.reading registry formula c.root = c.branch formula (c.asked formula env).isTrue env := by
  obtain ⟨hcondition, hkeeps⟩ := h.condition.keepsAt (h.reaches 1 (by simp)) formula hknown (.refl env)
  obtain ⟨hyes, -⟩ := h.yes.keepsAt (h.reaches 2 (by simp)) formula hknown (.refl env)
  obtain ⟨hno, -⟩ := h.no.keepsAt (h.reaches 3 (by simp)) formula hknown (.refl env)
  have hyields : Yields env.host env.ledger (Evaluation.evalNode registry formula [] c.root)
      (c.branch formula (c.asked formula env).isTrue env).toValue := by
    refine Evaluation.yields_application (by decide)
      (Evaluation.yields_control c.applies formula [] rfl ?_)
    simp only [Evaluation.childArgs]
    exact Control.yields_ifThenElse formula hkeeps.1 hcondition hyes hno
  have hvalue := (hyields { env with trace := #[] } ⟨rfl, rfl⟩).1
  exact (congrArg Value.truth hvalue).trans (Value.truth_toValue _)

/-- From one environment to a later one: a settled condition takes the same branch, and as long as that
    branch is taken the choice upholds what it has settled. -/
theorem IsSound.upholds (h : c.IsSound game mission) (formula : String)
    (hknown : mission.IsKnown game env.host env.ledger) (hleads : env.Leads env') :
    ((c.asked formula env).isSettled = true →
      (c.asked formula env').isTrue = (c.asked formula env).isTrue) ∧
    ((c.asked formula env').isTrue = (c.asked formula env).isTrue →
      (env.reading registry formula c.root).Upholds (env'.reading registry formula c.root)) := by
  have hknown' := hknown.mono hleads.1 hleads.2
  obtain ⟨-, hcondition⟩ := h.condition.keepsAt (h.reaches 1 (by simp)) formula hknown hleads
  obtain ⟨-, hyes⟩ := h.yes.keepsAt (h.reaches 2 (by simp)) formula hknown hleads
  obtain ⟨-, hno⟩ := h.no.keepsAt (h.reaches 3 (by simp)) formula hknown hleads
  constructor
  · exact fun hsettled => hcondition.2.2.isTrue_eq hsettled
  · intro hsame
    rw [h.reading_eq formula hknown, h.reading_eq formula hknown', hsame]
    cases (c.asked formula env).isTrue with
    | true => exact hyes.2.2
    | false => exact hno.2.2

end Choice

/-- When a choice keeps to what it has settled. In the history of a loaded mission, the readings of a
    choice between conditions respect what they have settled exactly if those of its branches do at any
    two moments between which its condition has turned; and a settled condition does not turn. -/
theorem Run.choice_respected_iff {definition : Definition} {loader registry : Registry}
    {settings settings' : Settings} {saved : Snapshot} {mission : Mission}
    (hload : Mission.load definition loader settings saved = .ok mission) {game g : Simulation}
    {r : Run} {ms : List (Env Simulation)}
    (hrun : History (Run.start mission registry settings') game r g ms) {c : Choice registry}
    (hsound : c.IsSound game mission) (formula : String) :
    ((ms.map (Env.reading registry formula c.root)).Pairwise Truth.Respects ↔
      ms.Pairwise fun m m' => (c.asked formula m').isTrue ≠ (c.asked formula m).isTrue →
        (c.branch formula (c.asked formula m).isTrue m).Respects
          (c.branch formula (c.asked formula m').isTrue m')) ∧
    ms.Pairwise fun m m' => (c.asked formula m).isSettled = true →
      (c.asked formula m').isTrue = (c.asked formula m).isTrue := by
  obtain ⟨hevents, hgoals⟩ := Mission.booked_of_load hload
  have hrises := (hrun.rises ⟨hevents, hgoals⟩).1
  have hknown (m : Env Simulation) (hm : m ∈ ms) : mission.IsKnown game m.host m.ledger :=
    (Mission.isKnown_of_booked hevents hgoals game).mono (hrises.before m hm).1 (hrises.before m hm).2
  have hreading (m : Env Simulation) (hm : m ∈ ms) := hsound.reading_eq formula (hknown m hm)
  have hupholds : ms.Pairwise fun m m' => _ := hrises.ordered.imp_of_mem fun hm _ hleads =>
    hsound.upholds formula (hknown _ hm) hleads
  refine ⟨?_, hupholds.imp And.left⟩
  rw [List.pairwise_map]
  constructor
  · refine fun hrespects => hrespects.imp_of_mem fun {m m'} hm hm' hrespects _ => ?_
    rwa [← hreading m hm, ← hreading m' hm']
  · refine fun hturned => (hturned.and hupholds).imp_of_mem fun {m m'} hm hm' h => ?_
    by_cases hsame : (c.asked formula m').isTrue = (c.asked formula m).isTrue
    · exact (h.2.2 hsame).respects
    · rw [hreading m hm, hreading m' hm']
      exact h.1 hsame

/-- Asking for a time. -/
theorem Node.isCondition_hasTimeElapsed {x : Float} (hx : x.isNaN = false) (game : Simulation)
    (mission : Mission) : (application (.query .hasTimeElapsed) [.atom (.number x) 0]).IsCondition
      Registry.builtin game mission :=
  .query (applies_application _ _) (.cons rfl .nil) (.time hx)

/-- Asking for nothing. -/
theorem Node.isCondition_constant {q : Query} (hq : q = .always ∨ q = .never) (game : Simulation)
    (mission : Mission) : (application (.query q) []).IsCondition Registry.builtin game mission :=
  .query (applies_application _ _) .nil (.constant hq)

namespace Strike

/-- Whether the goal is reached, once the raider is destroyed. -/
def choice : Choice Registry.builtin where
  name := (Builtin.control .ifThenElse).definition.name
  headOffset := 0
  offset := 0
  condition := .application (.query .isDestroyed) [.atom (.text "raider") 0]
  yes := .application (.query .isGoalTrue) [.atom (.text "win") 0]
  no := .application (.query .hasTimeElapsed) [.atom (.number 99) 0]
  applies := Registry.get?_builtin _

theorem isSound_choice {mission : Mission} (hgoal : (mission.tracker.goal? "win").isSome) :
    choice.IsSound game mission where
  condition := Node.isCondition_isDestroyed (by decide +kernel) mission
  yes := .query (Node.applies_application _ _) (.cons rfl .nil) (.goal (Or.inl rfl) hgoal)
  no := Node.isCondition_hasTimeElapsed (by decide +kernel) game mission
  reach := by decide

end Strike

open Strike in
/-- The raider is destroyed before anything is settled, and so nothing is taken back. -/
theorem Run.choice_respected_iff_strike : ∃ mission r g ms,
    Mission.load Strike.definition Registry.builtin .builtin .empty = .ok mission ∧
    History (Run.start mission Registry.builtin .builtin) Strike.game r g ms ∧
    choice.IsSound Strike.game mission ∧
    ms.map (choice.asked "report") = [.falseNow, .knownTrue, .knownTrue, .knownTrue, .knownTrue] ∧
    ms.map (choice.branch "report" false) = [.falseNow, .falseNow, .falseNow, .falseNow, .falseNow] ∧
    (ms.map (Env.reading Registry.builtin "report" choice.root)).Pairwise Truth.Respects := by
  have hcheck : (match Mission.load Strike.definition Registry.builtin .builtin .empty with
    | .ok mission =>
      let start := Run.start mission Registry.builtin .builtin
      let after := start.tick Strike.game
      let ms := [start.env Strike.game] ++ start.moments Strike.game ++
        [after.run.env (after.host.setTime 5)]
      (mission.tracker.goal? "win").isSome &&
        decide (ms.map (choice.asked "report") =
          [.falseNow, .knownTrue, .knownTrue, .knownTrue, .knownTrue]) &&
        decide (ms.map (choice.branch "report" false) =
          [.falseNow, .falseNow, .falseNow, .falseNow, .falseNow]) &&
        decide (after.host.time ≤ 5)
    | .error _ => false) = true := by decide +kernel
  cases hload : Mission.load Strike.definition Registry.builtin .builtin .empty with
  | error e =>
    rw [hload] at hcheck
    cases hcheck
  | ok mission =>
    simp only [hload, Bool.and_eq_true, decide_eq_true_eq] at hcheck
    obtain ⟨⟨⟨hgoal, hasked⟩, hbranch⟩, htime⟩ := hcheck
    have hstart : History (Run.start mission Registry.builtin .builtin) Strike.game _ _ _ := .start
    have hrun := hstart.tick.happening (.clock _ htime)
    have hsound := isSound_choice hgoal
    refine ⟨mission, _, _, _, rfl, hrun, hsound, hasked, hbranch, ?_⟩
    obtain ⟨hiff, hkept⟩ := choice_respected_iff hload hrun hsound "report"
    refine hiff.2 (hkept.imp_of_mem fun {m m'} hm _ hkept hturned => ?_)
    have hno : choice.branch "report" false m = .falseNow := by
      have hmem := List.mem_map_of_mem (f := choice.branch "report" false) hm
      rw [hbranch] at hmem
      simpa using hmem
    have hcondition : choice.asked "report" m = .falseNow ∨ choice.asked "report" m = .knownTrue := by
      have hmem := List.mem_map_of_mem (f := choice.asked "report") hm
      rw [hasked] at hmem
      simpa using hmem
    rcases hcondition with hfalse | htrue
    · rw [hfalse, show Truth.falseNow.isTrue = false from rfl, hno]
      exact ⟨nofun, nofun⟩
    · exact absurd (hkept (by rw [htrue]; rfl)) hturned

namespace Dawn

/-- A mission with an event that waits for the dawn. -/
def definition : Definition :=
  ⟨"Dawn", [],
    [⟨"Dawn", "(if-then-else (has-time-elapsed 5) (true) (false))", 1, 0, 0, none, 0, none⟩], []⟩

def game : Simulation :=
  .start ⟨[], []⟩ (.rolls [])

/-- The formula of the event. -/
def choice : Choice Registry.builtin where
  name := (Builtin.control .ifThenElse).definition.name
  headOffset := 0
  offset := 0
  condition := .application (.query .hasTimeElapsed) [.atom (.number 5) 0]
  yes := .application (.query .always) []
  no := .application (.query .never) []
  applies := Registry.get?_builtin _

theorem isSound_choice (mission : Mission) : choice.IsSound game mission where
  condition := Node.isCondition_hasTimeElapsed (by decide +kernel) game mission
  yes := Node.isCondition_constant (Or.inl rfl) game mission
  no := Node.isCondition_constant (Or.inr rfl) game mission
  reach := by decide

end Dawn

open Dawn in
/-- Before the dawn the event is settled false. It is exhausted then, and does not fire when its formula
    is true. -/
theorem Run.choice_not_respected : ∃ mission root r g ms,
    Mission.load Dawn.definition Registry.builtin .builtin .empty = .ok mission ∧
    mission.formula? (.event 0) = some ("Dawn", root) ∧ choice.root.equivalent root = true ∧
    choice.IsSound Dawn.game mission ∧
    History (Run.start mission Registry.builtin .builtin) Dawn.game r g ms ∧
    ms.map (Env.reading Registry.builtin "Dawn" choice.root) =
      [.knownFalse, .knownFalse, .knownFalse, .knownTrue, .knownTrue, .knownTrue] ∧
    r.mission.ledger.event? "Dawn" = some ⟨0, none, none, true⟩ ∧
    ¬ (ms.map (Env.reading Registry.builtin "Dawn" choice.root)).Pairwise Truth.Respects := by
  have hcheck : (match Mission.load Dawn.definition Registry.builtin .builtin .empty with
    | .ok mission =>
      let start := Run.start mission Registry.builtin .builtin
      let after := start.tick Dawn.game
      let dawn := after.host.setTime 5
      let ms := [start.env Dawn.game] ++ start.moments Dawn.game ++ [after.run.env dawn] ++
        after.run.moments dawn
      (mission.formula? (.event 0)).any (fun f => f.1 == "Dawn" && choice.root.equivalent f.2) &&
        decide (ms.map (Env.reading Registry.builtin "Dawn" choice.root) =
          [.knownFalse, .knownFalse, .knownFalse, .knownTrue, .knownTrue, .knownTrue]) &&
        decide ((after.run.tick dawn).run.mission.ledger.event? "Dawn" = some ⟨0, none, none, true⟩) &&
        decide (after.host.time ≤ 5)
    | .error _ => false) = true := by decide +kernel
  cases hload : Mission.load Dawn.definition Registry.builtin .builtin .empty with
  | error e =>
    rw [hload] at hcheck
    cases hcheck
  | ok mission =>
    simp only [hload, Bool.and_eq_true, decide_eq_true_eq] at hcheck
    obtain ⟨⟨⟨hformula, hreadings⟩, hrecord⟩, htime⟩ := hcheck
    obtain ⟨⟨name, root⟩, hevent, hroot⟩ := (Option.any_eq_true _ _).1 hformula
    obtain ⟨hname, hroot⟩ := (Bool.and_eq_true _ _).mp hroot
    obtain rfl := eq_of_beq hname
    have hstart : History (Run.start mission Registry.builtin .builtin) Dawn.game _ _ _ := .start
    have hrun := (hstart.tick.happening (.clock _ htime)).tick
    refine ⟨mission, root, _, _, _, rfl, hevent, hroot, isSound_choice mission, hrun, hreadings,
      hrecord, ?_⟩
    rw [hreadings]
    decide

end MissionScript

import MissionScript.Proofs.Mission.Condition
import MissionScript.Proofs.Mission.History

/-!
Conditions in the history of a mission. What a condition settles at one moment it does not contradict
at a later one, whatever the mission and the game have done in between.
-/

namespace MissionScript

namespace Mission

variable {mission : Mission} {game g g' : Simulation} {l l' : Ledger}

theorem IsKnown.mono (h : mission.IsKnown game g l) (hg : g.Leads g') (hl : l.Leads l') :
    mission.IsKnown game g' l' := by
  constructor
  · intro name hname
    obtain ⟨status, hstatus⟩ := h.ships name hname
    obtain ⟨later, hlater, -⟩ := hg.ships name status hstatus
    exact ⟨later, hlater⟩
  · exact hg.wings.trans h.wings
  · intro name hname
    obtain ⟨r, hr⟩ := h.events name hname
    obtain ⟨r', hr', -⟩ := hl.events name r hr
    exact ⟨r', hr'⟩
  · intro name hname
    obtain ⟨r, hr⟩ := h.goals name hname
    obtain ⟨r', hr', -⟩ := hl.goals name r hr
    exact ⟨r', hr'⟩

theorem isKnown_of_booked (hevents : mission.schedule.IsBooked mission.ledger)
    (hgoals : Goal.AreBooked mission.tracker.goals mission.ledger) (game : Simulation) :
    mission.IsKnown game game mission.ledger := by
  constructor
  · intro name hname
    obtain ⟨s, hs⟩ := Option.isSome_iff_exists.1 hname
    exact ⟨s.status game.time, by rw [Simulation.shipStatus?, hs, Option.map_some]⟩
  · rfl
  · exact fun name hname => hevents.exists_find? hname
  · exact fun name hname => hgoals.exists_find? hname

end Mission

/-- What an environment says of a formula. -/
def Env.reading (registry : Registry) (formula : String) (root : Node) (env : Env Simulation) : Truth :=
  ((evaluate registry formula root).run env).1.truth

theorem Node.IsCondition.upholds {registry : Registry} {mission : Mission} {game : Simulation}
    {root : Node} (h : root.IsCondition registry game mission) (hreach : root.reach < maxEvalDepth)
    (formula : String) {env env' : Env Simulation}
    (hknown : mission.IsKnown game env.host env.ledger) (hleads : env.Leads env') :
    (env.reading registry formula root).Upholds (env'.reading registry formula root) := by
  have hpath : ([] : Path).length + root.reach < maxEvalDepth := by simpa using hreach
  obtain ⟨t, t', ht, ht', -, -, hupholds⟩ := h.keeps hknown hleads.1 hleads.2 formula hpath
  have hreading : env.reading registry formula root = t := by
    have hvalue := (ht { env with trace := #[] } ⟨rfl, rfl⟩).1
    exact (congrArg Value.truth hvalue).trans (Value.truth_toValue t)
  have hreading' : env'.reading registry formula root = t' := by
    have hvalue := (ht' { env' with trace := #[] } ⟨rfl, rfl⟩).1
    exact (congrArg Value.truth hvalue).trans (Value.truth_toValue t')
  rw [hreading, hreading']
  exact hupholds

/-- A settled truth is not contradicted later. Of any two moments in the history of a loaded mission,
    the later one says of a condition what the earlier one has settled, if no argument of the
    condition lies so deep that it is not evaluated. -/
theorem Run.settled_upheld {definition : Definition} {loader registry : Registry}
    {settings settings' : Settings} {saved : Snapshot} {mission : Mission}
    (hload : Mission.load definition loader settings saved = .ok mission) {game g : Simulation}
    {r : Run} {ms : List (Env Simulation)}
    (hrun : History (Run.start mission registry settings') game r g ms) {root : Node}
    (hcondition : root.IsCondition registry game mission) (hreach : root.reach < maxEvalDepth)
    (formula : String) :
    (ms.map (Env.reading registry formula root)).Pairwise Truth.Upholds := by
  obtain ⟨hevents, hgoals⟩ := Mission.booked_of_load hload
  have hrises := (hrun.rises ⟨hevents, hgoals⟩).1
  have hstart := Mission.isKnown_of_booked hevents hgoals game
  rw [List.pairwise_map]
  refine hrises.ordered.imp_of_mem fun {m m'} hm _ hleads => ?_
  have hm' := hrises.before m hm
  exact hcondition.upholds hreach formula (hstart.mono hm'.1 hm'.2) hleads

/-- A node that applies a built-in operator by its name. -/
def Node.application (b : Builtin) (args : List Node) : Node :=
  .list (.atom (.operator b.definition.name) 0 :: args) 0

theorem Node.applies_application (b : Builtin) (args : List Node) :
    (application b args).Applies Registry.builtin b args :=
  ⟨_, _, _, rfl, Registry.get?_builtin b⟩

/-- Asking for a ship that there is. -/
theorem Node.isCondition_isDestroyed {game : Simulation} {name : String}
    (hship : (game.ship? name).isSome) (mission : Mission) :
    (application (.query .isDestroyed) [.atom (.text name) 0]).IsCondition Registry.builtin game
      mission := by
  have hasks : Query.Asks game mission .isDestroyed ([name].map .text) :=
    .ships (Or.inl rfl) (by simp) (List.forall_mem_singleton.2 hship)
  exact .query (applies_application _ _) (.cons rfl .nil) hasks

namespace Strike

/-- A mission that destroys a raider. -/
def definition : Definition :=
  ⟨"Strike", [], [⟨"Fire", "(self-destruct \"Raider\")", 1, 0, 0, none, 0, none⟩],
    [⟨"Win", "(is-event-true \"Fire\")", .primary, 0, 0, false⟩]⟩

def scenario : Scenario :=
  ⟨[⟨"Raider", some 0, none, none, 100⟩], []⟩

def game : Simulation :=
  .start scenario (.rolls [])

/-- The raider is destroyed, and the goal has not failed. -/
def condition : Node :=
  .application (.control .and) [.application (.query .isDestroyed) [.atom (.text "raider") 0],
    .application (.query .not) [.application (.query .isGoalFalse) [.atom (.text "win") 0]]]

theorem isCondition {mission : Mission} (hgoal : (mission.tracker.goal? "win").isSome) :
    condition.IsCondition Registry.builtin game mission := by
  have hship : (game.ship? "raider").isSome := by decide +kernel
  refine .connective (by decide) (Node.applies_application _ _) (by decide) ?_
  refine List.forall_mem_cons.2 ⟨Node.isCondition_isDestroyed hship mission, ?_⟩
  refine List.forall_mem_singleton.2 ?_
  refine .connective (by decide) (Node.applies_application _ _) (by decide) ?_
  refine List.forall_mem_singleton.2 ?_
  exact .query (Node.applies_application _ _) (.cons rfl .nil) (.goal (Or.inr rfl) hgoal)

end Strike

open Strike in
/-- The goal is not failed for good from the moment on when it is complete. -/
theorem Run.settled_upheld_strike : ∃ mission r g ms,
    Mission.load Strike.definition Registry.builtin .builtin .empty = .ok mission ∧
    History (Run.start mission Registry.builtin .builtin) Strike.game r g ms ∧
    ms.map (Env.reading Registry.builtin "report" condition) =
      [.falseNow, .trueNow, .trueNow, .knownTrue, .knownTrue] ∧
    (ms.map (Env.reading Registry.builtin "report" condition)).Pairwise Truth.Upholds := by
  have hcheck : (match Mission.load Strike.definition Registry.builtin .builtin .empty with
    | .ok mission =>
      let start := Run.start mission Registry.builtin .builtin
      let after := start.tick Strike.game
      (mission.tracker.goal? "win").isSome &&
        decide (([start.env Strike.game] ++ start.moments Strike.game ++
          [after.run.env (after.host.setTime 5)]).map
            (Env.reading Registry.builtin "report" condition) =
          [.falseNow, .trueNow, .trueNow, .knownTrue, .knownTrue]) &&
        decide (after.host.time ≤ 5)
    | .error _ => false) = true := by decide +kernel
  cases hload : Mission.load Strike.definition Registry.builtin .builtin .empty with
  | error e =>
    rw [hload] at hcheck
    cases hcheck
  | ok mission =>
    simp only [hload, Bool.and_eq_true, decide_eq_true_eq] at hcheck
    obtain ⟨⟨hgoal, hreadings⟩, htime⟩ := hcheck
    have hstart : History (Run.start mission Registry.builtin .builtin) Strike.game _ _ _ := .start
    have hrun := hstart.tick.happening (.clock _ htime)
    refine ⟨mission, _, _, _, rfl, hrun, hreadings, ?_⟩
    exact settled_upheld hload hrun (Strike.isCondition hgoal) (by decide) "report"

namespace Deep

/-- A mission that does nothing. -/
def definition : Definition :=
  ⟨"Deep", [], [], []⟩

/-- One ship is destroyed after two seconds, and another one leaves at once. -/
def scenario : Scenario :=
  ⟨[⟨"a", some 0, some 2, none, 100⟩, ⟨"b", some 0, none, some 0, 100⟩], []⟩

def game : Simulation :=
  .start scenario (.rolls [])

/-- A condition under so many negations. -/
def negated (condition : Node) : Nat → Node
  | 0 => condition
  | k + 1 => .application (.query .not) [negated condition k]

/-- The second ship cannot be destroyed any more. But once the first one is, the arguments before
    that are evaluated to the end, and there one of them lies too deep. -/
def condition : Node :=
  .application (.control .and) [
    .application (.control .or) [
      .application (.query .not) [.application (.query .isDestroyed) [.atom (.text "a") 0]],
      negated (.application (.query .always) []) 510],
    .application (.query .isDestroyed) [.atom (.text "b") 0]]

theorem isCondition (mission : Mission) : condition.IsCondition Registry.builtin game mission := by
  have hships : (game.ship? "a").isSome ∧ (game.ship? "b").isSome := by decide +kernel
  have hnot (n : Node) (hn : n.IsCondition Registry.builtin game mission) :
      (Node.application (.query .not) [n]).IsCondition Registry.builtin game mission :=
    .connective (by decide) (Node.applies_application _ _) rfl (List.forall_mem_singleton.2 hn)
  have hnegated (k : Nat) : (negated (.application (.query .always) []) k).IsCondition
      Registry.builtin game mission := by
    induction k with
    | zero => exact .query (Node.applies_application _ _) .nil (.constant (Or.inl rfl))
    | succ k ih => exact hnot _ ih
  refine .connective (by decide) (Node.applies_application _ _) (by decide) ?_
  have hsecond := Node.isCondition_isDestroyed hships.2 mission
  refine List.forall_mem_cons.2 ⟨?_, List.forall_mem_singleton.2 hsecond⟩
  refine .connective (by decide) (Node.applies_application _ _) (by decide) ?_
  exact List.forall_mem_cons.2 ⟨hnot _ (Node.isCondition_isDestroyed hships.1 mission),
    List.forall_mem_singleton.2 (hnegated 510)⟩

end Deep

open Deep in
/-- What is settled can become unknown if a condition reaches too deep. -/
theorem Run.not_settled_upheld_deep : ∃ mission r g ms,
    Mission.load Deep.definition Registry.builtin .builtin .empty = .ok mission ∧
    History (Run.start mission Registry.builtin .builtin) Deep.game r g ms ∧
    condition.IsCondition Registry.builtin Deep.game mission ∧
    ¬ (ms.map (Env.reading Registry.builtin "report" condition)).Pairwise Truth.Upholds := by
  have hcheck : (match Mission.load Deep.definition Registry.builtin .builtin .empty with
    | .ok mission =>
      let start := Run.start mission Registry.builtin .builtin
      let after := start.tick Deep.game
      decide ((start.env Deep.game).reading Registry.builtin "report" condition = .knownFalse) &&
        decide ((after.run.env (after.host.setTime 2)).reading Registry.builtin "report" condition =
          .unknown) && decide (after.host.time ≤ 2)
    | .error _ => false) = true := by decide +kernel
  cases hload : Mission.load Deep.definition Registry.builtin .builtin .empty with
  | error e =>
    rw [hload] at hcheck
    cases hcheck
  | ok mission =>
    simp only [hload, Bool.and_eq_true, decide_eq_true_eq] at hcheck
    obtain ⟨⟨hfirst, hlast⟩, htime⟩ := hcheck
    have hstart : History (Run.start mission Registry.builtin .builtin) Deep.game _ _ _ := .start
    have hrun := hstart.tick.happening (.clock _ htime)
    refine ⟨mission, _, _, _, rfl, hrun, Deep.isCondition mission, fun hpairwise => ?_⟩
    rw [List.map_append, List.map_append, List.pairwise_append] at hpairwise
    have hupholds := hpairwise.2.2 _ (List.mem_append_left _ (List.mem_cons_self ..)) _
      (List.mem_cons_self ..)
    rw [hfirst, hlast] at hupholds
    rcases hupholds.2 rfl with h | h
    · cases h
    · cases h

end MissionScript

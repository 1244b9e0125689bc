import MissionScript.Proofs.Goal.Directives
import MissionScript.Proofs.Goal.Outcome
import MissionScript.Proofs.Mission.Score
import MissionScript.Proofs.Operator.Builtin

/-!
Endings of missions. Goals that are still open may fail then, and the outcome is settled. A mission
that has been decided before stays decided, and whatever the settings say the outcome is notified
once, last of all, unless it is the same as before.
-/

namespace MissionScript

/-- Whether all goals that count are complete. -/
def AreComplete (goals : List Goal) : Prop :=
  ∀ g ∈ goals, g.Counts → g.status = .complete

instance (goals : List Goal) : Decidable (AreComplete goals) :=
  inferInstanceAs (Decidable (∀ g ∈ goals, _))

/-- Once a mission is finished, it depends on nothing but whether the goals that count are complete. -/
theorem outcomeOf_finished (goals : List Goal) (failsEarly : Bool) :
    outcomeOf goals failsEarly true = if AreComplete goals then .success else .failure := by
  have hall : (goals.filter (·.isCounted)).all (·.status == .complete) = true ↔
      AreComplete goals := by
    simp only [List.all_eq_true, List.mem_filter, Goal.isCounted_iff, and_imp, beq_iff_eq, AreComplete]
  by_cases hcomplete : AreComplete goals
  · have hnone : (goals.filter (·.isCounted)).any (·.status == .failed) = false := by
      refine List.any_eq_false.2 fun g hg => ?_
      obtain ⟨hg, hcounted⟩ := List.mem_filter.1 hg
      simp [hcomplete g hg (Goal.isCounted_iff.1 hcounted)]
    have hwon := hall.2 hcomplete
    simp only [outcomeOf, hnone, hwon, Bool.and_false, Bool.or_true, Bool.true_and,
      Bool.false_eq_true, if_true, if_false, if_pos hcomplete]
  · have hopen := Bool.eq_false_iff.2 (mt hall.1 hcomplete)
    simp only [outcomeOf, hopen, Bool.false_and, Bool.false_eq_true, if_true, if_false,
      if_neg hcomplete, ite_self]

namespace Goal

/-- A goal once the mission is over. Where open goals fail then, it has failed if it was open. -/
def ending (failsOpen : Bool) (g : Goal) : Goal :=
  if failsOpen && g.isOpen then g.move .failed else g

/-- The notifications of the goals that fail because the mission is over. -/
def failures (failsOpen : Bool) (now : Float) (goals : List Goal) : List Notification :=
  (goals.filter fun g => failsOpen && g.isOpen).map (·.moved .failed now)

variable {failsOpen : Bool} {g : Goal} {goals : List Goal}

theorem ending_of_isTerminal (h : g.status.isTerminal = true) : g.ending failsOpen = g := by
  rw [ending, isOpen, h, Bool.not_true, Bool.and_false, Bool.and_false, if_neg Bool.false_ne_true]

theorem counts_ending : (g.ending failsOpen).Counts ↔ g.Counts := by
  unfold ending
  split <;> rfl

theorem isTerminal_ending (g : Goal) (hvalid : g.invalid = false) :
    (g.ending true).status.isTerminal = true := by
  cases hterminal : g.status.isTerminal with
  | true => rwa [ending_of_isTerminal hterminal]
  | false =>
    rw [ending, isOpen, hvalid, hterminal]
    rfl

theorem failOpen_eq (now : Float) (goals : List Goal) (ledger : Ledger) :
    (failOpen now goals ledger).1 = goals.map (ending true) ∧
      (failOpen now goals ledger).2.1 = failures true now goals := by
  induction goals generalizing ledger with
  | nil => exact ⟨rfl, rfl⟩
  | cons g rest ih =>
    rw [failOpen, failures, List.map_cons, List.filter_cons, ending, Bool.true_and]
    split
    · obtain ⟨hgoals, hnotes⟩ := ih (ledger.goalChanged g.name .failed now)
      exact ⟨congrArg (_ :: ·) hgoals, congrArg (_ :: ·) hnotes⟩
    · obtain ⟨hgoals, hnotes⟩ := ih ledger
      exact ⟨congrArg (_ :: ·) hgoals, hnotes⟩

theorem map_ending_false (goals : List Goal) : goals.map (ending false) = goals :=
  List.map_id _

theorem failures_false (now : Float) (goals : List Goal) : failures false now goals = [] := by
  simp [failures]

/-- Goals that fail in the end were not complete, so this completes no mission. -/
theorem areComplete_map_ending : AreComplete (goals.map (ending failsOpen)) ↔ AreComplete goals := by
  constructor
  · intro h g hg hcounts
    have hstatus := h _ (List.mem_map_of_mem hg) (counts_ending.2 hcounts)
    unfold ending at hstatus
    split at hstatus
    · cases hstatus
    · exact hstatus
  · intro h g' hg' hcounts
    obtain ⟨g, hg, rfl⟩ := List.mem_map.1 hg'
    have hstatus := h g hg (counts_ending.1 hcounts)
    rwa [ending_of_isTerminal (by rw [hstatus]; rfl)]

end Goal

namespace Outcome

variable {failsEarly failsOpen : Bool} {goals : List Goal}

/-- What is decided while a mission runs is decided for good. -/
theorem outcomeOf_finished_of_due (h : due failsEarly goals ≠ .inProgress) :
    outcomeOf goals failsEarly true = due failsEarly goals := by
  rw [outcomeOf_finished]
  unfold due at h ⊢
  by_cases hlost : IsLost failsEarly goals
  · have ⟨_, g, hg, hcounts, hfailed⟩ := hlost
    have hincomplete : ¬ AreComplete goals := fun hall => by
      rw [hall g hg hcounts] at hfailed
      cases hfailed
    rw [if_neg hincomplete, if_pos hlost]
  · rw [if_neg hlost] at h ⊢
    split at h
    · next hwon =>
      have hcomplete : AreComplete goals := hwon.2
      rw [if_pos hwon, if_pos hcomplete]
    · exact absurd rfl h

/-- A mission that has been decided stays so when its open goals fail. -/
theorem due_map_ending (h : due failsEarly goals ≠ .inProgress) :
    due failsEarly (goals.map (Goal.ending failsOpen)) = due failsEarly goals := by
  unfold due at h ⊢
  by_cases hlost : IsLost failsEarly goals
  · have ⟨hearly, g, hg, hcounts, hfailed⟩ := hlost
    have hkept : g.ending failsOpen = g := Goal.ending_of_isTerminal (by rw [hfailed]; rfl)
    rw [if_pos hlost, if_pos ⟨hearly, g, List.mem_map.2 ⟨g, hg, hkept⟩, hcounts, hfailed⟩]
  · rw [if_neg hlost] at h ⊢
    split at h
    · next hwon =>
      have ⟨⟨g, hg, hcounts⟩, hcomplete⟩ := hwon
      have hcomplete' : AreComplete (goals.map (Goal.ending failsOpen)) :=
        Goal.areComplete_map_ending.2 hcomplete
      have hlost' : ¬ IsLost failsEarly (goals.map (Goal.ending failsOpen)) := by
        rintro ⟨-, g', hg', hcounts', hfailed⟩
        rw [hcomplete' g' hg' hcounts'] at hfailed
        cases hfailed
      have hcounts' := List.mem_map_of_mem (f := Goal.ending failsOpen) hg
      rw [if_neg hlost', if_pos ⟨⟨_, hcounts', Goal.counts_ending.2 hcounts⟩, hcomplete'⟩,
        if_pos hwon]
    · exact absurd rfl h

/-- The end of a mission that has been decided changes nothing about that. -/
theorem outcomeOf_map_ending (h : due failsEarly goals ≠ .inProgress) :
    outcomeOf (goals.map (Goal.ending failsOpen)) failsEarly true = due failsEarly goals := by
  have hkept : due failsEarly (goals.map (Goal.ending failsOpen)) = due failsEarly goals :=
    due_map_ending h
  rw [outcomeOf_finished_of_due (hkept ▸ h), hkept]

end Outcome

namespace Tracker

/-- The notification of an outcome, if it is another one than before. -/
def news (before after : Outcome) (now : Float) : List Notification :=
  if after = before then [] else [.outcomeChanged after now]

/-- Looking at the outcome while the mission runs, and again now that it is over, tells the same as
    looking at it once, if nothing has happened since a decision but that open goals have failed. -/
theorem news_append_news (failsEarly failsOpen : Bool) (goals : List Goal) (now : Float) :
    let before := Outcome.due failsEarly goals
    let running := outcomeOf (goals.map (Goal.ending failsOpen)) failsEarly false
    let after := outcomeOf (goals.map (Goal.ending failsOpen)) failsEarly true
    news before running now ++ news running after now = news before after now := by
  dsimp only
  rw [outcomeOf_eq_due]
  by_cases hbefore : Outcome.due failsEarly goals = .inProgress
  · by_cases hrunning :
        Outcome.due failsEarly (goals.map (Goal.ending failsOpen)) = .inProgress
    · rw [hrunning, hbefore]
      rfl
    · rw [Outcome.outcomeOf_finished_of_due hrunning]
      simp [news]
  · rw [Outcome.due_map_ending hbefore, Outcome.outcomeOf_map_ending hbefore]
    simp [news]

theorem filterMap_news (before after : Outcome) (now : Float) :
    (news before after now).filterMap Notification.outcome? = if after = before then [] else [after] := by
  unfold news
  split <;> rfl

theorem filter_isMoveOf_news (name : String) (before after : Outcome) (now : Float) :
    (news before after now).filter (Notification.isMoveOf name) = [] := by
  unfold news
  split <;> rfl

/-- After notifications that tell of no outcome, the one that does is the last. -/
theorem outcome?_of_mem_dropLast {ns : List Notification} (hns : ∀ n ∈ ns, n.outcome? = none)
    (before after : Outcome) (now : Float) :
    ∀ n ∈ (ns ++ news before after now).dropLast, n.outcome? = none := by
  unfold news
  split
  · rw [List.append_nil]
    exact fun n hn => hns n (List.mem_of_mem_dropLast hn)
  · rw [List.dropLast_concat]
    exact hns

theorem conclude_eq (t : Tracker) (now : Float) :
    t.conclude now = ({ t with outcome := outcomeOf t.goals t.failsEarly true },
      news t.outcome (outcomeOf t.goals t.failsEarly true) now) :=
  t.refresh_eq true now

theorem failIncomplete_eq (t : Tracker) (now : Float) (ledger : Ledger) :
    ∃ ledger', t.failIncomplete now ledger =
      let goals := t.goals.map (Goal.ending true)
      let outcome := outcomeOf goals t.failsEarly false
      (⟨goals, t.failsEarly, outcome⟩,
        Goal.failures true now t.goals ++ news t.outcome outcome now, ledger') := by
  obtain ⟨hgoals, hnotes⟩ := Goal.failOpen_eq now t.goals ledger
  unfold failIncomplete
  generalize Goal.failOpen now t.goals ledger = result at hgoals hnotes ⊢
  obtain ⟨goals, ns, ledger'⟩ := result
  obtain rfl : goals = _ := hgoals
  obtain rfl : ns = _ := hnotes
  refine ⟨ledger', ?_⟩
  dsimp only
  rw [refresh_eq]
  rfl

end Tracker

namespace Run

/-- Whether the outcome of a run is the one that its goals call for. -/
def IsDue (r : Run) : Prop :=
  r.mission.tracker.outcome = .due r.mission.tracker.failsEarly r.mission.tracker.goals

/-- What holds of a run until it is finished. -/
structure Underway (failsOpen : Bool) (r : Run) : Prop where
  failsOpen : r.failsOpen = failsOpen
  distinct : r.mission.tracker.IsDistinct
  due : r.IsDue

/-- The end of a mission fails the goals that are open, if they are to fail, and settles the outcome
    by those that are complete. -/
theorem resolve_eq (r : Run) (hdue : r.IsDue) :
    let t := r.mission.tracker
    let goals := t.goals.map (Goal.ending r.failsOpen)
    let outcome := outcomeOf goals t.failsEarly true
    r.resolve.1.mission.tracker = ⟨goals, t.failsEarly, outcome⟩ ∧
      r.resolve.2 = Goal.failures r.failsOpen r.time t.goals ++
        Tracker.news t.outcome outcome r.time := by
  unfold resolve
  cases r.failsOpen with
  | false =>
    simp only [Bool.false_eq_true, if_false, Tracker.conclude_eq, Goal.map_ending_false,
      Goal.failures_false]
    exact ⟨rfl, trivial⟩
  | true =>
    obtain ⟨ledger, hfailed⟩ := r.mission.tracker.failIncomplete_eq r.time r.mission.ledger
    have htwice := Tracker.news_append_news r.mission.tracker.failsEarly true
      r.mission.tracker.goals r.time
    rw [IsDue] at hdue
    simp only [← hdue] at htwice
    simp only [if_true, hfailed, Tracker.conclude_eq, List.append_assoc, htwice]
    exact ⟨rfl, trivial⟩

variable {start r : Run} {reports : List TickReport} {failsOpen : Bool}

theorem Underway.tick {H : Type} [Host H] (h : r.Underway failsOpen) (host : H) :
    (r.tick host).run.Underway failsOpen := by
  have hpass := r.mission.tracker.passes_tick r.registry (r.eventsDone host).2
  exact ⟨h.failsOpen, Tracker.IsDistinct.tick h.distinct r.registry (r.eventsDone host).2, hpass.isSound.outcome⟩

theorem Course.underway (h : start.Course r reports) (hstart : start.Underway failsOpen) :
    r.Underway failsOpen := by
  induction h with
  | start => exact hstart
  | listen _ ih | change _ _ ih => exact ⟨ih.failsOpen, ih.distinct, ih.due⟩
  | tick _ host ih => exact ih.tick host

/-- A course goes on with any further ticks. -/
theorem Course.after {H : Type} [Host H] (h : start.Course r reports) (hosts : List H) :
    ∃ reports', start.Course (r.after hosts) reports' := by
  induction hosts generalizing r reports with
  | nil => exact ⟨reports, h⟩
  | cons host rest ih => exact ih (h.tick host)

end Run

section

variable {definition : Definition} {registry registry' : Registry} {settings settings' : Settings}
  {saved : Snapshot} {mission : Mission}

/-- A mission that has been loaded is undecided, as none of its goals is decided. -/
theorem Mission.underway_load (h : load definition registry settings saved = .ok mission) :
    (Run.start mission registry' settings').Underway settings'.failsOpen := by
  obtain ⟨-, -, -, -, htracker, -⟩ := load_eq h
  obtain ⟨-, hopen⟩ := price_trackAll htracker
  have houtcome : mission.tracker.outcome = .inProgress := by
    refine foldlM_ok (P := fun t => t.outcome = .inProgress) (fun t entry t' hstep ht => ?_)
      htracker rfl
    obtain ⟨formula, -, -, rfl⟩ := addGoal_eq_ok hstep
    exact ht
  have hlost : ¬ IsLost mission.tracker.failsEarly mission.tracker.goals := by
    rintro ⟨-, g, hg, -, hfailed⟩
    rw [hopen g hg] at hfailed
    cases hfailed
  have hwon : ¬ IsWon mission.tracker.goals := by
    rintro ⟨⟨g, hg, hcounts⟩, hcomplete⟩
    have hstatus := hcomplete g hg hcounts
    rw [hopen g hg] at hstatus
    cases hstatus
  refine ⟨rfl, isDistinct_trackAll htracker, ?_⟩
  change mission.tracker.outcome = .due mission.tracker.failsEarly mission.tracker.goals
  rw [houtcome, Outcome.due, if_neg hlost, if_neg hwon]

namespace Goal

/-- Of goals with distinct names only one has the name of a goal. -/
theorem filter_sameName {goals : List Goal} (h : (goals.map fun g => foldName g.name).Nodup) {g : Goal}
    (hg : g ∈ goals) : goals.filter (fun g' => sameName g'.name g.name) = [g] := by
  induction goals with
  | nil => cases hg
  | cons first rest ih =>
    obtain ⟨hnew, hrest⟩ := List.nodup_cons.1 h
    rw [List.filter_cons]
    rcases List.mem_cons.1 hg with rfl | hg
    · rw [if_pos (sameName_refl g.name), List.filter_eq_nil_iff.2 fun g' hg' hsame => ?_]
      exact hnew (List.mem_map.2 ⟨g', hg', sameName_iff.1 hsame⟩)
    · rw [if_neg fun hsame => ?_, ih hrest hg]
      exact hnew (List.mem_map.2 ⟨g, hg, (sameName_iff.1 hsame).symm⟩)

/-- Of the goals that fail because the mission is over, one notification tells of each. -/
theorem filter_failures {goals : List Goal} (h : (goals.map fun g => foldName g.name).Nodup) {g : Goal}
    (hg : g ∈ goals) (failsOpen : Bool) (now : Float) :
    (failures failsOpen now goals).filter (Notification.isMoveOf g.name) =
      if failsOpen && g.isOpen then [.goalChanged g.name .failed 0 now] else [] := by
  have hmoves : Notification.isMoveOf g.name ∘ (fun g' : Goal => g'.moved .failed now) =
      fun g' => sameName g'.name g.name := rfl
  rw [failures, List.filter_map, hmoves, List.filter_comm, filter_sameName h hg, List.filter_singleton]
  cases failsOpen && g.isOpen <;> rfl

theorem outcome?_of_mem_failures {n : Notification} {failsOpen : Bool} {now : Float}
    {goals : List Goal} (hn : n ∈ failures failsOpen now goals) : n.outcome? = none := by
  obtain ⟨g, -, rfl⟩ := List.mem_map.1 hn
  rfl

end Goal

namespace Run

theorem goalSummary_ending (failsOpen : Bool) (g : Goal) : goalSummary (g.ending failsOpen) =
    ⟨g.name, g.type, if failsOpen && g.isOpen then .failed else g.status, g.invalid⟩ := by
  unfold Goal.ending
  split <;> rfl

theorem areComplete_iff_goalSummary (goals : List Goal) : AreComplete goals ↔
    ∀ g ∈ goals.map goalSummary, g.type = .primary → g.invalid = false → g.status = .complete := by
  simp [AreComplete, Goal.Counts, goalSummary]

/-- The summary of a run that is finished has what the end of the mission has made of it. -/
theorem finish_eq (r : Run) (hdue : r.IsDue) :
    let t := r.mission.tracker
    let goals := t.goals.map (Goal.ending r.failsOpen)
    r.finish.goals = goals.map goalSummary ∧
      r.finish.outcome = outcomeOf goals t.failsEarly true ∧
      r.finish.notifications = Goal.failures r.failsOpen r.time t.goals ++
        Tracker.news t.outcome r.finish.outcome r.time := by
  obtain ⟨htracker, hnotes⟩ := r.resolve_eq hdue
  have houtcome : r.finish.outcome = _ := congrArg Tracker.outcome htracker
  dsimp only
  rw [houtcome]
  exact ⟨congrArg (fun t : Tracker => t.goals.map goalSummary) htracker, rfl, hnotes⟩

end Run

/-- Finishing a mission settles it, at any point of any run. The outcome is success exactly if every
    primary goal that is not invalid is complete, and otherwise failure; if it has been decided
    before, it stays as it was. The end notifies the outcome at most once, last of all, and leaves
    that out only if it is the same as before. If open goals are to fail, those and no others do,
    each with one notification that is worth nothing, and so every goal that is not invalid has come
    to an end; otherwise no goal changes its status. -/
theorem Run.Course.finish_settled {r : Run} {reports : List TickReport}
    (hload : Mission.load definition registry settings saved = .ok mission)
    (h : (Run.start mission registry' settings').Course r reports) :
    let before := r.mission.tracker
    let summary := r.finish
    summary.outcome ≠ .inProgress ∧
    (summary.outcome = .success ↔
      ∀ g ∈ summary.goals, g.type = .primary → g.invalid = false → g.status = .complete) ∧
    (before.outcome ≠ .inProgress → summary.outcome = before.outcome) ∧
    summary.notifications.filterMap Notification.outcome? =
      (if summary.outcome = before.outcome then [] else [summary.outcome]) ∧
    (∀ n ∈ summary.notifications.dropLast, n.outcome? = none) ∧
    summary.goals = before.goals.map (fun g =>
      ⟨g.name, g.type, if settings'.failsOpen && g.isOpen then .failed else g.status, g.invalid⟩) ∧
    (settings'.failsOpen = true →
      ∀ g ∈ summary.goals, g.invalid = false → g.status.isTerminal = true) ∧
    ∀ g ∈ before.goals, summary.notifications.filter (Notification.isMoveOf g.name) =
      if settings'.failsOpen && g.isOpen then [.goalChanged g.name .failed 0 r.time] else [] := by
  obtain ⟨hfails, hdistinct, hdue⟩ := h.underway (Mission.underway_load hload)
  obtain ⟨hgoals, houtcome, hnotes⟩ := r.finish_eq hdue
  rw [hfails] at hgoals houtcome hnotes
  dsimp only
  refine ⟨?_, ?_, fun hdecided => ?_, ?_, ?_, ?_, fun hopen => ?_, fun g hg => ?_⟩
  · rw [houtcome]
    exact outcomeOf_finished_ne_inProgress _ _
  · rw [hgoals, ← areComplete_iff_goalSummary, houtcome, outcomeOf_finished]
    split
    · next hcomplete => exact iff_of_true rfl hcomplete
    · next hcomplete => exact iff_of_false nofun hcomplete
  · rw [IsDue] at hdue
    rw [houtcome, hdue]
    exact Outcome.outcomeOf_map_ending (hdue ▸ hdecided)
  · have hquiet : (Goal.failures settings'.failsOpen r.time r.mission.tracker.goals).filterMap
        Notification.outcome? = [] :=
      List.filterMap_eq_nil_iff.2 fun n => Goal.outcome?_of_mem_failures
    rw [hnotes, List.filterMap_append, hquiet, List.nil_append, Tracker.filterMap_news]
  · rw [hnotes]
    exact Tracker.outcome?_of_mem_dropLast (fun n => Goal.outcome?_of_mem_failures) _ _ _
  · rw [hgoals, List.map_map]
    exact List.map_congr_left fun g _ => goalSummary_ending settings'.failsOpen g
  · rw [hgoals, List.map_map]
    refine List.forall_mem_map.2 fun g _ hvalid => ?_
    rw [Function.comp_apply, goalSummary_ending] at hvalid
    rw [hopen]
    exact g.isTerminal_ending hvalid
  · rw [hnotes, List.filter_append, Tracker.filter_isMoveOf_news, List.append_nil,
      Goal.filter_failures hdistinct hg]

end

namespace Siege

/-- A mission of two goals that count, one that is reached after three seconds and one after nine,
    and of a third goal that does not count. -/
def definition : Definition where
  name := "Siege"
  vars := []
  events := []
  goals := [⟨"Hold", "(has-time-elapsed 3)", .primary, 100, 0, false⟩,
    ⟨"Relief", "(has-time-elapsed 9)", .primary, 50, 0, false⟩,
    ⟨"Envoy", "(has-time-elapsed 9)", .bonus, 10, 0, true⟩]

/-- The game at the times of two ticks. -/
def games : List Simulation :=
  [1, 4].map (Simulation.start ⟨[], []⟩ (.rolls [])).setTime

/-- How the mission stands before the end, and its outcome, its goals and the time then. -/
def ending? : Option (Outcome × Outcome × List GoalStatus × Float) :=
  (Mission.load definition Registry.builtin .builtin .empty).toOption.map fun mission =>
    let r := (Run.start mission Registry.builtin .builtin).after games
    (r.mission.tracker.outcome, r.finish.outcome, r.finish.goals.map (·.status), r.time)

end Siege

open Siege in
/-- The siege ends too early: the relief fails, and with it the mission, which is notified once; the
    envoy does not count and is left alone. -/
theorem Run.Course.finish_settled_siege : ∃ mission,
    Mission.load definition Registry.builtin .builtin .empty = .ok mission ∧
    let r := (Run.start mission Registry.builtin .builtin).after games
    r.mission.tracker.outcome = .inProgress ∧ r.finish.outcome = .failure ∧
    r.finish.goals.map (·.status) = [.complete, .failed, .incomplete] ∧
    r.finish.notifications.filterMap Notification.outcome? = [.failure] ∧
    ∀ g ∈ r.mission.tracker.goals, r.finish.notifications.filter (Notification.isMoveOf g.name) =
      if g.isOpen then [.goalChanged g.name .failed 0 4] else [] := by
  have hending : ending? = some (.inProgress, .failure, [.complete, .failed, .incomplete], 4) := by
    simp only [ending?, Registry.builtin_eq]
    decide +kernel
  obtain ⟨mission, hload, heq⟩ := Option.map_eq_some_iff.1 hending
  have hload := toOption_eq_some_iff.1 hload
  simp only [Prod.mk.injEq] at heq
  obtain ⟨hbefore, hafter, hgoals, htime⟩ := heq
  have hstart : (Run.start mission Registry.builtin .builtin).Course _ [] := .start
  obtain ⟨reports, hcourse⟩ := hstart.after games
  obtain ⟨-, -, -, hnotes, -, -, -, hfailed⟩ := hcourse.finish_settled hload
  refine ⟨mission, hload, hbefore, hafter, hgoals, ?_, fun g hg => ?_⟩
  · rw [hnotes, hafter, hbefore]
    rfl
  · rw [hfailed g hg, htime]
    rfl

end MissionScript

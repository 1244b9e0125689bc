import MissionScript.Proofs.Evaluation.Frame
import MissionScript.Proofs.Event.Notes
import MissionScript.Proofs.Goal.Directives
import MissionScript.Proofs.Mission.Occasions

/-!
Directives in the course of a mission. What the formulas of events ask for is carried out in the same
tick, before the first attempt at a goal, and what the formulas of goals ask for is carried out in the
next one. So every directive is carried out once, in the order in which they have been asked for, and
nothing else changes which goals count.
-/

namespace MissionScript

section

variable {H : Type} [Host H]

namespace Occasion

/-- The directives that are asked for on an occasion. -/
def asked (registry : Registry) (o : Occasion H) : List Directive :=
  (o.after registry).ledger.directives.drop o.env.ledger.directives.length

/-- They wait behind those that have been there before, and they are what the nodes for directives in
    the formula have asked for. -/
theorem directives_after (registry : Registry) (o : Occasion H) :
    (o.after registry).ledger.directives = o.env.ledger.directives ++ o.asked registry ∧
      o.root.Asks registry (o.trace registry) (o.asked registry) := by
  obtain ⟨ds, hds, hasks⟩ := (frame_evaluate registry o.name o.root o.env).directives
  have heq : o.asked registry = ds := by
    rw [asked, after, hds, List.drop_left]
  rw [heq]
  exact ⟨hds, hasks⟩

/-- Occasions that hand on the directives add to them in order. -/
theorem HandOn.directives_eq {registry : Registry} {first last : List Directive}
    {os : List (Occasion H)}
    (h : HandOn (fun env => env.ledger.directives) registry first os last) :
    last = first ++ os.flatMap (·.asked registry) := by
  induction os generalizing first with
  | nil => exact h.trans (List.append_nil first).symm
  | cons o rest ih =>
    obtain ⟨rfl, hrest⟩ := h
    rw [ih hrest, List.flatMap_cons, ← List.append_assoc]
    exact congrArg (· ++ _) (o.directives_after registry).1

end Occasion

/-- The owners of the occasions of goals are the goals that are open. -/
theorem Goal.owner_occasions (registry : Registry) (now : Float) (place : Nat) (goals : List Goal)
    (env : Env H) : (occasions registry now place env goals).map (·.owner) =
      ((goals.zipIdx place).filter fun (g, _) => g.isOpen).map fun (_, i) => .goal i := by
  induction goals generalizing place env with
  | nil => rfl
  | cons g rest ih =>
    have hoccasion : (g.occasion? registry now place env).toList.map (·.owner) =
        if g.isOpen then [.goal place] else [] := by
      rw [occasion?]
      by_cases hopen : g.isOpen = true
      · rw [if_pos (evaluates_attempt_iff.2 hopen), if_pos hopen]
        rfl
      · rw [if_neg (mt evaluates_attempt_iff.1 hopen), if_neg hopen]
        rfl
    have hoccasions : occasions registry now place env (g :: rest) =
        (g.occasion? registry now place env).toList ++
          occasions registry now (place + 1) ((g.attempt registry now).run env).2 rest := rfl
    rw [hoccasions, List.map_append, hoccasion, ih, List.zipIdx_cons, List.filter_cons]
    dsimp only
    split <;> rfl

/-- No turn of an event tells whether a goal counts. -/
theorem Schedule.filter_isValidity_tick (registry : Registry) (s : Schedule) (env : Env H) :
    ((s.tick registry).run env).1.2.filter Notification.isValidity = [] := by
  rw [notes_tick, List.filter_eq_nil_iff]
  intro n hn
  obtain ⟨t, -, hn⟩ := List.mem_flatMap.1 hn
  unfold Turn.notes Event.announce at hn
  split at hn
  · split at hn
    · obtain rfl := List.mem_singleton.1 hn
      exact Bool.false_ne_true
    · cases hn
  · cases hn

namespace Run

/-- The occasions of the events in a tick. -/
def eventOccasions (r : Run) (host : H) : List (Occasion H) :=
  r.mission.schedule.occasions r.registry (Host.time host) (r.env host)
    (List.range r.mission.schedule.events.length)

/-- The occasions of the goals in a tick. -/
def goalOccasions (r : Run) (host : H) : List (Occasion H) :=
  Goal.occasions r.registry (r.attemptTime host) 0 (r.changesDone host).2
    (r.changesDone host).1.1.goals

/-- The directives that are asked for in a tick. -/
def asked (r : Run) (host : H) : List Directive :=
  (r.occasions host).flatMap (·.asked r.registry)

/-- The directives that are carried out in a tick: those that wait after the turns of the events. -/
def obeyed (r : Run) (host : H) : List Directive :=
  (r.eventsDone host).2.ledger.directives

/-- Whether directives are obeyed in a tick. -/
structure Obeys (r : Run) (host : H) : Prop where
  /-- what the nodes of a formula ask for waits behind what has been there before -/
  queued : ∀ o ∈ r.occasions host,
    (o.after r.registry).ledger.directives = o.env.ledger.directives ++ o.asked r.registry ∧
      o.root.Asks r.registry (o.trace r.registry) (o.asked r.registry)
  /-- the first event finds what the last tick has left, and what waits after the last is carried out -/
  events : Occasion.HandOn (fun env => env.ledger.directives) r.registry r.mission.ledger.directives
    (r.eventOccasions host) (r.obeyed host)
  obeyed : r.obeyed host =
    r.mission.ledger.directives ++ (r.eventOccasions host).flatMap (·.asked r.registry)
  changed : (r.changesDone host).1.1.goals = r.mission.tracker.goals.map (·.under (r.obeyed host))
  /-- one that names no goal makes no difference when its turn comes -/
  astray : ∀ earlier d later, r.obeyed host = earlier ++ d :: later →
    (∀ g ∈ r.mission.tracker.goals, sameName g.name d.goal = false) →
    r.mission.tracker.goals.map (·.under (earlier ++ [d])) =
        r.mission.tracker.goals.map (·.under earlier) ∧
      Goal.notice? (r.attemptTime host) (r.mission.tracker.goals.map (·.under earlier)) d = none
  /-- the goals that are open then are attempted -/
  attempted : (r.goalOccasions host).map (·.owner) =
    (((r.mission.tracker.goals.map (·.under (r.obeyed host))).zipIdx.filter
      fun (g, _) => g.isOpen).map fun (_, i) => .goal i)
  /-- the first of them finds that nothing waits -/
  goals : Occasion.HandOn (fun env => env.ledger.directives) r.registry []
    (r.goalOccasions host) (r.tick host).run.mission.ledger.directives
  left : (r.tick host).run.mission.ledger.directives =
    (r.goalOccasions host).flatMap (·.asked r.registry)
  kept : (r.tick host).run.mission.tracker.goals.map Goal.validity =
    (r.mission.tracker.goals.map (·.under (r.obeyed host))).map Goal.validity
  noted : (r.tick host).report.notifications.filter Notification.isValidity =
    Goal.notices (r.attemptTime host) r.mission.tracker.goals (r.obeyed host)

variable {r : Run}

/-- Goals of distinct names obey directives in every tick. -/
theorem obeys (h : r.mission.tracker.IsDistinct) (host : H) : r.Obeys host := by
  have hpart : Env.IsUnrecorded fun env : Env H => env.ledger.directives := fun _ _ _ => rfl
  have hevents : Occasion.HandOn (fun env => env.ledger.directives) r.registry
      r.mission.ledger.directives (r.eventOccasions host) (r.obeyed host) :=
    Schedule.handOn_turns hpart r.registry (Host.time host) r.mission.schedule (r.env host)
      (List.range r.mission.schedule.events.length)
  have hgoals : Occasion.HandOn (fun env => env.ledger.directives) r.registry [] (r.goalOccasions host)
      (r.tick host).run.mission.ledger.directives :=
    Goal.handOn_attemptAll hpart r.registry (r.attemptTime host) 0 (r.changesDone host).1.1.goals
      (r.changesDone host).2
  have hchanged : (r.changesDone host).1.1.goals =
      r.mission.tracker.goals.map (·.under (r.obeyed host)) :=
    congrArg (fun result => result.1.goals)
      (Tracker.obey_eq h (r.attemptTime host) (r.eventsDone host).2)
  obtain ⟨hkept, hnoted⟩ := Tracker.validity_tick h r.registry (r.eventsDone host).2
  refine ⟨fun o _ => o.directives_after r.registry, hevents, hevents.directives_eq, hchanged,
    fun earlier _ _ _ hstray => Goal.under_concat_of_not_named hstray earlier, ?_, hgoals,
    hgoals.directives_eq, hkept, ?_⟩
  · rw [← hchanged]
    exact Goal.owner_occasions ..
  · have hnotes : (r.tick host).report.notifications = (r.eventsDone host).1.2 ++
        ((r.mission.tracker.tick r.registry).run (r.eventsDone host).2).1.2 := rfl
    rw [hnotes, List.filter_append, hnoted]
    exact congrArg (· ++ _) (Schedule.filter_isValidity_tick r.registry _ (r.env host))

/-- What has been asked for in a course is what has been carried out, and what still waits. -/
theorem asked_along (h : r.mission.tracker.IsDistinct) (hosts : List H) :
    (r.after hosts).mission.tracker.IsDistinct ∧
      r.along obeyed hosts ++ (r.after hosts).mission.ledger.directives =
        r.mission.ledger.directives ++ r.along asked hosts := by
  induction hosts generalizing r with
  | nil => exact ⟨h, (List.append_nil _).symm⟩
  | cons host rest ih =>
    have htick := obeys h host
    have hnext : (r.tick host).run.mission.tracker.IsDistinct :=
      h.tick r.registry (r.eventsDone host).2
    obtain ⟨hdistinct, hrest⟩ := ih hnext
    have hasked : r.asked host = (r.eventOccasions host).flatMap (·.asked r.registry) ++
        (r.tick host).run.mission.ledger.directives := by
      rw [htick.left]
      exact List.flatMap_append
    refine ⟨hdistinct, ?_⟩
    calc r.along obeyed (host :: rest) ++ (r.after (host :: rest)).mission.ledger.directives
      _ = r.obeyed host ++ ((r.tick host).run.along obeyed rest ++
            ((r.tick host).run.after rest).mission.ledger.directives) := List.append_assoc ..
      _ = r.obeyed host ++ (r.tick host).run.mission.ledger.directives ++
            (r.tick host).run.along asked rest := by rw [hrest, List.append_assoc]
      _ = r.mission.ledger.directives ++ (r.asked host ++ (r.tick host).run.along asked rest) := by
        rw [htick.obeyed, hasked]
        simp only [List.append_assoc]

/-- The end of a mission does not change which goals count. -/
theorem validity_resolve (r : Run) :
    r.resolve.1.mission.tracker.goals.map Goal.validity = r.mission.tracker.goals.map Goal.validity ∧
      r.resolve.2.filter Notification.isValidity = [] := by
  unfold resolve
  -- in both cases the outcome is looked at once more
  cases r.failsOpen with
  | false =>
    obtain ⟨hgoals, hends⟩ := r.mission.tracker.validity_refresh true r.time
    exact ⟨congrArg (List.map Goal.validity) hgoals, hends⟩
  | true =>
    have hfailed := r.mission.tracker.validity_failIncomplete r.time r.mission.ledger
    generalize r.mission.tracker.failIncomplete r.time r.mission.ledger = result at hfailed ⊢
    obtain ⟨t, failed, ledger⟩ := result
    obtain ⟨hsame, hmoves⟩ := hfailed
    obtain ⟨hgoals, hends⟩ := t.validity_refresh true r.time
    refine ⟨(congrArg (List.map Goal.validity) hgoals).trans hsame, ?_⟩
    exact (List.filter_append ..).trans (congrArg₂ (· ++ ·) hmoves hends)

theorem validity_finish (r : Run) :
    r.finish.goals.map (fun g => (g.name, g.invalid)) = r.mission.tracker.goals.map Goal.validity ∧
      r.finish.notifications.filter Notification.isValidity = [] := by
  obtain ⟨hsame, hnotes⟩ := r.validity_resolve
  exact ⟨(List.map_map ..).trans hsame, hnotes⟩

end Run

variable {definition : Definition} {loader : Registry} {settings : Settings} {saved : Snapshot}
  {mission : Mission}

namespace Mission

/-- Nothing is asked for in a mission that has just been loaded. -/
theorem directives_load (hload : load definition loader settings saved = .ok mission) :
    mission.ledger.directives = [] := by
  obtain ⟨events, goals, hledger⟩ := ledger_load hload
  rw [hledger]
  rfl

/-- The directives in a course of a loaded mission. Every tick obeys them; what has been asked for is
    what has been carried out, in the same order, and what still waits; and the end of the mission
    leaves it at that. -/
theorem directives_obeyed (hload : load definition loader settings saved = .ok mission)
    (registry : Registry) (settings' : Settings) (hosts : List H) :
    let start := Run.start mission registry settings'
    let r := start.after hosts
    (∀ host : H, r.Obeys host) ∧
      start.along Run.asked hosts = start.along Run.obeyed hosts ++ r.mission.ledger.directives ∧
      r.finish.goals.map (fun g => (g.name, g.invalid)) = r.mission.tracker.goals.map Goal.validity ∧
      r.finish.notifications.filter Notification.isValidity = [] := by
  obtain ⟨-, -, -, -, htracker, -⟩ := load_eq hload
  have hdistinct : (Run.start mission registry settings').mission.tracker.IsDistinct :=
    isDistinct_trackAll htracker
  obtain ⟨hafter, hasked⟩ := Run.asked_along hdistinct hosts
  have hnothing : (Run.start mission registry settings').mission.ledger.directives = [] :=
    directives_load hload
  rw [hnothing, List.nil_append] at hasked
  exact ⟨Run.obeys hafter, hasked.symm, Run.validity_finish _⟩

end Mission

end

namespace Ambush

/-- A mission in which an event makes up its mind about a tug, and the goals speak for each other. -/
def definition : Definition where
  name := "Ambush"
  vars := []
  events := [⟨"Ambush",
    "(when (true) (invalidate-goal \"Tug\") (validate-goal \"TUG\") (invalidate-goal \"tug\" \"Ghost\"))",
    1, 0, 0, none, 0, none⟩]
  goals := [⟨"Tug", "(when (true) (validate-goal \"Scan\"))", .primary, 100, 0, false⟩,
    ⟨"Scan", "(when (true) (validate-goal \"tug\") (invalidate-goal \"Scan\"))", .bonus, 7, 0, false⟩]

/-- The games of two ticks, five seconds apart. -/
def games : List Simulation :=
  let game := Simulation.start ⟨[], []⟩ (.rolls [])
  [game, game.setTime 5]

def noted (r : Run) (game : Simulation) : List Notification :=
  (r.tick game).report.notifications.filter Notification.isValidity

/-- What is told of a course: what has been carried out and notified, what still waits, and which goals
    count. -/
structure Account where
  obeyed : List Directive
  noted : List Notification
  waiting : List Directive
  goals : List (String × Bool)
  deriving DecidableEq

def account? : Option Account :=
  (Mission.load definition Registry.builtin .builtin .empty).toOption.map fun mission =>
    let start := Run.start mission Registry.builtin .builtin
    let r := start.after games
    ⟨start.along Run.obeyed games, start.along noted games, r.mission.ledger.directives,
      r.mission.tracker.goals.map Goal.validity⟩

/-- In the first tick the event is obeyed, and in the second one what the scan has asked for in the
    first. The tug, which counts again, is attempted in the second one only; and there is no ghost. -/
def expected : Account where
  obeyed := [⟨"Tug", true⟩, ⟨"TUG", false⟩, ⟨"tug", true⟩, ⟨"Ghost", true⟩, ⟨"tug", false⟩,
    ⟨"Scan", true⟩]
  noted := [.goalValidity "Tug" true 0, .goalValidity "Tug" false 0, .goalValidity "Tug" true 0,
    .goalValidity "Tug" false 5, .goalValidity "Scan" true 5]
  waiting := [⟨"Scan", false⟩]
  goals := [("Tug", false), ("Scan", true)]

end Ambush

open Ambush in
/-- What the tug asks for is still waiting after two ticks. -/
theorem Mission.directives_obeyed_ambush : ∃ mission,
    load definition Registry.builtin .builtin .empty = .ok mission ∧
    let start := Run.start mission Registry.builtin .builtin
    let r := start.after games
    start.along Run.obeyed games = expected.obeyed ∧ start.along noted games = expected.noted ∧
    r.mission.ledger.directives = expected.waiting ∧
    r.mission.tracker.goals.map Goal.validity = expected.goals ∧
    (∀ game : Simulation, r.Obeys game) ∧
    start.along Run.asked games = expected.obeyed ++ expected.waiting ∧
    r.finish.goals.map (fun g => (g.name, g.invalid)) = expected.goals := by
  have haccount : account? = some expected := by decide +kernel
  obtain ⟨mission, hload, heq⟩ := Option.map_eq_some_iff.1 haccount
  have hload := toOption_eq_some_iff.1 hload
  obtain ⟨hobeyed, hnoted, hwaiting, hgoals⟩ := Account.mk.inj heq
  obtain ⟨hobeys, hasked, hfinish, -⟩ :=
    directives_obeyed hload Registry.builtin .builtin games
  exact ⟨mission, hload, hobeyed, hnoted, hwaiting, hgoals, hobeys,
    hasked.trans (congrArg₂ (· ++ ·) hobeyed hwaiting), hfinish.trans hgoals⟩

end MissionScript

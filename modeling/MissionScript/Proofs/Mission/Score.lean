import MissionScript.Proofs.Event.Notes
import MissionScript.Proofs.Goal.Pass
import MissionScript.Proofs.Mission.Course

/-!
The score of a mission. What is notified adds up to what the events and goals have earned by then:
every event its score as often as it has fired, and every goal that is complete its score once.
-/

namespace MissionScript

namespace Notification

variable {ns : List Notification}

theorem totalScore_eq_sum (ns : List Notification) : totalScore ns = (ns.map score).sum := by
  rw [totalScore, List.sum_eq_foldr, List.foldr_map]

theorem totalScore_append (ns ns' : List Notification) :
    totalScore (ns ++ ns') = totalScore ns + totalScore ns' := by
  rw [totalScore_eq_sum, totalScore_eq_sum, totalScore_eq_sum, List.map_append, List.sum_append]

theorem totalScore_eq_zero (h : ∀ n ∈ ns, n.score = 0) : totalScore ns = 0 := by
  rw [totalScore_eq_sum]
  exact List.sum_eq_zero (by simpa using h)

end Notification

/-- What events have earned: each its score as often as it has fired. -/
def Event.earned (events : List Event) : Int :=
  (events.map fun e => e.score * (e.triggers : Int)).sum

/-- What goals have earned: those that are complete their score, whether or not they count. -/
def Goal.earned (goals : List Goal) : Int :=
  ((goals.filter (·.status = .complete)).map (·.score)).sum

namespace Schedule

variable {s s' : Schedule} {t : Turn} {turns : List Turn}

/-- A change to one event changes what all have earned as it changes what that one has. -/
theorem earned_modify {events : List Event} {i : Nat} {e : Event} {f : Event → Event}
    (hi : events[i]? = some e) (hscore : (f e).score = e.score) :
    Event.earned (events.modify i f) =
      Event.earned events + e.score * ((f e).triggers - e.triggers : Int) := by
  induction events generalizing i with
  | nil => cases hi
  | cons first rest ih =>
    cases i with
    | zero =>
      obtain rfl : first = e := Option.some.inj hi
      rw [List.modify_zero_cons, Event.earned, Event.earned, List.map_cons, List.map_cons,
        List.sum_cons, List.sum_cons, hscore]
      ring
    | succ i =>
      have hrest := ih hi
      rw [Event.earned, Event.earned] at hrest
      rw [List.modify_succ_cons, Event.earned, Event.earned, List.map_cons, List.map_cons,
        List.sum_cons, List.sum_cons, hrest, add_assoc]

/-- A turn counts whether its event has fired. -/
theorem triggers_turned (e : Event) (now : Float) (reading : Option Truth) :
    ((e.turned now reading).triggers : Int) =
      e.triggers + if reading.any Truth.isTrue then 1 else 0 := by
  cases reading with
  | none =>
    rw [Event.turned]
    split <;> simp [Event.exhaust]
  | some reading =>
    cases reading with
    | trueNow | knownTrue =>
      rw [Event.turned, Event.settle, Event.fire_eq]
      rfl
    | knownFalse | falseNow | unknown => exact (Int.add_zero _).symm

/-- What a turn notifies is what the events have earned by it. -/
theorem Turn.IsSound.earned (ht : t.IsSound) : Event.earned t.after.events =
    Event.earned t.before.events + Notification.totalScore t.notes := by
  rw [ht.after_eq]
  rcases ht.notes_cases with ⟨hfires, hnotes⟩ | ⟨hfires, e, hi, hnotes⟩
  · have hsame (e : Event) : (e.turned t.now t.reading).score *
        ((e.turned t.now t.reading).triggers : Int) = e.score * (e.triggers : Int) := by
      rw [triggers_turned, (e.turned_score_objective t.now t.reading).1, ← Turn.fires, hfires]
      simp
    rw [hnotes, Event.earned, map_modify_eq hsame]
    exact (Int.add_zero _).symm
  · have hearned := earned_modify (f := (·.turned t.now t.reading)) hi
      (e.turned_score_objective t.now t.reading).1
    rw [triggers_turned, ← Turn.fires, hfires] at hearned
    rw [hearned, hnotes, Notification.totalScore_eq_sum]
    simp [Notification.score]

theorem Turns.earned (h : Turns s turns s') : Event.earned s'.events =
    Event.earned s.events + Notification.totalScore (turns.flatMap Turn.notes) := by
  induction h with
  | nil => exact (Int.add_zero _).symm
  | cons ht _ ih =>
    rw [ih, ht.earned, List.flatMap_cons, Notification.totalScore_append, add_assoc]

/-- Events that have not had any turn have earned nothing. -/
theorem Past.earned_eq_zero (h : Past s []) : Event.earned s.events = 0 := by
  refine List.sum_eq_zero fun x hx => ?_
  obtain ⟨e, he, rfl⟩ := List.mem_map.1 hx
  obtain ⟨i, hi⟩ := List.mem_iff_getElem?.1 he
  have hnever : e.triggers = 0 := (h.recounts i e hi).triggers
  rw [hnever]
  exact Int.mul_zero _

/-- What a tick notifies of events is what they have earned by it. -/
theorem earned_tick {H : Type} [Host H] (registry : Registry) (s : Schedule) (env : Env H) :
    Event.earned ((s.tick registry).run env).1.1.events =
      Event.earned s.events + Notification.totalScore ((s.tick registry).run env).1.2 := by
  rw [notes_tick]
  exact (turns_ticked registry s env).earned

end Schedule

namespace Goal

variable {goals goals' : List Goal}

theorem earned_eq_sum (goals : List Goal) :
    earned goals = (goals.map fun g => g.scoreOf g.status).sum := by
  induction goals with
  | nil => rfl
  | cons g rest ih =>
    rw [earned] at ih
    rw [earned, List.filter_cons, List.map_cons, List.sum_cons, scoreOf]
    split
    · next hcomplete => rw [if_pos (of_decide_eq_true hcomplete), List.map_cons, List.sum_cons, ih]
    · next hother => rw [if_neg fun h => hother (decide_eq_true h), Int.zero_add, ih]

theorem earned_cons (g : Goal) (goals : List Goal) :
    earned (g :: goals) = g.scoreOf g.status + earned goals := by
  rw [earned_eq_sum, List.map_cons, List.sum_cons, ← earned_eq_sum]

theorem earned_of_incomplete (h : ∀ g ∈ goals, g.status = .incomplete) : earned goals = 0 := by
  rw [earned_eq_sum]
  refine List.sum_eq_zero fun x hx => ?_
  obtain ⟨g, hg, rfl⟩ := List.mem_map.1 hx
  rw [h g hg]
  rfl

/-- Goals that are failed because the mission ends earn nothing. -/
theorem totalScore_failOpen (now : Float) (goals : List Goal) (ledger : Ledger) :
    Notification.totalScore (failOpen now goals ledger).2.1 = 0 := by
  induction goals generalizing ledger with
  | nil => rfl
  | cons g rest ih =>
    rw [failOpen]
    split
    · have hfirst : Notification.totalScore (g.moved .failed now ::
          (failOpen now rest (ledger.goalChanged g.name .failed now)).2.1) =
            0 + Notification.totalScore
              (failOpen now rest (ledger.goalChanged g.name .failed now)).2.1 := rfl
      exact hfirst.trans ((Int.zero_add _).trans (ih _))
    · exact ih _

/-- It does not matter whether goals count. -/
theorem earned_of_sameButValidity (h : List.Forall₂ SameButValidity goals goals') :
    earned goals' = earned goals := by
  rw [earned_eq_sum, map_eq_of_sameButValidity h fun _ _ => rfl, ← earned_eq_sum]

/-- A goal that is open has earned nothing yet, so what is notified is what it earns. -/
theorem Decides.earned {now : Float} {ns : List Notification} (h : Decides now goals goals' ns) :
    Goal.earned goals' = Goal.earned goals + Notification.totalScore ns := by
  induction h with
  | nil => rfl
  | keep g _ ih => rw [earned_cons, earned_cons, ih, add_assoc]
  | @move goals goals' ns g status hopen _ _ ih =>
    have hnothing : g.scoreOf g.status = 0 := by
      rw [(isOpen_iff.1 hopen).2]
      rfl
    have hmoved : Notification.totalScore (g.moved status now :: ns) =
        g.scoreOf status + Notification.totalScore ns := rfl
    have hscore : (g.move status).scoreOf (g.move status).status = g.scoreOf status := rfl
    rw [earned_cons, earned_cons, ih, hnothing, hmoved, hscore]
    ring

end Goal

namespace Tracker

variable {t t' : Tracker} {now : Float} {ns : List Notification}

/-- Looking at the outcome earns nothing. -/
theorem earned_refresh (t : Tracker) (finished : Bool) (now : Float) :
    (t.refresh finished now).1.goals = t.goals ∧
      Notification.totalScore (t.refresh finished now).2 = 0 := by
  obtain ⟨hgoals, hnotes⟩ := t.refresh_spec finished now
  refine ⟨hgoals, Notification.totalScore_eq_zero fun n hn => ?_⟩
  obtain ⟨outcome, rfl⟩ := hnotes n hn
  rfl

/-- What a pass over goals notifies is what they have earned by it. -/
theorem Passes.earned (h : t.Passes now t' ns) :
    Goal.earned t'.goals = Goal.earned t.goals + Notification.totalScore ns := by
  cases h with
  | @pass changed decided changes moves hchanged hchanges hdecided =>
    have hnothing : Notification.totalScore changes = 0 := by
      refine Notification.totalScore_eq_zero fun n hn => ?_
      obtain ⟨goal, invalid, rfl⟩ := hchanges n hn
      rfl
    obtain ⟨hgoals, hends⟩ := earned_refresh { t with goals := decided } false now
    rw [hgoals, Notification.totalScore_append, Notification.totalScore_append, hnothing, hends,
      hdecided.earned, Goal.earned_of_sameButValidity hchanged]
    ring

/-- Failing what is still open earns nothing. -/
theorem earned_failIncomplete (t : Tracker) (now : Float) (ledger : Ledger) :
    Goal.earned (t.failIncomplete now ledger).1.goals = Goal.earned t.goals ∧
      Notification.totalScore (t.failIncomplete now ledger).2.1 = 0 := by
  have hnotes : Notification.totalScore (t.failIncomplete now ledger).2.1 = 0 := by
    have hends := (earned_refresh
      { t with goals := (Goal.failOpen now t.goals ledger).1 } false now).2
    rw [failIncomplete, Notification.totalScore_append, hends, Goal.totalScore_failOpen,
      Int.add_zero]
  refine ⟨?_, hnotes⟩
  rw [(t.passes_failIncomplete now ledger).earned, hnotes, Int.add_zero]

end Tracker

namespace Run

/-- What the events and goals of a mission have earned. -/
def earned (r : Run) : Int :=
  Event.earned r.mission.schedule.events + Goal.earned r.mission.tracker.goals

/-- The courses of a run: what comes of it, and the reports of its ticks. In between somebody may
    begin to listen, and variables may be changed. -/
inductive Course (start : Run) : Run → List TickReport → Prop where
  | start : Course start start []
  | listen {r : Run} {reports : List TickReport} (h : Course start r reports) :
    Course start r.listen reports
  | change {r : Run} {reports : List TickReport} (h : Course start r reports) (vars : Variables) :
    Course start { r with mission := { r.mission with vars } } reports
  | tick {H : Type} [Host H] {r : Run} {reports : List TickReport} (h : Course start r reports)
    (host : H) : Course start (r.tick host).run (reports ++ [(r.tick host).report])

variable {H : Type} [Host H]

/-- What a tick adds to the score is what events and goals have earned by it. -/
theorem earned_tick (r : Run) (host : H) :
    (r.tick host).run.earned = r.earned + (r.tick host).report.score ∧
      (r.tick host).run.score = r.score + (r.tick host).report.score := by
  refine ⟨?_, rfl⟩
  have hevents : Event.earned (r.eventsDone host).1.1.events =
      Event.earned r.mission.schedule.events + Notification.totalScore (r.eventsDone host).1.2 :=
    Schedule.earned_tick r.registry r.mission.schedule (r.env host)
  have hgoals := (r.mission.tracker.passes_tick r.registry (r.eventsDone host).2).earned
  have hreport : (r.tick host).report.score = Notification.totalScore ((r.eventsDone host).1.2 ++
      ((r.mission.tracker.tick r.registry).run (r.eventsDone host).2).1.2) := rfl
  have hrun : (r.tick host).run.earned =
      Event.earned (r.eventsDone host).1.1.events +
        Goal.earned ((r.mission.tracker.tick r.registry).run (r.eventsDone host).2).1.1.goals := rfl
  rw [hreport, Notification.totalScore_append, hrun, hevents, hgoals, earned]
  ring

end Run

/-- What is told of items, taken together with the entries that they have been made from. -/
theorem zipWith_of_map_eq {α β γ κ : Type} {entries : List α} {items : List β} {price : α → κ}
    {price' : β → κ} (told : β → γ) (worth : α → γ → Int) (earned : β → Int)
    (h : items.map price' = entries.map price)
    (hworth : ∀ a b, price' b = price a → worth a (told b) = earned b) :
    List.zipWith worth entries (items.map told) = items.map earned := by
  induction entries generalizing items with
  | nil =>
    obtain rfl := List.map_eq_nil_iff.1 h
    rfl
  | cons a rest ih =>
    obtain ⟨b, others, rfl, hprice, hrest⟩ := List.map_eq_cons_iff.1 h
    rw [List.map_cons, List.map_cons, List.zipWith_cons_cons, hworth a b hprice, ih hrest]

/-- The name of an event and its score. -/
def Event.price (e : Event) : String × Int :=
  (e.name, e.score)

def Goal.price (g : Goal) : String × Int :=
  (g.name, g.score)

def EventEntry.price (entry : EventEntry) : String × Int :=
  (entry.name, entry.score)

def GoalEntry.price (entry : GoalEntry) : String × Int :=
  (entry.name, entry.score)

/-- Whether the events and goals of a mission have the names and scores of their entries. -/
structure Mission.IsPriced (mission : Mission) (definition : Definition) : Prop where
  events : mission.schedule.events.map Event.price = definition.events.map EventEntry.price
  goals : mission.tracker.goals.map Goal.price = definition.goals.map GoalEntry.price

/-- What events and goals of a definition have earned if this has become of them. -/
def Definition.earned (definition : Definition) (summary : Summary) : Int :=
  (List.zipWith (fun entry e => entry.score * (e.triggers : Int)) definition.events
      summary.events).sum +
    (List.zipWith (fun entry g => if g.status = .complete then entry.score else 0) definition.goals
      summary.goals).sum

namespace Mission

variable {definition : Definition} {registry : Registry} {settings : Settings} {saved : Snapshot}
  {mission : Mission}

theorem price_scheduleAll {options : ParseOptions} {entries : List EventEntry} {s : Schedule}
    (h : scheduleAll registry options entries = .ok s) :
    s.events.map Event.price = entries.map EventEntry.price := by
  obtain ⟨added, hadded, hchained⟩ := scheduleAll_eq_ok_iff.1 h
  have hevents : added.events.map Event.price = entries.map EventEntry.price := by
    refine foldlM_invariant
      (P := fun s done => s.events.map Event.price = done.map EventEntry.price)
      (fun done entry _ s s' _ hs hadd => ?_) rfl hadded
    obtain ⟨formula, -, hevent⟩ := addEvent_eq_ok hadd
    rw [Schedule.add_eq_ok hevent, List.map_append, hs, List.map_append]
    rfl
  rwa [map_events_chainAll (fun _ _ => rfl) hchained]

theorem price_trackAll {options : ParseOptions} {failsEarly : Bool} {entries : List GoalEntry}
    {t : Tracker} (h : trackAll registry options failsEarly entries = .ok t) :
    t.goals.map Goal.price = entries.map GoalEntry.price ∧
      ∀ g ∈ t.goals, g.status = .incomplete := by
  refine foldlM_invariant (P := fun t done => t.goals.map Goal.price = done.map GoalEntry.price ∧
    ∀ g ∈ t.goals, g.status = .incomplete)
    (fun done entry _ t t' _ ⟨ht, hopen⟩ hadd => ?_) ⟨rfl, List.forall_mem_nil _⟩ h
  obtain ⟨formula, -, -, rfl⟩ := addGoal_eq_ok hadd
  rw [Tracker.add, List.map_append, List.map_append, ht]
  exact ⟨rfl, List.forall_mem_append.2 ⟨hopen, List.forall_mem_singleton.2 rfl⟩⟩

/-- The events and goals of a mission that is loaded are those of its definition, and they have
    earned nothing yet. -/
theorem isPriced_load (h : load definition registry settings saved = .ok mission) :
    mission.IsPriced definition ∧ Event.earned mission.schedule.events = 0 ∧
      Goal.earned mission.tracker.goals = 0 := by
  obtain ⟨-, -, -, hschedule, htracker, -⟩ := load_eq h
  obtain ⟨hgoals, hopen⟩ := price_trackAll htracker
  exact ⟨⟨price_scheduleAll hschedule, hgoals⟩, (past_scheduleAll hschedule).earned_eq_zero,
    Goal.earned_of_incomplete hopen⟩

end Mission

namespace Run

variable {definition : Definition} {r start : Run} {reports : List TickReport}

/-- No tick changes what events and goals are called or what they add to the score. -/
theorem isPriced_tick {H : Type} [Host H] (h : r.mission.IsPriced definition) (host : H) :
    (r.tick host).run.mission.IsPriced definition := by
  constructor
  · refine Eq.trans ?_ h.events
    refine (Schedule.turns_ticked r.registry r.mission.schedule (r.env host)).map_eq
      fun e now reading => ?_
    rw [Event.price, Event.price, (e.turned_name_chain now reading).1,
      (e.turned_score_objective now reading).1]
  · refine Eq.trans ?_ h.goals
    exact (r.mission.tracker.passes_tick r.registry (r.eventsDone host).2).map_eq (fun _ _ => rfl)
      fun _ _ => rfl

/-- The end of a mission adds nothing to the score. -/
theorem score_finish (r : Run) : r.finish.score = r.score := by
  have hnotes : Notification.totalScore r.resolve.2 = 0 := by
    unfold resolve
    -- in both cases the outcome is looked at once more, which is worth nothing
    cases r.failsOpen with
    | false => exact (r.mission.tracker.earned_refresh true r.time).2
    | true =>
      have hfailed := (r.mission.tracker.earned_failIncomplete r.time r.mission.ledger).2
      generalize r.mission.tracker.failIncomplete r.time r.mission.ledger = result at hfailed ⊢
      obtain ⟨t, failed, ledger⟩ := result
      have hends := (t.earned_refresh true r.time).2
      exact (Notification.totalScore_append _ _).trans
        ((congrArg₂ (· + ·) hfailed hends).trans (Int.add_zero 0))
  exact (congrArg (r.score + ·) hnotes).trans (Int.add_zero r.score)

/-- Nobody earns anything by the end of a mission. -/
theorem earned_resolve (r : Run) (h : r.mission.IsPriced definition) :
    r.resolve.1.earned = r.earned ∧ r.resolve.1.mission.IsPriced definition := by
  unfold resolve
  cases r.failsOpen with
  | false =>
    obtain ⟨hgoals, -⟩ := r.mission.tracker.earned_refresh true r.time
    refine ⟨congrArg (Event.earned r.mission.schedule.events + Goal.earned ·) hgoals, h.events, ?_⟩
    exact (congrArg (List.map Goal.price) hgoals).trans h.goals
  | true =>
    have hpass := r.mission.tracker.passes_failIncomplete r.time r.mission.ledger
    obtain ⟨hfailed, -⟩ := r.mission.tracker.earned_failIncomplete r.time r.mission.ledger
    have hprice := hpass.map_eq (f := Goal.price) (fun _ _ => rfl) fun _ _ => rfl
    generalize r.mission.tracker.failIncomplete r.time r.mission.ledger = result
      at hfailed hprice ⊢
    obtain ⟨t, failed, ledger⟩ := result
    obtain ⟨hgoals, -⟩ := t.earned_refresh true r.time
    refine ⟨?_, h.events, ?_⟩
    · exact congrArg (Event.earned r.mission.schedule.events + ·)
        ((congrArg Goal.earned hgoals).trans hfailed)
    · exact (congrArg (List.map Goal.price) hgoals).trans (hprice.trans h.goals)

/-- What a summary tells of events and goals comes with what they add to the score. -/
theorem earned_summary (r : Run) (h : r.mission.IsPriced definition) (ns : List Notification) :
    definition.earned (r.summary ns) = r.earned := by
  have hevents := zipWith_of_map_eq eventSummary
    (fun entry (e : EventSummary) => entry.score * (e.triggers : Int))
    (fun e => e.score * (e.triggers : Int)) h.events fun entry e hprice => by
      rw [← (Prod.mk.inj hprice).2]
      rfl
  have hgoals := zipWith_of_map_eq goalSummary
    (fun entry (g : GoalSummary) => if g.status = .complete then entry.score else 0)
    (fun g => g.scoreOf g.status) h.goals fun entry g hprice => by
      rw [← (Prod.mk.inj hprice).2]
      rfl
  rw [earned, Goal.earned_eq_sum, Event.earned, ← hevents, ← hgoals]
  rfl

/-- Along a course the score is what has been earned, and what the reports add up to. -/
theorem Course.balanced (h : start.Course r reports) (hpriced : start.mission.IsPriced definition)
    (hstart : start.score = 0 ∧ start.earned = 0) :
    r.mission.IsPriced definition ∧ r.score = r.earned ∧ r.score = (reports.map (·.score)).sum := by
  induction h with
  | start => exact ⟨hpriced, hstart.1.trans hstart.2.symm, hstart.1⟩
  | listen _ ih => exact ih
  | change _ _ ih => exact ⟨⟨ih.1.events, ih.1.goals⟩, ih.2⟩
  | @tick H _ r reports _ host ih =>
    obtain ⟨hpriced, hearned, hreports⟩ := ih
    obtain ⟨hearned', hscore'⟩ := r.earned_tick host
    refine ⟨isPriced_tick hpriced host, ?_, ?_⟩
    · rw [hscore', hearned', hearned]
    · rw [hscore', hreports, List.map_append, List.sum_append, List.map_singleton,
        List.sum_singleton]

/-- The score of a mission is conserved. At every point of a run it is what events have earned, each
    its score as often as it has fired, and what goals have earned that are complete, whether or not
    they count; and it is what the reports of all ticks add up to. The end of the mission adds
    nothing to it, so the summary has the score that its counts of fires and its goals amount to. -/
theorem Course.score_conserved {registry registry' : Registry} {settings settings' : Settings}
    {saved : Snapshot} {mission : Mission}
    (hload : Mission.load definition registry settings saved = .ok mission)
    (h : (Run.start mission registry' settings').Course r reports) :
    r.score = Event.earned r.mission.schedule.events + Goal.earned r.mission.tracker.goals ∧
      r.score = (reports.map (·.score)).sum ∧
      r.finish.score = r.score ∧ r.finish.score = definition.earned r.finish ∧
      r.finish.events.map (·.name) = definition.events.map (·.name) ∧
      r.finish.goals.map (·.name) = definition.goals.map (·.name) := by
  obtain ⟨hpriced, hevents, hgoals⟩ := Mission.isPriced_load hload
  have hnothing : Event.earned mission.schedule.events + Goal.earned mission.tracker.goals = 0 := by
    rw [hevents, hgoals, Int.add_zero]
  obtain ⟨hpriced', hearned, hreports⟩ := h.balanced hpriced ⟨rfl, hnothing⟩
  have hscore := r.score_finish
  obtain ⟨hsame, hresolved⟩ := r.earned_resolve hpriced'
  have hsummary := r.resolve.1.earned_summary hresolved r.resolve.2
  refine ⟨hearned, hreports, hscore, ?_, ?_, ?_⟩
  · exact hscore.trans (hearned.trans (hsame.symm.trans hsummary.symm))
  · have hnames := congrArg (List.map Prod.fst) hresolved.events
    rw [List.map_map, List.map_map] at hnames
    exact (List.map_map ..).trans hnames
  · have hnames := congrArg (List.map Prod.fst) hresolved.goals
    rw [List.map_map, List.map_map] at hnames
    exact (List.map_map ..).trans hnames

end Run

namespace Sweep

/-- A mission in which an area is swept up to three times while a base is held. The base does not
    count any more when it has been held. -/
def definition : Definition where
  name := "Sweep"
  vars := []
  events := [⟨"Sweep", "(true)", 3, 2, 0, none, 5, none⟩]
  goals := [⟨"Hold", "(has-time-elapsed 3)", .primary, 100, 0, false⟩,
    ⟨"Report", "(when (is-goal-true \"Hold\") (invalidate-goal \"hold\"))", .bonus, 7, 0, false⟩,
    ⟨"Convoy", "(false)", .secondary, 50, 0, false⟩]

/-- The run and the reports of its ticks at several times. -/
def fly (r : Run) (reports : List TickReport) : List Float → Run × List TickReport
  | [] => (r, reports)
  | time :: rest =>
    let ticked := r.tick ((Simulation.start ⟨[], []⟩ (.rolls [])).setTime time)
    fly ticked.run (reports ++ [ticked.report]) rest

theorem course_fly {start r : Run} {reports : List TickReport} (h : start.Course r reports)
    (times : List Float) : start.Course (fly r reports times).1 (fly r reports times).2 := by
  induction times generalizing r reports with
  | nil => exact h
  | cons time rest ih => exact ih (h.tick _)

/-- The reports of a flight, and what becomes of the events and goals. -/
def flight? : Option (List Int × Int × List Nat × List (GoalStatus × Bool)) :=
  (Mission.load definition Registry.builtin .builtin .empty).toOption.map fun mission =>
    let (r, reports) := fly (Run.start mission Registry.builtin .builtin) [] [0, 2, 3, 4, 9]
    (reports.map (·.score), r.finish.score, r.finish.events.map (·.triggers),
      r.finish.goals.map fun g => (g.status, g.invalid))

theorem flight?_eq_some {x : List Int × Int × List Nat × List (GoalStatus × Bool)}
    (h : flight? = some x) : ∃ mission,
      Mission.load definition Registry.builtin .builtin .empty = .ok mission ∧
      let (r, reports) := fly (Run.start mission Registry.builtin .builtin) [] [0, 2, 3, 4, 9]
      (reports.map (·.score), r.finish.score, r.finish.events.map (·.triggers),
        r.finish.goals.map fun g => (g.status, g.invalid)) = x := by
  obtain ⟨mission, hload, hflight⟩ := Option.map_eq_some_iff.1 h
  exact ⟨mission, toOption_eq_some_iff.1 hload, hflight⟩

end Sweep

open Sweep in
/-- The area is swept three times, and the goal that does not count any more has earned its
    score. -/
theorem Run.Course.score_conserved_sweep : ∃ mission r reports,
    Mission.load definition Registry.builtin .builtin .empty = .ok mission ∧
    (Run.start mission Registry.builtin .builtin).Course r reports ∧
    reports.map (·.score) = [5, 5, 107, 5, 0] ∧ r.score = 122 ∧
    r.finish.events.map (·.triggers) = [3] ∧
    r.finish.goals.map (fun g => (g.status, g.invalid)) =
      [(.complete, true), (.complete, false), (.failed, false)] ∧
    r.finish.score = definition.earned r.finish := by
  have hflight : flight? = some ([5, 5, 107, 5, 0], 122, [3],
      [(.complete, true), (.complete, false), (.failed, false)]) := by decide +kernel
  obtain ⟨mission, hload, hsweep⟩ := flight?_eq_some hflight
  have hstart : (Run.start mission Registry.builtin .builtin).Course _ [] := .start
  have hcourse := course_fly hstart [0, 2, 3, 4, 9]
  obtain ⟨-, -, hfinish, hsummary, -, -⟩ := hcourse.score_conserved hload
  simp only [Prod.mk.injEq] at hsweep
  obtain ⟨hreports, hscore, htriggers, hgoals⟩ := hsweep
  exact ⟨mission, _, _, hload, hcourse, hreports, hfinish.symm.trans hscore, htriggers, hgoals,
    hsummary⟩

end MissionScript

import MissionScript.Proofs.Event.Record
import MissionScript.Proofs.Mission.History

/-!
Courses of runs: ticks one after the other, each in whatever state it finds the game. At every moment
of a course the records of the events fit the turns so far.
-/

namespace MissionScript

section

variable {H : Type} [Host H]

/-- What is gathered along a run that ticks in these states of the game. -/
def Run.along {α : Type} (gather : Run → H → List α) (r : Run) : List H → List α
  | [] => []
  | host :: rest => gather r host ++ (r.tick host).run.along gather rest

/-- The run after it has ticked in these states of the game. -/
def Run.after (r : Run) : List H → Run
  | [] => r
  | host :: rest => (r.tick host).run.after rest

/-- The moments of a tick, from its start on. -/
def Run.beats (r : Run) (host : H) : List (Beat H) :=
  let s := r.mission.schedule
  let ((t, _), changed) := r.changesDone host
  ⟨none, r.env host⟩ ::
    (s.beats r.registry (Host.time host) (r.env host) (List.range s.events.length) ++
      (changed :: Goal.moments r.registry (r.attemptTime host) changed t.goals).map (⟨none, ·⟩))

namespace Goal

variable {events : Table String EventRecord}

/-- Goals are not entered into the records of events. -/
theorem preserves_events_attempt (registry : Registry) (now : Float) (g : Goal) :
    Preserves (fun env : Env H => env.ledger.events = events) (g.attempt registry now) := by
  unfold attempt
  split
  · have hevaluate : Preserves (fun env : Env H => env.ledger.events = events)
        (evaluate registry g.name g.formula.root) :=
      fun env henv => ⟨trivial, (records_evaluate registry _ _ env).1.trans henv⟩
    refine hevaluate.bind fun value _ => ?_
    split
    · exact ensures_pure trivial
    · exact Ensures.bind (Q := fun _ => True) (ensures_modify fun _ henv => henv) fun _ _ =>
        ensures_pure trivial
  · exact ensures_pure trivial

theorem events_moments (registry : Registry) (now : Float) (goals : List Goal) {env : Env H}
    (h : env.ledger.events = events) :
    (∀ m ∈ Goal.moments registry now env goals, m.ledger.events = events) ∧
      ((attemptAll registry now goals).run env).2.ledger.events = events := by
  induction goals generalizing env with
  | nil => exact ⟨nofun, h⟩
  | cons g rest ih =>
    have hfirst := (preserves_events_attempt registry now g env h).2
    obtain ⟨hmoments, hend⟩ := ih hfirst
    exact ⟨List.forall_mem_cons.2 ⟨hfirst, hmoments⟩, hend⟩

end Goal

namespace Run

/-- Whether a run has come from these turns of events of these names. -/
structure Recalls (r : Run) (names : List String) (turns : List Schedule.Turn) : Prop where
  names_eq : r.mission.schedule.names = names
  tallies : r.mission.ledger.Tallies names turns
  past : Schedule.Past r.mission.schedule turns

theorem turns_beats (r : Run) (host : H) :
    Beat.turns (r.beats host) = r.mission.schedule.ticked r.registry (r.env host) := by
  have hgoals (ms : List (Env H)) : Beat.turns (ms.map fun env => ⟨none, env⟩) = [] := by
    rw [Beat.turns, List.filterMap_map]
    exact List.filterMap_eq_nil_iff.2 fun _ _ => rfl
  have hevents := Schedule.turns_beats r.registry (Host.time host) r.mission.schedule (r.env host)
    (List.range r.mission.schedule.events.length)
  rw [beats, Beat.turns_cons, Beat.turns, List.filterMap_append]
  change [] ++ (Beat.turns _ ++ Beat.turns _) = _
  rw [hgoals, hevents]
  exact (List.append_nil _).trans rfl

variable {r : Run} {names : List String} {past : List Schedule.Turn}

/-- Every tick enters its turns into the records, whatever the goals do then. -/
theorem Recalls.tick (h : r.Recalls names past) (hdistinct : (names.map foldName).Nodup) (host : H) :
    Beat.AreTallied names past (r.beats host) ∧
      (r.tick host).run.Recalls names (past ++ Beat.turns (r.beats host)) := by
  obtain ⟨hnames, htallies, hpast⟩ := h
  have hturns := Schedule.turns_ticked r.registry r.mission.schedule (r.env host)
  have hstart : (r.env host).ledger.Tallies names past := htallies
  obtain ⟨hevents, hdone⟩ := Schedule.areTallied_beats hnames hdistinct hstart r.registry
    (Host.time host) (List.range r.mission.schedule.events.length)
  have hdone' : (r.eventsDone host).2.ledger.Tallies names
      (past ++ r.mission.schedule.ticked r.registry (r.env host)) := by
    rw [eventsDone, Schedule.run_tick]
    exact hdone
  -- neither the changes that were asked for nor the attempts at goals are entered anywhere
  have hchanged : (r.changesDone host).2.ledger.events = (r.eventsDone host).2.ledger.events := rfl
  obtain ⟨hgoals, hend⟩ := Goal.events_moments r.registry (r.attemptTime host)
    (r.changesDone host).1.1.goals hchanged
  have hsame {env : Env H} (henv : env.ledger.events = (r.eventsDone host).2.ledger.events) :
      env.ledger.Tallies names (past ++ r.mission.schedule.ticked r.registry (r.env host)) := by
    intro i name hname
    rw [Ledger.event?, henv]
    exact hdone' i name hname
  rw [turns_beats]
  refine ⟨⟨?_, Beat.areTallied_append.2 ⟨?_, ?_⟩⟩, ?_, hsame hend, hpast.append hturns⟩
  · exact (List.append_nil past).symm ▸ htallies
  · exact (List.append_nil past).symm ▸ hevents
  · rw [Schedule.turns_beats]
    rw [show past ++ (none : Option Schedule.Turn).toList = past from List.append_nil past]
    exact Beat.areTallied_resting (List.forall_mem_cons.2 ⟨hsame hchanged, fun m hm =>
      hsame (hgoals m hm)⟩)
  · exact hturns.names_eq.trans hnames

/-- Events lead on in the course of a run. -/
theorem leads_after (r : Run) (hosts : List H) :
    r.mission.schedule.Leads (r.after hosts).mission.schedule := by
  induction hosts generalizing r with
  | nil => exact .refl _
  | cons host rest ih =>
    have htick : r.mission.schedule.Leads (r.tick host).run.mission.schedule :=
      (Schedule.turns_ticked r.registry r.mission.schedule (r.env host)).leads
    exact htick.trans (ih _)

/-- So at every moment of a course the records fit the turns so far. -/
theorem Recalls.along (h : r.Recalls names past) (hdistinct : (names.map foldName).Nodup)
    (hosts : List H) : Beat.AreTallied names past (r.along beats hosts) ∧
      (r.after hosts).Recalls names (past ++ Beat.turns (r.along beats hosts)) := by
  induction hosts generalizing r past with
  | nil => exact ⟨trivial, (List.append_nil past).symm ▸ h⟩
  | cons host rest ih =>
    obtain ⟨htick, hafter⟩ := h.tick hdistinct host
    obtain ⟨hrest, hend⟩ := ih hafter
    rw [List.append_assoc, ← Beat.turns_append] at hend
    exact ⟨Beat.areTallied_append.2 ⟨htick, hrest⟩, hend⟩

end Run

/-- Registered events have records of not having had any turn. -/
theorem Schedule.tallies_registerIn {s : Schedule} (hdistinct : s.IsDistinct) :
    (s.registerIn .empty).Tallies s.names [] := by
  intro i name hname
  obtain ⟨e, he, rfl⟩ := List.mem_map.1 (List.mem_of_getElem? hname)
  have hbooks : Table.Books _ Event.name (fun _ r => r = EventRecord.fresh) s.events :=
    Table.books_insertNew hdistinct fun _ _ => rfl
  obtain ⟨r, hr, rfl⟩ := hbooks.records e he
  refine ⟨.fresh, ?_, EventRecord.tallies_fresh⟩
  rw [Ledger.event?, (s.registerIn_tables .empty).2]
  exact hr

namespace Mission

variable {registry : Registry} {definition : Definition} {settings : Settings} {saved : Snapshot}
  {mission : Mission}

/-- A mission that has just been loaded has not seen any turn. -/
theorem recalls_load (h : load definition registry settings saved = .ok mission)
    (registry' : Registry) (settings' : Settings) :
    (mission.schedule.names.map foldName).Nodup ∧
      (Run.start mission registry' settings').Recalls mission.schedule.names [] := by
  obtain ⟨-, -, -, hschedule, -, hledger⟩ := load_eq h
  have hdistinct := isDistinct_scheduleAll hschedule
  refine ⟨?_, rfl, fun i name hname => ?_, past_scheduleAll hschedule⟩
  · rw [Schedule.names, List.map_map]
    exact hdistinct
  · obtain ⟨r, hr, htallies⟩ := Schedule.tallies_registerIn hdistinct i name hname
    refine ⟨r, ?_, htallies⟩
    change mission.ledger.events.find? (foldName name) = some r
    rw [hledger, (mission.tracker.registerIn_tables _).1]
    exact hr

end Mission

end

end MissionScript

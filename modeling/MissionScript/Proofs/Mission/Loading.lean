import MissionScript.Mission.Loading
import MissionScript.Proofs.Event.Record
import MissionScript.Proofs.Goal.Tracker

/-!
Loaded missions. No two events and no two goals of a mission have the same name, and the ledger that
it starts with has a record of each of them.
-/

namespace MissionScript

theorem foldlM_cons_eq_ok {σ α ε : Type} {f : σ → α → Except ε σ} {a : α} {rest : List α} {s s' : σ}
    (h : (a :: rest).foldlM f s = .ok s') : ∃ s₁, f s a = .ok s₁ ∧ rest.foldlM f s₁ = .ok s' := by
  rw [List.foldlM_cons] at h
  cases hfirst : f s a with
  | error e =>
    rw [hfirst] at h
    cases h
  | ok s₁ =>
    rw [hfirst] at h
    exact ⟨s₁, rfl, h⟩

section

variable {σ α ε : Type} {f : σ → α → Except ε σ} {P : σ → List α → Prop} {items : List α} {s s' : σ}

/-- What every step of a fold keeps about the items so far, the fold keeps about all of them. -/
theorem foldlM_invariant (hstep : ∀ done a rest s s', done ++ a :: rest = items → P s done →
    f s a = .ok s' → P s' (done ++ [a])) (hs : P s []) (h : items.foldlM f s = .ok s') :
    P s' items := by
  suffices hrest : ∀ (todo done : List α) (s : σ), done ++ todo = items → P s done →
      todo.foldlM f s = .ok s' → P s' items from hrest items [] s rfl hs h
  intro todo
  induction todo with
  | nil =>
    intro done s hitems hs h
    cases h
    rwa [← hitems, List.append_nil]
  | cons a rest ih =>
    intro done s hitems hs h
    obtain ⟨s₁, hfirst, hrest⟩ := foldlM_cons_eq_ok h
    refine ih (done ++ [a]) s₁ ?_ (hstep done a rest s s₁ hitems hs hfirst) hrest
    rwa [List.append_assoc]

end

/-- What every step of a fold keeps, the fold keeps. -/
theorem foldlM_ok {σ α ε : Type} {P : σ → Prop} {f : σ → α → Except ε σ}
    (hstep : ∀ s a s', f s a = .ok s' → P s → P s') {items : List α} {s s' : σ}
    (h : items.foldlM f s = .ok s') (hs : P s) : P s' :=
  foldlM_invariant (P := fun s _ => P s) (fun _ a _ s s' _ hs hfirst => hstep s a s' hfirst hs) hs h

theorem exists_of_foldlM_error {σ α ε : Type} {f : σ → α → Except ε σ} {items : List α} {s : σ} {e : ε}
    (h : items.foldlM f s = .error e) : ∃ a ∈ items, ∃ s', f s' a = .error e := by
  induction items generalizing s with
  | nil => cases h
  | cons a rest ih =>
    cases hfirst : f s a with
    | error e' =>
      rw [List.foldlM_cons, hfirst] at h
      obtain rfl : e' = e := Except.error.inj h
      exact ⟨a, List.mem_cons_self, s, hfirst⟩
    | ok s' =>
      rw [List.foldlM_cons, hfirst] at h
      obtain ⟨b, hb, s'', hfails⟩ := ih h
      exact ⟨b, List.mem_cons_of_mem a hb, s'', hfails⟩

theorem mapError_eq_ok_iff {α ε ε' : Type} {f : ε → ε'} {x : Except ε α} {a : α} :
    x.mapError f = .ok a ↔ x = .ok a := by
  cases x <;> simp [Except.mapError]

theorem toOption_eq_some_iff {α ε : Type} {x : Except ε α} {a : α} :
    x.toOption = some a ↔ x = .ok a := by
  cases x <;> simp [Except.toOption]

/-- A row of names without repetition stays one when a new name is added. -/
theorem nodup_append_new {α : Type} {name : α → String} {items : List α} {a : α}
    (hitems : (items.map fun b => foldName (name b)).Nodup)
    (hnew : ∀ b ∈ items, sameName (name b) (name a) = false) :
    ((items ++ [a]).map fun b => foldName (name b)).Nodup := by
  rw [List.map_append, List.nodup_append]
  refine ⟨hitems, by simp, fun key hkey key' hkey' => ?_⟩
  obtain ⟨b, hb, rfl⟩ := List.mem_map.1 hkey
  rw [List.map_singleton, List.mem_singleton] at hkey'
  have hother := hnew b hb
  rw [← Bool.not_eq_true, sameName_iff] at hother
  rw [hkey']
  exact hother

namespace Schedule

/-- Whether no two events have the same name. -/
def IsDistinct (s : Schedule) : Prop :=
  (s.events.map fun e => foldName e.name).Nodup

theorem isDistinct_add {s s' : Schedule} {e : Event} (h : s.add e = .ok s') (hs : s.IsDistinct) :
    s'.IsDistinct := by
  unfold add at h
  split at h
  · cases h
  · next hnew =>
    cases h
    rw [index?, List.findIdx?_isSome, Bool.not_eq_true, List.any_eq_false] at hnew
    exact nodup_append_new hs fun e' he' => by simpa using hnew e' he'

theorem isDistinct_chainAfter {s s' : Schedule} {event predecessor : String}
    (h : s.chainAfter event predecessor = .ok s') (hs : s.IsDistinct) : s'.IsDistinct := by
  obtain ⟨i, j, p, -, -, -, rfl⟩ := chainAfter_eq_ok h
  unfold IsDistinct
  rw [map_modify_eq]
  · exact hs
  · exact fun _ => rfl

theorem Past.isDistinct {s : Schedule} {turns : List Turn} (h : Past s turns) : s.IsDistinct := by
  induction h with
  | empty => exact List.nodup_nil
  | add _ _ hadd ih => exact isDistinct_add hadd ih
  | chain _ hchain ih => exact isDistinct_chainAfter hchain ih
  | @turn t _ _ ht ih =>
    have hnames : t.after.events.map (fun e => foldName e.name) = _ :=
      ht.map_eq fun e now reading => congrArg foldName (e.turned_name_chain now reading).1
    rw [IsDistinct, hnames]
    exact ih

theorem registerIn_tables (s : Schedule) (l : Ledger) :
    (s.registerIn l).goals = l.goals ∧ (s.registerIn l).events =
      s.events.foldl (fun t e => t.insertNew (foldName e.name) .fresh) l.events := by
  unfold registerIn
  generalize s.events = events
  induction events generalizing l with
  | nil => exact ⟨rfl, rfl⟩
  | cons e rest ih => exact ih (l.registerEvent e.name)

end Schedule

/-- The event of an entry, before it is made to wait for another one. -/
def EventEntry.event (entry : EventEntry) (formula : Formula) : Event :=
  { Event.simple entry.name formula with
    repeats := entry.repeats
    interval := entry.interval
    chainDelay := entry.chainDelay
    score := entry.score
    objective := entry.objective }

/-- The goal of an entry. -/
def GoalEntry.goal (entry : GoalEntry) (formula : Formula) : Goal :=
  ⟨entry.name, formula, entry.type, entry.score, entry.team, entry.invalid, .incomplete⟩

namespace Mission

section

variable {registry : Registry} {options : ParseOptions}

theorem addEvent_of_parse {entry : EventEntry} {formula : Formula}
    (hparse : parse registry options entry.name entry.formula = .ok formula) (s : Schedule) :
    addEvent registry options s entry = (s.add (entry.event formula)).mapError .schedule := by
  unfold addEvent
  rw [hparse]
  rfl

/-- An event is added from an entry whose formula can be read. -/
theorem addEvent_eq_ok {s s' : Schedule} {entry : EventEntry}
    (h : addEvent registry options s entry = .ok s') :
    ∃ formula, parse registry options entry.name entry.formula = .ok formula ∧
      s.add (entry.event formula) = .ok s' := by
  cases hparse : parse registry options entry.name entry.formula with
  | error e =>
    unfold addEvent at h
    rw [hparse] at h
    cases h
  | ok formula =>
    rw [addEvent_of_parse hparse] at h
    exact ⟨formula, rfl, mapError_eq_ok_iff.1 h⟩

/-- Making an event wait changes nothing else about events. -/
theorem map_events_chainEvent {α : Type} {f : Event → α} (hf : ∀ e chain, f { e with chain } = f e)
    {s s' : Schedule} {entry : EventEntry} (h : chainEvent s entry = .ok s') :
    s'.events.map f = s.events.map f := by
  unfold chainEvent at h
  split at h
  · cases h
    rfl
  · obtain ⟨i, j, p, -, -, -, rfl⟩ := Schedule.chainAfter_eq_ok (mapError_eq_ok_iff.1 h)
    exact Schedule.map_modify_eq (fun e => hf e _) s.events i

theorem map_events_chainAll {α : Type} {f : Event → α} (hf : ∀ e chain, f { e with chain } = f e)
    {s s' : Schedule} {entries : List EventEntry} (h : entries.foldlM chainEvent s = .ok s') :
    s'.events.map f = s.events.map f :=
  foldlM_ok (P := fun s' => s'.events.map f = s.events.map f)
    (fun _ _ _ hstep hs => (map_events_chainEvent hf hstep).trans hs) h rfl

/-- A goal is added from an entry whose name is new and whose formula can be read. -/
theorem addGoal_eq_ok {t t' : Tracker} {entry : GoalEntry}
    (h : addGoal registry options t entry = .ok t') :
    ∃ formula, parse registry options entry.name entry.formula = .ok formula ∧
      t.goal? entry.name = none ∧ t' = t.add (entry.goal formula) := by
  unfold addGoal at h
  split at h
  · cases h
  · next hnew =>
    cases hparse : parse registry options entry.name entry.formula with
    | error e =>
      rw [hparse] at h
      cases h
    | ok formula =>
      rw [hparse] at h
      cases h
      exact ⟨formula, rfl, by simpa using hnew, rfl⟩

end

variable {definition : Definition} {registry : Registry} {settings : Settings} {saved : Snapshot}
  {mission : Mission}

/-- What a mission is made of when it is loaded. -/
theorem load_eq (h : load definition registry settings saved = .ok mission) :
    ∃ declared, declareAll definition.vars = .ok declared ∧
      mission.vars = (overlay declared saved).1 ∧
      scheduleAll registry settings.parseOptions definition.events = .ok mission.schedule ∧
      trackAll registry settings.parseOptions settings.failsEarly definition.goals =
        .ok mission.tracker ∧
      mission.ledger = mission.tracker.registerIn (mission.schedule.registerIn .empty) := by
  unfold load at h
  simp only [bind, Except.bind] at h
  split at h
  · cases h
  · next declared hdeclared =>
    split at h
    · cases h
    · next schedule hschedule =>
      split at h
      · cases h
      · next tracker htracker =>
        split at h
        · cases h
        · cases h
          exact ⟨declared, hdeclared, rfl, hschedule, htracker, rfl⟩

/-- The ledger of a loaded mission knows of nothing but its events and goals. -/
theorem ledger_load (h : load definition registry settings saved = .ok mission) :
    ∃ events goals, mission.ledger = { Ledger.empty with events, goals } := by
  have hevents (s : Schedule) (l : Ledger) : ∃ events, s.registerIn l = { l with events } := by
    unfold Schedule.registerIn
    generalize s.events = events
    induction events generalizing l with
    | nil => exact ⟨_, rfl⟩
    | cons e rest ih => exact ih (l.registerEvent e.name)
  have hgoals (t : Tracker) (l : Ledger) : ∃ goals, t.registerIn l = { l with goals } := by
    unfold Tracker.registerIn
    generalize t.goals = goals
    induction goals generalizing l with
    | nil => exact ⟨_, rfl⟩
    | cons g rest ih => exact ih (l.registerGoal g.name)
  obtain ⟨-, -, -, -, -, hledger⟩ := load_eq h
  obtain ⟨events, hschedule⟩ := hevents mission.schedule .empty
  obtain ⟨goals, htracker⟩ := hgoals mission.tracker { Ledger.empty with events }
  rw [hschedule, htracker] at hledger
  exact ⟨events, goals, hledger⟩

theorem scheduleAll_eq_ok_iff {options : ParseOptions} {entries : List EventEntry} {s : Schedule} :
    scheduleAll registry options entries = .ok s ↔
      ∃ added, entries.foldlM (addEvent registry options) .empty = .ok added ∧
        entries.foldlM chainEvent added = .ok s := by
  unfold scheduleAll
  cases hadd : entries.foldlM (addEvent registry options) .empty with
  | error e => exact iff_of_false nofun fun ⟨added, hadded, _⟩ => nomatch hadded
  | ok added => simp [bind, Except.bind]

/-- Events that have just been read have not had any turn. -/
theorem past_scheduleAll {options : ParseOptions} {entries : List EventEntry} {s : Schedule}
    (h : scheduleAll registry options entries = .ok s) : s.Past [] := by
  have hadd (s : Schedule) (entry : EventEntry) (s' : Schedule)
      (hstep : addEvent registry options s entry = .ok s') (hs : s.Past []) : s'.Past [] := by
    obtain ⟨formula, -, hadd⟩ := addEvent_eq_ok hstep
    exact hs.add ⟨rfl, rfl, rfl, rfl⟩ hadd
  have hchain (s : Schedule) (entry : EventEntry) (s' : Schedule)
      (hstep : chainEvent s entry = .ok s') (hs : s.Past []) : s'.Past [] := by
    unfold chainEvent at hstep
    split at hstep
    · cases hstep
      exact hs
    · exact hs.chain (mapError_eq_ok_iff.1 hstep)
  obtain ⟨added, hadded, hchained⟩ := scheduleAll_eq_ok_iff.1 h
  exact foldlM_ok hchain hchained (foldlM_ok hadd hadded .empty)

theorem isDistinct_scheduleAll {options : ParseOptions} {entries : List EventEntry} {s : Schedule}
    (h : scheduleAll registry options entries = .ok s) : s.IsDistinct :=
  (past_scheduleAll h).isDistinct

theorem isDistinct_trackAll {options : ParseOptions} {failsEarly : Bool} {entries : List GoalEntry}
    {t : Tracker} (h : trackAll registry options failsEarly entries = .ok t) : t.IsDistinct := by
  have hadd (t : Tracker) (entry : GoalEntry) (t' : Tracker)
      (hstep : addGoal registry options t entry = .ok t') (ht : t.IsDistinct) : t'.IsDistinct := by
    obtain ⟨formula, -, hnew, rfl⟩ := addGoal_eq_ok hstep
    rw [Tracker.goal?, List.find?_eq_none] at hnew
    exact nodup_append_new ht fun g hg => Bool.eq_false_iff.2 (hnew g hg)
  exact foldlM_ok hadd h List.nodup_nil

/-- The ledger of a loaded mission has a record of every event and of every goal. -/
theorem booked_of_load (h : load definition registry settings saved = .ok mission) :
    mission.schedule.IsBooked mission.ledger ∧
      Goal.AreBooked mission.tracker.goals mission.ledger := by
  obtain ⟨-, -, -, hschedule, htracker, hledger⟩ := load_eq h
  obtain ⟨hgoals, hevents⟩ := mission.schedule.registerIn_tables .empty
  obtain ⟨hevents', hgoals'⟩ := mission.tracker.registerIn_tables (mission.schedule.registerIn .empty)
  rw [Schedule.IsBooked, Goal.AreBooked, hledger, hevents', hgoals', hevents, hgoals]
  constructor
  · refine Table.books_insertNew (isDistinct_scheduleAll hschedule) fun e _ hnever => ?_
    cases hnever
  · refine Table.books_insertNew (isDistinct_trackAll htracker) fun g _ hterminal => ?_
    cases hterminal

end Mission

end MissionScript

import MissionScript.Proofs.Event.Notes
import MissionScript.Proofs.Event.Safety
import MissionScript.Proofs.Mission.Course

/-!
What is told of events. They know themselves how often and when they have fired, the ledger has a
record of that, and it has been notified; at every point of a run all three tell the same story.
-/

namespace MissionScript

namespace Table

variable {κ α : Type} [DecidableEq κ]

/-- A change to a record that is there leaves the keys as they are. -/
theorem keys_update_of_mem {t : Table κ α} {k : κ} (h : k ∈ t.keys) (first : α) (f : α → α) :
    (t.update k first f).keys = t.keys := by
  rw [update, keys_modify, keys_insertNew, if_pos h]

/-- Records for new and distinct keys come after those that are there. -/
theorem keys_foldl_insertNew {β : Type} {key : β → κ} (items : List β) (first : α) (t : Table κ α)
    (h : (t.keys ++ items.map key).Nodup) :
    (items.foldl (fun t b => t.insertNew (key b) first) t).keys = t.keys ++ items.map key := by
  induction items generalizing t with
  | nil => rw [List.foldl_nil, List.map_nil, List.append_nil]
  | cons b rest ih =>
    rw [List.map_cons, List.append_cons] at h
    have hnew : key b ∉ t.keys := by
      intro hmem
      have hfirst := (List.nodup_append.1 h).1
      exact (List.nodup_append.1 hfirst).2.2 _ hmem _ List.mem_cons_self rfl
    have hkeys : (t.insertNew (key b) first).keys = t.keys ++ [key b] := by
      rw [keys_insertNew, if_neg hnew]
    rw [List.foldl_cons, ih _ (hkeys ▸ h), hkeys, List.map_cons, ← List.append_cons]

end Table

/-- A turn is entered into a record that is there. -/
theorem Event.keys_book {e : Event} {l : Ledger} (h : foldName e.name ∈ l.events.keys) (now : Float)
    (reading : Truth) : (e.book now reading l).events.keys = l.events.keys := by
  cases reading with
  | trueNow | knownTrue | knownFalse => exact Table.keys_update_of_mem h _ _
  | falseNow | unknown => rfl

namespace Schedule

/-- A point of a run: what has become of the events and of the ledger, and all turns and
    notifications so far. -/
structure Point where
  schedule : Schedule
  ledger : Ledger
  turns : List Turn
  notes : List Notification

/-- Whether events, ledger and notifications tell the same story at a point. -/
structure Point.Agrees (p : Point) : Prop where
  /-- the record of an event has what the event knows itself, and when it fired first -/
  records : ∀ (i : Nat) (e : Event), p.schedule.events[i]? = some e →
    ∃ r, p.ledger.event? e.name = some r ∧ r.triggers = e.triggers ∧ r.last = e.last ∧
      r.first = (firings i p.turns).head?.map (·.now)
  /-- it has been notified that an event fired, one time after the other -/
  notified : ∀ (i : Nat) (e : Event), p.schedule.events[i]? = some e →
    e.triggers = (firings i p.turns).length ∧
      p.notes.filter (Notification.isFiringOf e.name) = e.account (firings i p.turns)
  /-- there are no other records of events -/
  keys : p.ledger.events.keys = p.schedule.names.map foldName

/-- The points after each of a row of turns, given the turns and the notifications so far. -/
def points {H : Type} [Host H] (registry : Registry) (now : Float) (turns : List Turn)
    (notes : List Notification) (s : Schedule) (env : Env H) : List Nat → List Point
  | [] => []
  | i :: rest =>
    let ((after, ns), env') := (s.turn registry now i).run env
    let turns := turns ++ [⟨i, now, s, s.reading? registry now i env, after⟩]
    ⟨after, env'.ledger, turns, notes ++ ns⟩ ::
      after.points registry now turns (notes ++ ns) env' rest

/-- A tick: the time of the game, its turns, and what it has notified. -/
structure TickRecord where
  clock : Float
  turns : List Turn
  notes : List Notification

/-- The record of a tick. -/
def recorded {H : Type} [Host H] (registry : Registry) (s : Schedule) (env : Env H) : TickRecord :=
  ⟨Host.time env.host, s.ticked registry env, ((s.tick registry).run env).1.2⟩

/-- The point that ticks have led to. -/
def reached (s : Schedule) (l : Ledger) (ticks : List TickRecord) : Point :=
  ⟨s, l, ticks.flatMap (·.turns), ticks.flatMap (·.notes)⟩

/-- The stories of schedules: where they have come to, with the ledger, all ticks, and all points on
    the way. A new schedule is registered in an empty ledger, and then it ticks. In between anything
    may happen to the ledger but to the records of events. -/
inductive Story : Schedule → Ledger → List TickRecord → List Point → Prop where
  | start {s : Schedule} (h : Past s []) :
    Story s (s.registerIn .empty) [] [s.reached (s.registerIn .empty) []]
  | meanwhile {s : Schedule} {l : Ledger} {ticks : List TickRecord} {points : List Point}
    (h : Story s l ticks points) (l' : Ledger) (hevents : l'.events = l.events) :
    Story s l' ticks (points ++ [s.reached l' ticks])
  | tick {H : Type} [Host H] {s : Schedule} {ticks : List TickRecord} {points : List Point}
    (registry : Registry) (env : Env H) (h : Story s env.ledger ticks points) :
    Story ((s.tick registry).run env).1.1 ((s.tick registry).run env).2.ledger
      (ticks ++ [s.recorded registry env])
      (points ++ s.points registry (Host.time env.host) (ticks.flatMap (·.turns))
        (ticks.flatMap (·.notes)) env (List.range s.events.length) ++
        [((s.tick registry).run env).1.1.reached ((s.tick registry).run env).2.ledger
          (ticks ++ [s.recorded registry env])])

/-- Turns open no records, if every event has one. -/
theorem keys_turn {H : Type} [Host H] {s : Schedule} {env : Env H}
    (h : ∀ e ∈ s.events, foldName e.name ∈ env.ledger.events.keys) (registry : Registry)
    (now : Float) (i : Nat) :
    ((s.turn registry now i).run env).2.ledger.events.keys = env.ledger.events.keys := by
  cases hreading : s.reading? registry now i env with
  | none => rw [run_turn_of_reading?_eq_none hreading]
  | some reading =>
    obtain ⟨e, l, hi, hevents, hledger⟩ := events_turn hreading
    have hkey := h e (List.mem_of_getElem? hi)
    rw [← hevents] at hkey ⊢
    rw [hledger, Event.keys_book hkey]

/-- What holds at every point of a run of events of these names. -/
structure Point.Holds (names : List String) (p : Point) : Prop where
  names_eq : p.schedule.names = names
  past : Past p.schedule p.turns
  tallies : p.ledger.Tallies names p.turns
  accounts : p.schedule.Accounts p.turns p.notes
  keys : p.ledger.events.keys = names.map foldName

namespace Point.Holds

variable {names : List String} {p : Point}

theorem agreement (h : p.Holds names) : p.Agrees where
  records i e hi := by
    have hname : names[i]? = some e.name := by
      rw [← h.names_eq, Schedule.names, List.getElem?_map, hi, Option.map_some]
    obtain ⟨r, hr, hrecord⟩ := h.tallies i e.name hname
    have hevent := h.past.recounts i e hi
    exact ⟨r, hr, hrecord.triggers.trans hevent.triggers.symm, hrecord.last.trans hevent.last.symm,
      hrecord.first⟩
  notified i e hi := ⟨(h.past.recounts i e hi).triggers, h.accounts i e hi⟩
  keys := by rw [h.keys, h.names_eq]

theorem distinct (h : p.Holds names) : (names.map foldName).Nodup := by
  rw [← h.names_eq, Schedule.names, List.map_map]
  exact h.past.isDistinct

variable {H : Type} [Host H] {s : Schedule} {env : Env H} {past : List Turn}
  {notes : List Notification}

/-- What holds at a point holds after the turn of an event. -/
theorem turn (h : Holds names ⟨s, env.ledger, past, notes⟩) (registry : Registry) (now : Float)
    (i : Nat) : Holds names ⟨((s.turn registry now i).run env).1.1,
      ((s.turn registry now i).run env).2.ledger,
      past ++ [⟨i, now, s, s.reading? registry now i env, ((s.turn registry now i).run env).1.1⟩],
      notes ++ ((s.turn registry now i).run env).1.2⟩ := by
  have hsound := isSound_turn registry now s i env
  have hnotes := notes_turn registry now s i env ((s.turn registry now i).run env).1.1
  have hdistinct : (s.names.map foldName).Nodup := h.names_eq ▸ h.distinct
  refine ⟨hsound.names_eq.trans h.names_eq, h.past.turn hsound,
    tallies_turn h.names_eq h.distinct h.tallies registry now i, ?_, ?_⟩
  · rw [Point.notes, hnotes]
    exact hsound.accounts hdistinct h.past.recounts h.accounts
  · refine (keys_turn (fun e he => ?_) registry now i).trans h.keys
    rw [h.keys, ← h.names_eq, Schedule.names, List.map_map]
    exact List.mem_map_of_mem he

/-- So it holds after each of a row of turns. -/
theorem turns (h : Holds names ⟨s, env.ledger, past, notes⟩) (registry : Registry) (now : Float)
    (places : List Nat) : (∀ p ∈ s.points registry now past notes env places, p.Holds names) ∧
      Holds names ⟨((s.turns registry now places).run env).1.1,
        ((s.turns registry now places).run env).2.ledger,
        past ++ s.turnsOf registry now env places,
        notes ++ ((s.turns registry now places).run env).1.2⟩ := by
  induction places generalizing s env past notes with
  | nil =>
    refine ⟨List.forall_mem_nil _, ?_⟩
    rw [turnsOf, List.append_nil]
    exact (List.append_nil notes).symm ▸ h
  | cons i rest ih =>
    have hturn := h.turn registry now i
    obtain ⟨hpoints, hend⟩ := ih hturn
    rw [List.append_assoc, List.append_assoc] at hend
    exact ⟨List.forall_mem_cons.2 ⟨hturn, hpoints⟩, hend⟩

end Point.Holds

/-- A schedule that has been registered in an empty ledger has a record of every event there. -/
theorem holds_registerIn {s : Schedule} (h : Past s []) :
    Point.Holds s.names (s.reached (s.registerIn .empty) []) := by
  have hkeys : (s.registerIn .empty).events.keys = s.events.map fun e => foldName e.name := by
    rw [(s.registerIn_tables .empty).2]
    exact Table.keys_foldl_insertNew s.events EventRecord.fresh .empty h.isDistinct
  refine ⟨rfl, h, tallies_registerIn h.isDistinct, fun i e _ => rfl, ?_⟩
  rw [names, List.map_map]
  exact hkeys

namespace Story

variable {s : Schedule} {l : Ledger} {ticks : List TickRecord} {points : List Point}

theorem holds (h : Story s l ticks points) :
    (∀ p ∈ points, p.Holds s.names) ∧ points.getLast? = some (s.reached l ticks) := by
  induction h with
  | start h => exact ⟨List.forall_mem_singleton.2 (holds_registerIn h), rfl⟩
  | @meanwhile s l ticks points _ l' hevents ih =>
    refine ⟨List.forall_mem_append.2 ⟨ih.1, List.forall_mem_singleton.2 ?_⟩, List.getLast?_concat⟩
    obtain ⟨hnames, hpast, htallies, haccounts, hkeys⟩ := ih.1 _ (List.mem_of_getLast? ih.2)
    refine ⟨hnames, hpast, fun i name hi => ?_, haccounts,
      (congrArg Table.keys hevents).trans hkeys⟩
    rw [reached, Ledger.event?, hevents]
    exact htallies i name hi
  | @tick H _ s ticks points registry env _ ih =>
    have hlast := ih.1 _ (List.mem_of_getLast? ih.2)
    obtain ⟨hpoints, hend⟩ := hlast.turns registry (Host.time env.host) (List.range s.events.length)
    have hnames := (turns_ticked registry s env).names_eq
    rw [hnames]
    refine ⟨List.forall_mem_append.2 ⟨List.forall_mem_append.2 ⟨ih.1, hpoints⟩,
      List.forall_mem_singleton.2 ?_⟩, List.getLast?_concat⟩
    rw [reached, List.flatMap_append, List.flatMap_append, List.flatMap_singleton,
      List.flatMap_singleton, recorded, run_tick]
    exact hend

theorem ticks_in_order (h : Story s l ticks points) : ∀ tick ∈ ticks,
    (∀ t ∈ tick.turns, t.now = tick.clock) ∧
      (tick.notes.map Notification.firing?).Sublist (s.names.map some) := by
  induction h with
  | start h => exact List.forall_mem_nil _
  | meanwhile _ _ _ ih => exact ih
  | @tick H _ s ticks points registry env _ ih =>
    rw [(turns_ticked registry s env).names_eq]
    refine List.forall_mem_append.2 ⟨ih, List.forall_mem_singleton.2 ⟨?_, ?_⟩⟩
    · exact now_of_mem_turnsOf registry _ s env _
    · exact sublist_firing?_tick registry s env

/-- Events, ledger and notifications tell the same story, at every point of a run. The record of an
    event has the count of its fires and the time of the last one that the event knows itself, and
    the time of the first one. As many times as it has fired that has been notified, in order and
    with a count from one on, at the time of the tick, with what its author has said of it. In a
    tick the notifications follow the order of the events, and there are no records of others. -/
theorem told_alike (h : Story s l ticks points) :
    (∀ p ∈ points, p.Agrees) ∧ points.getLast? = some (s.reached l ticks) ∧
      ∀ tick ∈ ticks, (∀ t ∈ tick.turns, t.now = tick.clock) ∧
        (tick.notes.map Notification.firing?).Sublist (s.names.map some) :=
  ⟨fun p hp => (h.holds.1 p hp).agreement, h.holds.2, h.ticks_in_order⟩

end Story

namespace Alarm

/-- The schedule, the ledger and the ticks at several times. -/
def watch (s : Schedule) (l : Ledger) : List Float → Schedule × Ledger × List TickRecord
  | [] => (s, l, [])
  | time :: rest =>
    let start := { env time with ledger := l }
    let ((after, _), last) := (s.tick Registry.builtin).run start
    let (s', l', later) := watch after last.ledger rest
    (s', l', s.recorded Registry.builtin start :: later)

theorem story_watch {s : Schedule} {l : Ledger} {ticks : List TickRecord} {points : List Point}
    (h : Story s l ticks points) (times : List Float) :
    ∃ points', Story (watch s l times).1 (watch s l times).2.1 (ticks ++ (watch s l times).2.2)
      points' := by
  induction times generalizing s l ticks points with
  | nil =>
    rw [watch, List.append_nil]
    exact ⟨points, h⟩
  | cons time rest ih =>
    obtain ⟨points', hlater⟩ := ih (.tick Registry.builtin { env time with ledger := l } h)
    rw [List.append_assoc] at hlater
    exact ⟨points', hlater⟩

/-- What is notified in a watch of the alarm and the launch, and which records there are then. -/
def told? : Option (List (List Notification) × List String) :=
  schedule.toOption.map fun s =>
    let seen := watch s (s.registerIn .empty) [0, 1, 2, 3]
    (seen.2.2.map (·.notes), seen.2.1.events.keys)

theorem told?_eq_some {x : List (List Notification) × List String} (h : told? = some x) :
    ∃ s l ticks points, Story s l ticks points ∧ (ticks.map (·.notes), l.events.keys) = x := by
  obtain ⟨s, hs, htold⟩ := Option.map_eq_some_iff.1 h
  have hnew : Past s [] := (history_schedule (toOption_eq_some_iff.1 hs)).past
  obtain ⟨points, hstory⟩ := story_watch (.start hnew) [0, 1, 2, 3]
  rw [List.nil_append] at hstory
  exact ⟨_, _, _, points, hstory, htold⟩

end Alarm

open Alarm in
/-- The alarm is notified twice, and then the launch once. -/
theorem Story.told_alike_alarm : ∃ s l ticks points, Story s l ticks points ∧
    ticks.map (·.notes) = [[.eventFired "Alarm" 0 none 1 0], [], [.eventFired "Alarm" 0 none 2 2],
      [.eventFired "Launch" 0 none 1 3]] ∧
    l.events.keys = ["alarm", "launch"] ∧ ∀ p ∈ points, p.Agrees := by
  have htold : told? = some ([[.eventFired "Alarm" 0 none 1 0], [],
      [.eventFired "Alarm" 0 none 2 2], [.eventFired "Launch" 0 none 1 3]],
      ["alarm", "launch"]) := by decide +kernel
  obtain ⟨s, l, ticks, points, hstory, hseen⟩ := told?_eq_some htold
  obtain ⟨hnotes, hkeys⟩ := Prod.mk.inj hseen
  exact ⟨s, l, ticks, points, hstory, hnotes, hkeys, hstory.told_alike.1⟩

end Schedule

end MissionScript

import MissionScript.Proofs.Event.History
import MissionScript.Proofs.Event.Tick

/-!
Records of events. The ledger learns of every turn in which an event is evaluated, so that at every
moment the record of an event tells how often and when it has fired, and whether its formula was ever
false for good.
-/

namespace MissionScript

namespace EventRecord

/-- Whether the record of an event fits the turns in which it was evaluated. -/
structure Tallies (r : EventRecord) (turns : List Schedule.Turn) : Prop where
  triggers : r.triggers = (turns.filter (·.fires)).length
  first : r.first = (turns.filter (·.fires)).head?.map (·.now)
  last : r.last = (turns.filter (·.fires)).getLast?.map (·.now)
  never : r.neverFires = true ↔ ∃ t ∈ turns, t.reading = some .knownFalse

theorem tallies_fresh : fresh.Tallies [] :=
  ⟨rfl, rfl, rfl, by simp [fresh]⟩

/-- The record of an event after its formula has been read. -/
def enter (r : EventRecord) (now : Float) : Truth → EventRecord
  | .trueNow | .knownTrue =>
    { r with triggers := r.triggers + 1, first := some (r.first.getD now), last := some now }
  | .knownFalse => { r with neverFires := true }
  | .falseNow | .unknown => r

theorem Tallies.enter {r : EventRecord} {turns : List Schedule.Turn} (h : r.Tallies turns)
    {t : Schedule.Turn} {reading : Truth} (hreading : t.reading = some reading) :
    (r.enter t.now reading).Tallies (turns ++ [t]) := by
  obtain ⟨htriggers, hfirst, hlast, hnever⟩ := h
  have hfires : t.fires = reading.isTrue := by rw [Schedule.Turn.fires, hreading, Option.any_some]
  have hnever' : (∃ t' ∈ turns ++ [t], t'.reading = some .knownFalse) ↔
      (∃ t' ∈ turns, t'.reading = some .knownFalse) ∨ reading = .knownFalse := by
    simp only [List.mem_append, List.mem_singleton, or_and_right, exists_or, exists_eq_left, hreading,
      Option.some.injEq]
  cases htrue : reading.isTrue with
  | true =>
    have hfilter : (turns ++ [t]).filter (·.fires) = turns.filter (·.fires) ++ [t] := by
      simp [hfires, htrue]
    have henter : r.enter t.now reading =
        { r with triggers := r.triggers + 1, first := some (r.first.getD t.now), last := some t.now } := by
      cases reading <;> first | rfl | cases htrue
    have hsettled : reading ≠ .knownFalse := by
      rintro rfl
      cases htrue
    rw [henter]
    refine ⟨?_, ?_, ?_, ?_⟩
    · rw [hfilter, List.length_append, ← htriggers, List.length_singleton]
    · rw [hfilter, hfirst]
      cases turns.filter (·.fires) <;> rfl
    · rw [hfilter, List.getLast?_concat, Option.map_some]
    · rw [hnever', or_iff_left hsettled]
      exact hnever
  | false =>
    have hfilter : (turns ++ [t]).filter (·.fires) = turns.filter (·.fires) := by
      simp [hfires, htrue]
    cases reading with
    | trueNow | knownTrue => cases htrue
    | falseNow | unknown =>
      refine ⟨hfilter ▸ htriggers, hfilter ▸ hfirst, hfilter ▸ hlast, ?_⟩
      rw [hnever', or_iff_left (by decide)]
      exact hnever
    | knownFalse =>
      refine ⟨hfilter ▸ htriggers, hfilter ▸ hfirst, hfilter ▸ hlast, ?_⟩
      rw [hnever']
      exact iff_of_true rfl (Or.inr rfl)

end EventRecord

/-- Whether the records of a ledger fit the turns so far, given the names of the events. -/
def Ledger.Tallies (l : Ledger) (names : List String) (turns : List Schedule.Turn) : Prop :=
  ∀ (i : Nat) (name : String), names[i]? = some name →
    ∃ r, l.event? name = some r ∧ r.Tallies (Schedule.evaluations i turns)

namespace Event

/-- What a turn enters into the record of its event. -/
theorem event?_book_self {e : Event} {l : Ledger} {r : EventRecord} (hr : l.event? e.name = some r)
    (now : Float) (reading : Truth) :
    (e.book now reading l).event? e.name = some (r.enter now reading) := by
  have hupdate (f : EventRecord → EventRecord) :
      (l.events.update (foldName e.name) .fresh f).find? (foldName e.name) = some (f r) := by
    rw [Table.find?_update, if_pos rfl, show l.events.find? (foldName e.name) = some r from hr,
      Option.getD_some]
  cases reading with
  | trueNow | knownTrue | knownFalse => exact hupdate _
  | falseNow | unknown => exact hr

end Event

namespace Schedule

/-- The names of events. -/
def names (s : Schedule) : List String :=
  s.events.map Event.name

/-- What no turn changes about an event, a turn does not change about any. -/
theorem Turn.IsSound.map_eq {α : Type} {f : Event → α} {t : Turn} (ht : t.IsSound)
    (hf : ∀ e now reading, f (e.turned now reading) = f e) :
    t.after.events.map f = t.before.events.map f := by
  rw [ht.after_eq]
  exact map_modify_eq (fun e => hf e t.now t.reading) t.before.events t.place

theorem Turns.map_eq {α : Type} {f : Event → α} {s s' : Schedule} {turns : List Turn}
    (h : Turns s turns s') (hf : ∀ e now reading, f (e.turned now reading) = f e) :
    s'.events.map f = s.events.map f := by
  induction h with
  | nil => rfl
  | cons ht _ ih => exact ih.trans (ht.map_eq hf)

/-- Events keep their names. -/
theorem Turn.IsSound.names_eq {t : Turn} (ht : t.IsSound) : t.after.names = t.before.names :=
  ht.map_eq fun e now reading => (e.turned_name_chain now reading).1

theorem Turns.names_eq {s s' : Schedule} {turns : List Turn} (h : Turns s turns s') :
    s'.names = s.names :=
  h.map_eq fun e now reading => (e.turned_name_chain now reading).1

theorem Turns.leads {s s' : Schedule} {turns : List Turn} (h : Turns s turns s') : s.Leads s' := by
  induction h with
  | nil => exact .refl _
  | cons ht _ ih => exact ht.leads.trans ih

section

variable {H : Type} [Host H] {registry : Registry} {now : Float} {s : Schedule} {i : Nat}
  {env : Env H} {names : List String} {turns : List Turn}

/-- What the ledger learns of a turn in which a formula is evaluated. -/
theorem events_turn {reading : Truth} (h : s.reading? registry now i env = some reading) :
    ∃ (e : Event) (l : Ledger), s.events[i]? = some e ∧ l.events = env.ledger.events ∧
      ((s.turn registry now i).run env).2.ledger = e.book now reading l := by
  rw [reading?_eq] at h
  obtain ⟨e, hi, hreading⟩ := Option.bind_eq_some_iff.1 h
  cases hplan : e.plan (s.isOpened e now) now with
  | rest | retire =>
    rw [hplan] at hreading
    cases hreading
  | evaluate =>
    rw [hplan] at hreading
    obtain rfl := Option.some.inj hreading
    refine ⟨e, _, hi, (records_evaluate registry e.name e.formula.root env).1, ?_⟩
    unfold turn
    rw [hi]
    dsimp only
    rw [hplan]
    rfl

/-- A turn is entered into the record of its event, and no other record is concerned. -/
theorem tallies_turn (hnames : s.names = names) (hdistinct : (names.map foldName).Nodup)
    (h : env.ledger.Tallies names turns) (registry : Registry) (now : Float) (i : Nat) :
    ((s.turn registry now i).run env).2.ledger.Tallies names (turns ++
      [⟨i, now, s, s.reading? registry now i env, ((s.turn registry now i).run env).1.1⟩]) := by
  intro j name hj
  obtain ⟨r, hr, htallies⟩ := h j name hj
  rw [evaluations_concat]
  cases hreading : s.reading? registry now i env with
  | none =>
    rw [run_turn_of_reading?_eq_none hreading, if_neg (by simp), List.append_nil]
    exact ⟨r, hr, htallies⟩
  | some reading =>
    obtain ⟨e, l, hi, hevents, hledger⟩ := events_turn hreading
    have hr' : l.event? name = some r := by
      rw [Ledger.event?, hevents]
      exact hr
    have he : names[i]? = some e.name := by
      rw [← hnames, Schedule.names, List.getElem?_map, hi, Option.map_some]
    rw [hledger]
    by_cases hij : i = j
    · subst hij
      obtain rfl := Option.some.inj (he.symm.trans hj)
      rw [if_pos ⟨rfl, rfl⟩]
      exact ⟨_, e.event?_book_self hr' now reading,
        EventRecord.Tallies.enter htallies (t := ⟨i, now, s, some reading, _⟩) rfl⟩
    · have hne : foldName name ≠ foldName e.name := by
        intro heq
        have hlt : i < (names.map foldName).length := by
          rw [List.length_map]
          exact (List.getElem?_eq_some_iff.1 he).1
        refine hij ((List.getElem?_inj hlt hdistinct).1 ?_)
        rw [List.getElem?_map, List.getElem?_map, he, hj, Option.map_some, Option.map_some, heq]
      rw [if_neg (fun h => hij h.1), List.append_nil, Ledger.event?, e.event?_book now reading l hne]
      exact ⟨r, hr', htallies⟩

end

end Schedule

/-- A moment of a run: the turn that has led there, if it was one, and the environment. -/
structure Beat (H : Type) where
  turn : Option Schedule.Turn
  env : Env H

namespace Beat

variable {H : Type} {names : List String} {past : List Schedule.Turn} {beats beats' : List (Beat H)}

/-- The turns of a row of moments. -/
def turns (beats : List (Beat H)) : List Schedule.Turn :=
  beats.filterMap (·.turn)

/-- Whether at each of a row of moments the records of the ledger fit the turns so far. -/
def AreTallied (names : List String) : List Schedule.Turn → List (Beat H) → Prop
  | _, [] => True
  | past, b :: rest => b.env.ledger.Tallies names (past ++ b.turn.toList) ∧
    AreTallied names (past ++ b.turn.toList) rest

theorem turns_cons (b : Beat H) (beats : List (Beat H)) :
    turns (b :: beats) = b.turn.toList ++ turns beats := by
  rw [turns, turns, List.filterMap_cons]
  cases b.turn <;> rfl

theorem turns_append : turns (beats ++ beats') = turns beats ++ turns beats' :=
  List.filterMap_append ..

theorem areTallied_append : AreTallied names past (beats ++ beats') ↔
    AreTallied names past beats ∧ AreTallied names (past ++ turns beats) beats' := by
  induction beats generalizing past with
  | nil => simp [AreTallied, turns]
  | cons b rest ih => rw [List.cons_append, AreTallied, AreTallied, ih, turns_cons, and_assoc,
      List.append_assoc]

/-- Moments that no turn has led to, one after the other. -/
theorem areTallied_resting {envs : List (Env H)} (h : ∀ env ∈ envs, env.ledger.Tallies names past) :
    AreTallied names past (envs.map (⟨none, ·⟩)) := by
  induction envs with
  | nil => trivial
  | cons env rest ih =>
    obtain ⟨henv, hrest⟩ := List.forall_mem_cons.1 h
    have hpast : past ++ (none : Option Schedule.Turn).toList = past := List.append_nil past
    rw [List.map_cons, AreTallied, hpast]
    exact ⟨henv, ih hrest⟩

/-- What fits the turns up to each moment fits a part of all turns. -/
theorem AreTallied.exists_before (h : AreTallied names past beats) : ∀ b ∈ beats, ∃ sofar,
    past <+: sofar ∧ sofar <+: past ++ turns beats ∧ b.env.ledger.Tallies names sofar := by
  induction beats generalizing past with
  | nil => exact nofun
  | cons first rest ih =>
    obtain ⟨hfirst, hrest⟩ := h
    rw [turns_cons, ← List.append_assoc]
    refine List.forall_mem_cons.2 ⟨⟨_, List.prefix_append _ _, List.prefix_append _ _, hfirst⟩,
      fun b hb => ?_⟩
    obtain ⟨sofar, hpast, hall, htallies⟩ := ih hrest b hb
    exact ⟨sofar, (List.prefix_append _ _).trans hpast, hall, htallies⟩

/-- What fits all turns fits the last moment. -/
theorem AreTallied.exists_last (h : AreTallied names past beats) (hbeats : beats ≠ []) :
    ∃ b ∈ beats, b.env.ledger.Tallies names (past ++ turns beats) := by
  induction beats generalizing past with
  | nil => exact absurd rfl hbeats
  | cons first rest ih =>
    obtain ⟨hfirst, hrest⟩ := h
    rw [turns_cons, ← List.append_assoc]
    rcases rest with _ | ⟨second, rest⟩
    · exact ⟨first, List.mem_cons_self, (List.append_nil _).symm ▸ hfirst⟩
    · obtain ⟨b, hb, htallies⟩ := ih hrest nofun
      exact ⟨b, List.mem_cons_of_mem _ hb, htallies⟩

/-- Two moments one after the other have seen turns of which those of the first one are a part. -/
theorem AreTallied.pairwise {R : Beat H → Beat H → Prop} (h : AreTallied names past beats)
    (hR : ∀ b b' sofar later, sofar ++ later <+: past ++ turns beats →
      b.env.ledger.Tallies names sofar → b'.env.ledger.Tallies names (sofar ++ later) → R b b') :
    beats.Pairwise R := by
  induction beats generalizing past with
  | nil => exact .nil
  | cons first rest ih =>
    obtain ⟨hfirst, hrest⟩ := h
    rw [turns_cons, ← List.append_assoc] at hR
    refine List.pairwise_cons.2 ⟨fun b hb => ?_, ih hrest hR⟩
    obtain ⟨_, ⟨later, rfl⟩, hall, htallies⟩ := hrest.exists_before b hb
    exact hR first b _ later hall hfirst htallies

end Beat

namespace Schedule

section

variable {H : Type} [Host H] {s : Schedule} {env : Env H} {names : List String} {past : List Turn}

/-- The moments after each of a row of turns. -/
def beats (registry : Registry) (now : Float) (s : Schedule) (env : Env H) :
    List Nat → List (Beat H)
  | [] => []
  | i :: rest =>
    let ((after, _), env') := (s.turn registry now i).run env
    ⟨some ⟨i, now, s, s.reading? registry now i env, after⟩, env'⟩ ::
      after.beats registry now env' rest

theorem turns_beats (registry : Registry) (now : Float) (s : Schedule) (env : Env H)
    (places : List Nat) :
    Beat.turns (s.beats registry now env places) = s.turnsOf registry now env places := by
  induction places generalizing s env with
  | nil => rfl
  | cons i rest ih => exact congrArg (_ :: ·) (ih _ _)

/-- All turns are entered into the records as they take place. -/
theorem areTallied_beats (hnames : s.names = names) (hdistinct : (names.map foldName).Nodup)
    (h : env.ledger.Tallies names past) (registry : Registry) (now : Float) (places : List Nat) :
    Beat.AreTallied names past (s.beats registry now env places) ∧
      ((s.turns registry now places).run env).2.ledger.Tallies names
        (past ++ s.turnsOf registry now env places) := by
  induction places generalizing s env past with
  | nil =>
    refine ⟨trivial, ?_⟩
    rw [turnsOf, List.append_nil]
    exact h
  | cons i rest ih =>
    have hturn := tallies_turn hnames hdistinct h registry now i
    have hafter := (isSound_turn registry now s i env).names_eq.trans hnames
    obtain ⟨hbeats, hend⟩ := ih hafter hturn
    rw [List.append_assoc] at hend
    exact ⟨⟨hturn, hbeats⟩, hend⟩

end

end Schedule

end MissionScript

import MissionScript.Event.Tick
import MissionScript.Proofs.Game.Evaluation
import MissionScript.Proofs.Table

/-!
The turns of events. The ledger has a record of every event, and an event that can never fire is
exhausted; so what a turn enters into the ledger takes nothing back that was there.
-/

namespace MissionScript

namespace Event

/-- Whether the record of an event fits it. -/
def Fits (e : Event) (r : EventRecord) : Prop :=
  r.neverFires = true → e.state = .exhausted

theorem fire_name (e : Event) (now : Float) : (e.fire now).name = e.name := by
  unfold fire
  dsimp only
  split <;> rfl

theorem settle_name (e : Event) (now : Float) (reading : Truth) :
    (e.settle now reading).name = e.name := by
  cases reading <;> first | exact e.fire_name now | rfl

theorem book_goals (e : Event) (now : Float) (reading : Truth) (l : Ledger) :
    (e.book now reading l).goals = l.goals := by
  cases reading <;> rfl

/-- Other events are not concerned. -/
theorem event?_book (e : Event) (now : Float) (reading : Truth) (l : Ledger) {key : String}
    (hkey : key ≠ foldName e.name) :
    (e.book now reading l).events.find? key = l.events.find? key := by
  cases reading <;>
    simp [book, Ledger.eventFired, Ledger.eventNeverFires, Table.find?_update, hkey]

/-- An event that can still fire is entered into its record as it is settled. -/
theorem fits_book {e : Event} {l : Ledger} {r : EventRecord} (hr : l.event? e.name = some r)
    (hfires : r.neverFires = false) (now : Float) (reading : Truth) :
    ∃ r', (e.book now reading l).event? e.name = some r' ∧ (e.settle now reading).Fits r' := by
  have hfind : l.events.find? (foldName e.name) = some r := hr
  have hfired : ∃ r', (l.eventFired e.name now).event? e.name = some r' ∧
      r'.neverFires = false := by
    refine ⟨{ r with triggers := r.triggers + 1, first := some (r.first.getD now), last := some now },
      ?_, hfires⟩
    rw [Ledger.eventFired, Ledger.event?, Table.find?_update, if_pos rfl, hfind, Option.getD_some]
  cases reading with
  | trueNow | knownTrue =>
    obtain ⟨r', hr', hfires'⟩ := hfired
    exact ⟨r', hr', fun hnever => by rw [hfires'] at hnever; cases hnever⟩
  | knownFalse =>
    have hnever : (e.book now .knownFalse l).event? e.name = some { r with neverFires := true } := by
      rw [book, Ledger.eventNeverFires, Ledger.event?, Table.find?_update, if_pos rfl, hfind,
        Option.getD_some]
    exact ⟨_, hnever, fun _ => rfl⟩
  | falseNow | unknown =>
    exact ⟨r, hr, fun hnever => by rw [hfires] at hnever; cases hnever⟩

theorem leads_book {e : Event} {l : Ledger} {r : EventRecord} (hr : l.event? e.name = some r)
    (hfires : r.neverFires = false) (now : Float) (reading : Truth) :
    l.Leads (e.book now reading l) := by
  cases reading with
  | trueNow | knownTrue => exact Ledger.leads_eventFired hr hfires now
  | knownFalse => exact Ledger.leads_eventNeverFires hr
  | falseNow | unknown => exact .refl l

end Event

namespace Schedule

/-- Whether a ledger has a fitting record of every event. -/
def IsBooked (s : Schedule) (l : Ledger) : Prop :=
  l.events.Books Event.name Event.Fits s.events

/-- Replacing an event at its place. -/
theorem IsBooked.set {s : Schedule} {l l' : Ledger} (h : s.IsBooked l) {i : Nat} {e e' : Event}
    (hi : s.events[i]? = some e) (hname : e'.name = e.name)
    (hothers : ∀ key, key ≠ foldName e.name → l'.events.find? key = l.events.find? key)
    (hrecord : ∃ r, l'.event? e.name = some r ∧ e'.Fits r) :
    IsBooked ⟨s.events.set i e'⟩ l' := by
  obtain ⟨hlt, rfl⟩ := List.getElem?_eq_some_iff.1 hi
  have hsplit : s.events = s.events.take i ++ s.events[i] :: s.events.drop (i + 1) := by
    rw [List.getElem_cons_drop, List.take_append_drop]
  unfold IsBooked at h ⊢
  rw [hsplit] at h
  rw [List.set_eq_take_append_cons_drop, if_pos hlt]
  exact h.replace hname hothers hrecord

variable {s : Schedule} {env : Env Simulation}

/-- What a turn, or a row of turns, leaves behind. -/
structure Advances (env : Env Simulation) (s' : Schedule) (env' : Env Simulation) : Prop where
  booked : s'.IsBooked env'.ledger
  leads : env.Leads env'
  goals : env'.ledger.goals = env.ledger.goals

theorem advances_turn (h : s.IsBooked env.ledger) (registry : Registry) (now : Float) (i : Nat) :
    Advances env ((s.turn registry now i).run env).1.1 ((s.turn registry now i).run env).2 := by
  unfold turn
  cases hi : s.events[i]? with
  | none => exact ⟨h, .refl env, rfl⟩
  | some e =>
    obtain ⟨r, hr, hfits⟩ := h.records e (List.mem_of_getElem? hi)
    dsimp only
    cases hplan : e.plan (s.isOpened e now) now with
    | rest => exact ⟨h, .refl env, rfl⟩
    | retire =>
      refine ⟨h.set hi rfl (fun _ _ => rfl) ⟨r, hr, fun _ => rfl⟩, .refl env, rfl⟩
    | evaluate =>
      have hfires : r.neverFires = false := by
        rw [← Bool.not_eq_true]
        intro hnever
        rw [Event.plan_of_exhausted (hfits hnever)] at hplan
        cases hplan
      have hfollows := env.follows_evaluate registry e.name e.formula.root
      change Advances env
        ⟨s.events.set i (e.settle now ((evaluate registry e.name e.formula.root).run env).1.truth)⟩
        { ((evaluate registry e.name e.formula.root).run env).2 with
          ledger := e.book now ((evaluate registry e.name e.formula.root).run env).1.truth
            ((evaluate registry e.name e.formula.root).run env).2.ledger }
      generalize ((evaluate registry e.name e.formula.root).run env).1.truth = reading
      generalize ((evaluate registry e.name e.formula.root).run env).2 = env' at hfollows ⊢
      obtain ⟨hhost, hevents, hgoals⟩ := hfollows
      have hr' : env'.ledger.event? e.name = some r := by
        rw [Ledger.event?, hevents]
        exact hr
      refine ⟨?_, ⟨hhost, ?_⟩, (e.book_goals now reading _).trans hgoals⟩
      · refine h.set hi (e.settle_name now reading) (fun key hkey => ?_)
          (Event.fits_book hr' hfires now reading)
        rw [e.event?_book now reading _ hkey, hevents]
      · have hsame : env.ledger.Leads env'.ledger := Ledger.SameRecords.leads ⟨hevents, hgoals⟩
        exact hsame.trans (Event.leads_book hr' hfires now reading)

theorem advances_turns (h : s.IsBooked env.ledger) (registry : Registry) (now : Float)
    (places : List Nat) :
    Advances env ((s.turns registry now places).run env).1.1
      ((s.turns registry now places).run env).2 := by
  induction places generalizing s env with
  | nil => exact ⟨h, .refl env, rfl⟩
  | cons i rest ih =>
    have hfirst := advances_turn h registry now i
    have hrest := ih hfirst.booked
    exact ⟨hrest.booked, hfirst.leads.trans hrest.leads, hrest.goals.trans hfirst.goals⟩

theorem run_tick {H : Type} [Host H] (s : Schedule) (registry : Registry) (env : Env H) :
    (s.tick registry).run env =
      (s.turns registry (Host.time env.host) (List.range s.events.length)).run env := by
  rw [tick, StateT.run_bind, StateT.run_get, pure_bind]

theorem advances_tick (h : s.IsBooked env.ledger) (registry : Registry) :
    Advances env ((s.tick registry).run env).1.1 ((s.tick registry).run env).2 := by
  rw [run_tick]
  exact advances_turns h registry _ _

end Schedule

end MissionScript

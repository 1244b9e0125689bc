import MissionScript.Game.Simulation
import MissionScript.Proofs.Event.History

/-!
Safety of schedules over whole histories. An event that is exhausted stays as it is, no event fires
more often or sooner than it may, and none fires before the event that it waits for.
-/

namespace MissionScript

namespace Schedule

/-- The histories of schedules. Events are added and made to wait for each other, and there are ticks
    at any times, in any games and for any variables and ledgers. A history collects the turns of its
    ticks. -/
inductive History : Schedule → List (List Turn) → Prop where
  | empty : History .empty []
  | add {s s' : Schedule} {ticks : List (List Turn)} {e : Event} (h : History s ticks)
    (he : e.IsNew) (hadd : s.add e = .ok s') : History s' ticks
  | chain {s s' : Schedule} {ticks : List (List Turn)} {event predecessor : String}
    (h : History s ticks) (hchain : s.chainAfter event predecessor = .ok s') : History s' ticks
  | tick {H : Type} [Host H] {s : Schedule} {ticks : List (List Turn)} (h : History s ticks)
    (registry : Registry) (env : Env H) :
    History ((s.tick registry).run env).1.1 (ticks ++ [s.ticked registry env])

/-- Whether a turn is in order after the turns before it. -/
structure Turn.IsOrderly (t : Turn) (earlier : List Turn) : Prop where
  /-- what has become of events before leads to what they are now -/
  leads : ∀ t₀ ∈ earlier, t₀.after.Leads t.after
  /-- an event that is exhausted is not evaluated -/
  rests : ∀ t₀ ∈ earlier, ∀ e, t₀.after.events[t.place]? = some e → e.state = .exhausted →
    t.reading = none
  /-- the event that an event waits for has fired, and long enough ago -/
  opened : t.reading.isSome = true → ∀ e link, t.before.events[t.place]? = some e →
    e.chain = some link → ∃ p t₀, t.before.events[link.index]? = some p ∧
      p.name = link.predecessor ∧ (firings link.index earlier).getLast? = some t₀ ∧
      t.now ≥ t₀.now + p.chainDelay

/-- Whether the event at a place, if it has fired as often as it may, is exhausted. -/
def IsPrompt (s : Schedule) (i : Nat) : Prop :=
  ∀ e, s.events[i]? = some e → e.isSpent = true → e.state = .exhausted

section

variable {s s' : Schedule} {turns : List Turn} {t : Turn} {i : Nat}

theorem Turn.IsSound.isPrompt (ht : t.IsSound) (h : t.place = i ∨ t.before.IsPrompt i) :
    t.after.IsPrompt i := by
  obtain ⟨hafter, hevaluates⟩ := ht
  rw [hafter]
  intro e' hi' hspent
  obtain ⟨e, hi, rfl⟩ := getElem?_modify_eq_some.1 hi'
  by_cases hplace : t.place = i
  · rw [if_pos hplace] at hspent ⊢
    refine Event.exhausted_of_isSpent_turned (fun hreading => ?_) hspent
    obtain ⟨e', he', hplan⟩ := hevaluates hreading
    obtain rfl := Option.some.inj (hi.symm.trans (hplace ▸ he'))
    exact (Event.plan_eq_evaluate_iff.1 hplan).2.1
  · rw [if_neg hplace] at hspent ⊢
    exact h.resolve_left hplace e hi hspent

theorem Turns.isPrompt (h : Turns s turns s')
    (hi : i ∈ turns.map Turn.place ∨ s.IsPrompt i) : s'.IsPrompt i := by
  induction h with
  | nil s => exact hi.resolve_left (by simp)
  | @cons t rest s ht _ ih =>
    rw [List.map_cons, List.mem_cons] at hi
    rcases hi with (rfl | hi) | hi
    · exact ih (Or.inr (ht.isPrompt (Or.inl rfl)))
    · exact ih (Or.inl hi)
    · exact ih (Or.inr (ht.isPrompt (Or.inr hi)))

theorem Turns.length_eq (h : Turns s turns s') : s'.events.length = s.events.length := by
  induction h with
  | nil s => rfl
  | cons ht _ ih => rw [ih, ht.after_eq, List.length_modify]

theorem Turns.after_getLast? (h : Turns s turns s') : ∀ t ∈ turns.getLast?, t.after = s' := by
  induction h with
  | nil s => simp
  | @cons t rest s _ hrest ih =>
    cases rest with
    | nil =>
      have hlast : t.after = s := by
        generalize t.after = last at hrest
        cases hrest
        rfl
      simpa using hlast
    | cons => simpa using ih

theorem Past.isOrderly {earlier later : List Turn} (h : Past s turns)
    (hturns : turns = earlier ++ t :: later) : t.IsOrderly earlier := by
  obtain ⟨hpast, hsound⟩ := h.before hturns
  refine ⟨fun t₀ ht₀ => (hpast.leads t₀ ht₀).trans hsound.leads, fun t₀ ht₀ e hi hstate => ?_,
    fun hreading e link hi hlink => ?_⟩
  · cases hreading : t.reading with
    | none => rfl
    | some reading =>
      obtain ⟨e', hi', hplan⟩ := hsound.evaluates (by rw [hreading]; rfl)
      obtain ⟨e₁, hi₁, hlead⟩ := hpast.leads t₀ ht₀ t.place e hi
      obtain rfl := Option.some.inj (hi'.symm.trans hi₁)
      exact absurd (hlead.exhausted hstate).1 (Event.plan_eq_evaluate_iff.1 hplan).1
  · obtain ⟨e', hi', hplan⟩ := hsound.evaluates hreading
    obtain rfl := Option.some.inj (hi.symm.trans hi')
    obtain ⟨p, hp, hname⟩ := hpast.isLinked t.place e link hi hlink
    have hopened := (Event.plan_eq_evaluate_iff.1 hplan).2.2.2
    rw [isOpened, hlink, Option.all_some, hp, Option.any_some, Event.opens,
      (hpast.recounts link.index p hp).last] at hopened
    cases hfired : (firings link.index earlier).getLast? with
    | none =>
      rw [firings] at hfired
      rw [hfired] at hopened
      cases hopened
    | some t₀ =>
      rw [firings] at hfired
      rw [hfired, Option.map_some, Option.any_some, decide_eq_true_eq] at hopened
      exact ⟨p, t₀, hp, hname, rfl, hopened⟩

end

namespace History

variable {s : Schedule} {ticks : List (List Turn)}

theorem past (h : History s ticks) : Past s ticks.flatten := by
  induction h with
  | empty => exact .empty
  | add _ he hadd ih => exact ih.add he hadd
  | chain _ hchain ih => exact ih.chain hchain
  | tick _ registry env ih =>
    rw [List.flatten_concat]
    exact ih.append (turns_ticked registry _ env)

/-- In a tick every event has one turn, and then it is exhausted if it has fired as often as it
    may. -/
theorem ticks_once (h : History s ticks) : ∀ tick ∈ ticks, (tick.map Turn.place).Nodup ∧
    ∀ t ∈ tick.getLast?, ∀ e ∈ t.after.events, e.isSpent = true → e.state = .exhausted := by
  induction h with
  | empty => exact fun tick htick => absurd htick List.not_mem_nil
  | add _ _ _ ih | chain _ _ ih => exact ih
  | @tick H _ s ticks _ registry env ih =>
    refine List.forall_mem_append.2 ⟨ih, List.forall_mem_singleton.2 ?_⟩
    have hturns := turns_ticked registry s env
    have hplaces : (s.ticked registry env).map Turn.place = List.range s.events.length :=
      map_place_turnsOf registry _ s env _
    refine ⟨hplaces ▸ List.nodup_range, fun t ht e he => ?_⟩
    rw [hturns.after_getLast? t ht] at he
    obtain ⟨i, hi⟩ := List.mem_iff_getElem?.1 he
    have hlt : i < s.events.length := by
      rw [← hturns.length_eq]
      exact (List.getElem?_eq_some_iff.1 hi).1
    exact hturns.isPrompt (Or.inl (hplaces ▸ List.mem_range.2 hlt)) e hi

/-- Schedules are safe, whatever their history. Every turn is in order after those before it: events
    that are exhausted are left as they are and not evaluated any more, and an event that waits for
    another one is only evaluated when that one has fired and its delay is over. At every point every
    event fits the turns in which it was evaluated: it counts how often it has fired, which is never
    more than it may, knows when it fired last, has always waited out its interval, and is marked as
    fired only if it fired when it was last evaluated. In a tick every event has one turn, and after
    the tick those that have fired as often as they may are exhausted. -/
theorem safe (h : History s ticks) :
    (∀ earlier t later, ticks.flatten = earlier ++ t :: later →
      t.IsOrderly earlier ∧ t.after.Recounts (earlier ++ [t])) ∧
    (∀ t ∈ ticks.flatten, t.after.Leads s) ∧ s.Recounts ticks.flatten ∧
    ∀ tick ∈ ticks, (tick.map Turn.place).Nodup ∧
      ∀ t ∈ tick.getLast?, ∀ e ∈ t.after.events, e.repeats = e.triggers → e.state = .exhausted := by
  have hpast := h.past
  refine ⟨fun earlier t later hturns => ?_, hpast.leads, hpast.recounts, fun tick htick => ?_⟩
  · obtain ⟨hearlier, hsound⟩ := hpast.before hturns
    exact ⟨hpast.isOrderly hturns, hsound.recounts hearlier.recounts⟩
  · obtain ⟨honce, hspent⟩ := h.ticks_once tick htick
    refine ⟨honce, fun t ht e he hrepeats => hspent t ht e he (Event.isSpent_iff.2 ?_)⟩
    rw [hrepeats]
    exact ⟨Int.natCast_nonneg _, Int.le_refl _⟩

end History

namespace Alarm

/-- An alarm that is given twice, the second time at least two seconds later. -/
def alarm : Event :=
  { Event.simple "Alarm" ⟨.list [.atom (.operator "true") 1] 0, []⟩ with
    repeats := 2, interval := 2, chainDelay := 1 }

/-- The launch waits until a second after the last alarm. -/
def launch : Event :=
  .simple "Launch" ⟨.list [.atom (.operator "has-time-elapsed") 1, .atom (.number 2) 18] 0, []⟩

def schedule : Except ScheduleError Schedule := do
  let s ← Schedule.empty.add alarm
  let s ← s.add launch
  s.chainAfter "launch" "ALARM"

/-- An environment at a time. -/
def env (time : Float) : Env Simulation :=
  .start ((Simulation.start ⟨[], []⟩ (.rolls [])).setTime time) .empty .empty #[]

/-- Where the turns of ticks take place, and what the formulas say. -/
def readings (ticks : List (List Turn)) : List (List (Nat × Option Truth)) :=
  ticks.map fun tick => tick.map fun t => (t.place, t.reading)

/-- The schedule and the turns of ticks at several times. -/
def run (s : Schedule) : List Float → Schedule × List (List Turn)
  | [] => (s, [])
  | time :: rest =>
    let (after, later) := run ((s.tick Registry.builtin).run (env time)).1.1 rest
    (after, s.ticked Registry.builtin (env time) :: later)

theorem history_schedule {s : Schedule} (h : schedule = .ok s) : History s [] := by
  unfold schedule at h
  cases halarm : Schedule.empty.add alarm with
  | error e =>
    rw [halarm] at h
    cases h
  | ok s₁ =>
    rw [halarm] at h
    change (s₁.add launch >>= fun s => s.chainAfter "launch" "ALARM") = _ at h
    cases hlaunch : s₁.add launch with
    | error e =>
      rw [hlaunch] at h
      cases h
    | ok s₂ =>
      rw [hlaunch] at h
      have hnew : alarm.IsNew ∧ launch.IsNew := ⟨⟨rfl, rfl, rfl, rfl⟩, ⟨rfl, rfl, rfl, rfl⟩⟩
      exact ((History.empty.add hnew.1 halarm).add hnew.2 hlaunch).chain h

theorem history_run {s : Schedule} {ticks : List (List Turn)} (h : History s ticks)
    (times : List Float) : History (run s times).1 (ticks ++ (run s times).2) := by
  induction times generalizing s ticks with
  | nil => rwa [run, List.append_nil]
  | cons time rest ih =>
    rw [run, List.append_cons]
    exact ih (h.tick Registry.builtin (env time))

end Alarm

open Alarm in
/-- The alarm is given twice, and the launch follows a second after that. -/
theorem History.safe_alarm : ∃ s ticks, History s ticks ∧
    readings ticks = [[(0, some .knownTrue), (1, none)], [(0, none), (1, some .falseNow)],
      [(0, some .knownTrue), (1, none)], [(0, none), (1, some .knownTrue)]] ∧
    s.events.map Event.state = [.exhausted, .exhausted] ∧ s.Recounts ticks.flatten := by
  have hcheck : (match schedule with
    | .ok s =>
      decide (readings (run s [0, 1, 2, 3]).2 = [[(0, some .knownTrue), (1, none)],
        [(0, none), (1, some .falseNow)], [(0, some .knownTrue), (1, none)],
        [(0, none), (1, some .knownTrue)]]) &&
      decide ((run s [0, 1, 2, 3]).1.events.map Event.state = [.exhausted, .exhausted])
    | .error _ => false) = true := by decide +kernel
  cases hs : schedule with
  | error e =>
    rw [hs] at hcheck
    cases hcheck
  | ok s =>
    simp only [hs, Bool.and_eq_true, decide_eq_true_eq] at hcheck
    have hrun := history_run (history_schedule hs) [0, 1, 2, 3]
    exact ⟨_, _, hrun, hcheck.1, hcheck.2, hrun.safe.2.2.1⟩

end Schedule

end MissionScript

import MissionScript.Event.Tick
import MissionScript.Proofs.Evaluation.Journey

/-!
What one turn makes of a schedule. Only the event at its place is concerned, and all that matters of
the environment is what the formula of that event says, if it is evaluated at all.
-/

namespace MissionScript

namespace Event

/-- What a turn makes of an event, given what its formula says if it is evaluated. -/
def turned (e : Event) (now : Float) : (reading : Option Truth) → Event
  | some reading => e.settle now reading
  | none => if e.isSpent then e.exhaust else e

/-- What can become of an event. What its author has said of it stays, and once it is exhausted
    nothing happens to it any more. -/
structure Leads (e e' : Event) : Prop where
  name : e'.name = e.name
  repeats : e'.repeats = e.repeats
  interval : e'.interval = e.interval
  chainDelay : e'.chainDelay = e.chainDelay
  exhausted : e.state = .exhausted →
    e'.state = .exhausted ∧ e'.triggers = e.triggers ∧ e'.last = e.last

theorem Leads.refl (e : Event) : e.Leads e :=
  ⟨rfl, rfl, rfl, rfl, fun h => ⟨h, rfl, rfl⟩⟩

theorem Leads.trans {e₁ e₂ e₃ : Event} (h₁₂ : e₁.Leads e₂) (h₂₃ : e₂.Leads e₃) : e₁.Leads e₃ := by
  refine ⟨h₂₃.name.trans h₁₂.name, h₂₃.repeats.trans h₁₂.repeats, h₂₃.interval.trans h₁₂.interval,
    h₂₃.chainDelay.trans h₁₂.chainDelay, fun h => ?_⟩
  obtain ⟨hstate, htriggers, hlast⟩ := h₁₂.exhausted h
  obtain ⟨hstate', htriggers', hlast'⟩ := h₂₃.exhausted hstate
  exact ⟨hstate', htriggers'.trans htriggers, hlast'.trans hlast⟩

/-- An event that fires counts it, and it is exhausted if that was the last time. -/
theorem fire_eq (e : Event) (now : Float) : e.fire now =
    { e with
      triggers := e.triggers + 1
      last := some now
      state := if 0 ≤ e.repeats ∧ e.repeats ≤ (e.triggers + 1 : Nat) then .exhausted else .fired } := by
  simp only [fire, exhaust, isSpent, Bool.and_eq_true, decide_eq_true_eq]
  split <;> rfl

theorem isSpent_iff {e : Event} : e.isSpent = true ↔ 0 ≤ e.repeats ∧ e.repeats ≤ e.triggers := by
  simp [isSpent]

/-- An event is evaluated only if it may still fire, has waited out its interval, and is let by the
    event that it waits for. -/
theorem plan_eq_evaluate_iff {e : Event} {isOpened : Bool} {now : Float} :
    e.plan isOpened now = .evaluate ↔
      e.state ≠ .exhausted ∧ e.isSpent = false ∧ e.hasWaited now = true ∧ isOpened = true := by
  unfold plan
  split
  · simp [*]
  · split
    · simp [*]
    · split <;> simp_all

/-- Nothing happens to an event that rests. -/
theorem turned_of_rest {e : Event} {isOpened : Bool} {now : Float}
    (h : e.plan isOpened now = .rest) : e.turned now none = e := by
  rw [turned]
  split
  · next hspent =>
    by_cases hstate : e.state = .exhausted
    · rw [exhaust, ← hstate]
    · rw [plan, if_neg hstate, if_pos hspent] at h
      cases h
  · rfl

theorem turned_of_retire {e : Event} {isOpened : Bool} {now : Float}
    (h : e.plan isOpened now = .retire) : e.turned now none = e.exhaust := by
  rw [turned]
  split
  · rfl
  · next hspent =>
    unfold plan at h
    rw [if_neg hspent] at h
    split at h
    · cases h
    · split at h <;> cases h

theorem leads_settle {e : Event} (h : e.state ≠ .exhausted) (now : Float) (reading : Truth) :
    e.Leads (e.settle now reading) := by
  have hexhausted (hstate : e.state = .exhausted) {P : Prop} : P := absurd hstate h
  cases reading with
  | trueNow | knownTrue =>
    rw [settle, fire_eq]
    exact ⟨rfl, rfl, rfl, rfl, fun hstate => hexhausted hstate⟩
  | knownFalse | falseNow | unknown => exact ⟨rfl, rfl, rfl, rfl, fun hstate => hexhausted hstate⟩

theorem leads_unread (e : Event) (now : Float) : e.Leads (e.turned now none) := by
  rw [turned]
  split
  · exact ⟨rfl, rfl, rfl, rfl, fun _ => ⟨rfl, rfl, rfl⟩⟩
  · exact .refl e

/-- No turn changes the name of an event, or what it waits for. -/
theorem turned_name_chain (e : Event) (now : Float) (reading : Option Truth) :
    (e.turned now reading).name = e.name ∧ (e.turned now reading).chain = e.chain := by
  cases reading with
  | none =>
    rw [turned]
    split <;> exact ⟨rfl, rfl⟩
  | some reading =>
    cases reading with
    | trueNow | knownTrue =>
      rw [turned, settle, fire_eq]
      exact ⟨rfl, rfl⟩
    | knownFalse | falseNow | unknown => exact ⟨rfl, rfl⟩

theorem turned_formula (e : Event) (now : Float) (reading : Option Truth) :
    (e.turned now reading).formula = e.formula := by
  cases reading with
  | none =>
    rw [turned]
    split <;> rfl
  | some reading =>
    cases reading with
    | trueNow | knownTrue => rw [turned, settle, fire_eq]
    | knownFalse | falseNow | unknown => rfl

/-- After its turn an event that has fired as often as it may is exhausted. -/
theorem exhausted_of_isSpent_turned {e : Event} {now : Float} {reading : Option Truth}
    (hunspent : reading.isSome = true → e.isSpent = false)
    (h : (e.turned now reading).isSpent = true) : (e.turned now reading).state = .exhausted := by
  cases reading with
  | none =>
    rw [turned] at h ⊢
    split
    · rfl
    · next hspent =>
      rw [if_neg hspent] at h
      exact absurd h hspent
  | some reading =>
    cases reading with
    | trueNow | knownTrue =>
      rw [turned, settle, fire_eq, isSpent_iff] at h
      rw [turned, settle, fire_eq]
      exact if_pos h
    | knownFalse => rfl
    | falseNow | unknown => exact absurd (h.symm.trans (hunspent rfl)) (by decide)

end Event

namespace Schedule

/-- What the formula of the event at a place says in its turn, if it is evaluated. -/
def reading? {H : Type} [Host H] (registry : Registry) (now : Float) (s : Schedule) (i : Nat)
    (env : Env H) : Option Truth :=
  if (s.turn registry now i).evaluates env then
    (s.events[i]?).map fun e => ((evaluate registry e.name e.formula.root).run env).1.truth
  else none

/-- A turn of the event at a place: the schedules before and after it, and what the formula of the
    event said if it was evaluated. -/
structure Turn where
  place : Nat
  now : Float
  before : Schedule
  reading : Option Truth
  after : Schedule

/-- The turns of the events at several places. -/
def turnsOf {H : Type} [Host H] (registry : Registry) (now : Float) (s : Schedule) (env : Env H) :
    List Nat → List Turn
  | [] => []
  | i :: rest =>
    let ((after, _), env') := (s.turn registry now i).run env
    ⟨i, now, s, s.reading? registry now i env, after⟩ :: after.turnsOf registry now env' rest

/-- The turns of a tick. -/
def ticked {H : Type} [Host H] (registry : Registry) (s : Schedule) (env : Env H) : List Turn :=
  s.turnsOf registry (Host.time env.host) env (List.range s.events.length)

/-- Whether an event fires in a turn. -/
def Turn.fires (t : Turn) : Bool :=
  t.reading.any Truth.isTrue

/-- Whether a turn does what turns do. -/
structure Turn.IsSound (t : Turn) : Prop where
  after_eq : t.after = ⟨t.before.events.modify t.place (·.turned t.now t.reading)⟩
  evaluates : t.reading.isSome = true → ∃ e, t.before.events[t.place]? = some e ∧
    e.plan (t.before.isOpened e t.now) t.now = .evaluate

/-- Whether turns lead from one schedule to another one. -/
inductive Turns : Schedule → List Turn → Schedule → Prop where
  | nil (s : Schedule) : Turns s [] s
  | cons {t : Turn} {rest : List Turn} {s : Schedule} (ht : t.IsSound) (hrest : Turns t.after rest s) :
    Turns t.before (t :: rest) s

section

variable {H : Type} [Host H] {registry : Registry} {now : Float} {s : Schedule} {i : Nat}
  {env : Env H}

/-- It is the plan of an event that says whether its formula is evaluated. -/
theorem evaluates_turn_iff {e : Event} (hi : s.events[i]? = some e) :
    (s.turn registry now i).evaluates env = true ↔
      e.plan (s.isOpened e now) now = .evaluate := by
  unfold turn
  rw [hi]
  dsimp only
  cases e.plan (s.isOpened e now) now with
  | rest | retire => exact ⟨nofun, nofun⟩
  | evaluate =>
    refine iff_of_true ?_ rfl
    have htrace := isEmpty_trace_evaluate registry e.name e.formula.root { env with trace := #[] }
    rw [EvalM.evaluates, Bool.not_eq_true']
    exact htrace

theorem reading?_eq : s.reading? registry now i env = (s.events[i]?).bind fun e =>
    match e.plan (s.isOpened e now) now with
    | .rest | .retire => none
    | .evaluate => some ((evaluate registry e.name e.formula.root).run env).1.truth := by
  unfold reading?
  cases hi : s.events[i]? with
  | none => exact ite_self none
  | some e =>
    simp only [evaluates_turn_iff hi, Option.map_some, Option.bind_some]
    cases e.plan (s.isOpened e now) now <;> rfl

/-- A turn concerns the event at its place only, and an event that is not evaluated leaves the
    environment alone. -/
theorem run_turn_of_reading?_eq_none (h : s.reading? registry now i env = none) :
    (s.turn registry now i).run env = ((⟨s.events.modify i (·.turned now none)⟩, []), env) := by
  rw [reading?_eq] at h
  unfold turn
  rw [List.modify_eq_set_getElem?]
  cases hi : s.events[i]? with
  | none => rfl
  | some e =>
    rw [hi, Option.bind_some] at h
    dsimp only
    cases hplan : e.plan (s.isOpened e now) now with
    | rest =>
      obtain ⟨hlt, rfl⟩ := List.getElem?_eq_some_iff.1 hi
      simp only [Event.turned_of_rest hplan, Option.map_eq_map, Option.map_some, Option.getD_some,
        List.set_getElem_self]
      rfl
    | retire =>
      simp only [Event.turned_of_retire hplan, Option.map_eq_map, Option.map_some, Option.getD_some]
      rfl
    | evaluate =>
      rw [hplan] at h
      cases h

/-- A turn in which a formula is evaluated. -/
theorem run_turn_of_reading?_eq_some {reading : Truth}
    (h : s.reading? registry now i env = some reading) :
    ((s.turn registry now i).run env).1.1 = ⟨s.events.modify i (·.turned now (some reading))⟩ ∧
      ∃ e, s.events[i]? = some e ∧ e.plan (s.isOpened e now) now = .evaluate := by
  rw [reading?_eq] at h
  obtain ⟨e, hi, hreading⟩ := Option.bind_eq_some_iff.1 h
  cases hplan : e.plan (s.isOpened e now) now with
  | rest | retire =>
    rw [hplan] at hreading
    cases hreading
  | evaluate =>
    rw [hplan] at hreading
    obtain rfl := Option.some.inj hreading
    refine ⟨?_, e, hi, hplan⟩
    unfold turn
    rw [List.modify_eq_set_getElem?, hi]
    dsimp only
    rw [hplan]
    rfl

theorem isSound_turn (registry : Registry) (now : Float) (s : Schedule) (i : Nat) (env : Env H) :
    Turn.IsSound ⟨i, now, s, s.reading? registry now i env,
      ((s.turn registry now i).run env).1.1⟩ := by
  cases h : s.reading? registry now i env with
  | none => exact ⟨by rw [run_turn_of_reading?_eq_none h], nofun⟩
  | some reading =>
    obtain ⟨hafter, hplan⟩ := run_turn_of_reading?_eq_some h
    exact ⟨hafter, fun _ => hplan⟩

/-- The turns of several events lead to what these events leave behind. -/
theorem turns_turnsOf (registry : Registry) (now : Float) (s : Schedule) (env : Env H)
    (places : List Nat) : Turns s (s.turnsOf registry now env places)
      ((s.turns registry now places).run env).1.1 := by
  induction places generalizing s env with
  | nil => exact .nil s
  | cons i rest ih => exact .cons (isSound_turn registry now s i env) (ih _ _)

theorem map_place_turnsOf (registry : Registry) (now : Float) (s : Schedule) (env : Env H)
    (places : List Nat) : (s.turnsOf registry now env places).map Turn.place = places := by
  induction places generalizing s env with
  | nil => rfl
  | cons i rest ih => exact congrArg (i :: ·) (ih _ _)

theorem turns_ticked (registry : Registry) (s : Schedule) (env : Env H) :
    Turns s (s.ticked registry env) ((s.tick registry).run env).1.1 := by
  have htick : (s.tick registry).run env =
      (s.turns registry (Host.time env.host) (List.range s.events.length)).run env := by
    rw [tick, StateT.run_bind]
    rfl
  rw [htick, ticked]
  exact turns_turnsOf registry _ s env _

end

end Schedule

end MissionScript

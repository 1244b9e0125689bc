import MissionScript.Proofs.Evaluation.Latches
import MissionScript.Proofs.Goal.Pass
import MissionScript.Proofs.Mission.Course

/-!
The occasions on which a mission evaluates its formulas: the turns of its events and the attempts at its
goals. They follow each other, so that nothing else is remembered of formulas, and each is an occasion
of a formula that the mission has had from the start.
-/

namespace MissionScript

section

variable {H : Type} [Host H]

namespace Schedule

/-- The occasion on which the formula of the event at a place is evaluated in its turn, if it is. -/
def occasion? (registry : Registry) (now : Float) (s : Schedule) (i : Nat) (env : Env H) :
    Option (Occasion H) :=
  if (s.turn registry now i).evaluates env then
    (s.events[i]?).map fun e => ⟨.event i, e.name, e.formula.root, env⟩
  else none

/-- The occasions of the turns of events at several places. -/
def occasions (registry : Registry) (now : Float) (s : Schedule) (env : Env H) :
    List Nat → List (Occasion H)
  | [] => []
  | i :: rest =>
    let ((after, _), env') := (s.turn registry now i).run env
    (s.occasion? registry now i env).toList ++ after.occasions registry now env' rest

end Schedule

namespace Goal

/-- The occasion on which the formula of a goal is evaluated in an attempt at it, if it is. -/
def occasion? (registry : Registry) (now : Float) (place : Nat) (g : Goal) (env : Env H) :
    Option (Occasion H) :=
  if (g.attempt registry now).evaluates env then some ⟨.goal place, g.name, g.formula.root, env⟩
  else none

/-- The occasions of attempts at goals, from a place on. -/
def occasions (registry : Registry) (now : Float) (place : Nat) (env : Env H) :
    List Goal → List (Occasion H)
  | [] => []
  | g :: rest =>
    let (_, env') := (g.attempt registry now).run env
    (g.occasion? registry now place env).toList ++ occasions registry now (place + 1) env' rest

end Goal

/-- The occasions of a tick, first those of events and then those of goals. -/
def Run.occasions (r : Run) (host : H) : List (Occasion H) :=
  let s := r.mission.schedule
  let ((t, _), changed) := r.changesDone host
  s.occasions r.registry (Host.time host) (r.env host) (List.range s.events.length) ++
    Goal.occasions r.registry (r.attemptTime host) 0 changed t.goals

/-- Whether a part of an environment has nothing to do with the records of events and goals. -/
def Env.IsUnrecorded {α : Type} (part : Env H → α) : Prop :=
  ∀ env events goals, part { env with ledger := { env.ledger with events, goals } } = part env

/-- Whether occasions hand on a part of the environment: each one finds of it what the one before it has
    left. -/
def Occasion.HandOn {α : Type} (part : Env H → α) (registry : Registry) : α → List (Occasion H) → α → Prop
  | first, [], last => last = first
  | first, o :: rest, last =>
    part o.env = first ∧ HandOn part registry (part (o.after registry)) rest last

section

variable {α : Type} {part : Env H → α} {registry : Registry}

theorem Occasion.handOn_append {first last : α} {os os' : List (Occasion H)} :
    HandOn part registry first (os ++ os') last ↔
      ∃ between, HandOn part registry first os between ∧ HandOn part registry between os' last := by
  induction os generalizing first with
  | nil => simp [HandOn]
  | cons o rest ih => simp only [List.cons_append, HandOn, ih, and_assoc, exists_and_left]

/-- Occasions follow each other if they hand on what is remembered. -/
theorem Occasion.HandOn.follow {first last : Table (String × Path) Float} {os : List (Occasion H)}
    (h : HandOn (fun env => env.ledger.latches) registry first os last) :
    Follow registry first os last := by
  induction os generalizing first with
  | nil => exact h
  | cons o rest ih => exact ⟨h.1, ih h.2⟩

/-- Besides evaluating its formula, the turn of an event is only entered into the records. -/
theorem Schedule.handOn_turn (hpart : Env.IsUnrecorded part) (registry : Registry) (now : Float)
    (s : Schedule) (i : Nat) (env : Env H) : Occasion.HandOn part registry (part env)
      (s.occasion? registry now i env).toList (part ((s.turn registry now i).run env).2) := by
  cases hi : s.events[i]? with
  | none =>
    rw [occasion?, hi, Option.map_none, ite_self]
    unfold turn
    rw [hi]
    rfl
  | some e =>
    rw [occasion?, hi, Option.map_some]
    cases hplan : e.plan (s.isOpened e now) now with
    | rest | retire =>
      rw [if_neg (by rw [evaluates_turn_iff hi, hplan]; exact nofun)]
      unfold turn
      rw [hi]
      dsimp only
      rw [hplan]
      rfl
    | evaluate =>
      rw [if_pos ((evaluates_turn_iff hi).2 hplan)]
      unfold turn
      rw [hi]
      dsimp only
      rw [hplan]
      refine ⟨rfl, ?_⟩
      have hbook (reading : Truth) (env : Env H) :
          part { env with ledger := e.book now reading env.ledger } = part env := by
        cases reading <;> exact hpart env _ env.ledger.goals
      exact hbook _ _

theorem Schedule.handOn_turns (hpart : Env.IsUnrecorded part) (registry : Registry) (now : Float)
    (s : Schedule) (env : Env H) (places : List Nat) : Occasion.HandOn part registry (part env)
      (s.occasions registry now env places) (part ((s.turns registry now places).run env).2) := by
  induction places generalizing s env with
  | nil => rfl
  | cons i rest ih =>
    exact Occasion.handOn_append.2 ⟨_, handOn_turn hpart registry now s i env, ih _ _⟩

/-- Besides evaluating its formula, an attempt at a goal is only entered into the records. -/
theorem Goal.handOn_attempt (hpart : Env.IsUnrecorded part) (registry : Registry) (now : Float)
    (place : Nat) (g : Goal) (env : Env H) : Occasion.HandOn part registry (part env)
      (g.occasion? registry now place env).toList (part ((g.attempt registry now).run env).2) := by
  rw [occasion?]
  cases hopen : g.isOpen with
  | false =>
    rw [if_neg (by rw [evaluates_attempt_iff, hopen]; exact nofun)]
    unfold attempt
    rw [if_neg (by simp [hopen])]
    rfl
  | true =>
    rw [if_pos (evaluates_attempt_iff.2 hopen), run_attempt hopen]
    refine ⟨rfl, ?_⟩
    rw [Occasion.after]
    generalize (evaluate registry g.name g.formula.root).run env = result
    obtain ⟨value, env'⟩ := result
    dsimp only
    cases decision? value.truth with
    | none => rfl
    | some status => exact hpart env' env'.ledger.events _

theorem Goal.handOn_attemptAll (hpart : Env.IsUnrecorded part) (registry : Registry) (now : Float)
    (place : Nat) (goals : List Goal) (env : Env H) : Occasion.HandOn part registry (part env)
      (occasions registry now place env goals)
      (part ((attemptAll registry now goals).run env).2) := by
  induction goals generalizing place env with
  | nil => rfl
  | cons g rest ih =>
    exact Occasion.handOn_append.2 ⟨_, handOn_attempt hpart registry now place g env, ih _ _⟩

end

namespace Run

/-- The occasions of a tick follow each other. -/
theorem follow_tick (r : Run) (host : H) : Occasion.Follow r.registry r.mission.ledger.latches
    (r.occasions host) (r.tick host).run.mission.ledger.latches := by
  have hpart : Env.IsUnrecorded fun env : Env H => env.ledger.latches := fun _ _ _ => rfl
  have hevents := Schedule.handOn_turns hpart r.registry (Host.time host) r.mission.schedule
    (r.env host) (List.range r.mission.schedule.events.length)
  have hgoals := Goal.handOn_attemptAll hpart r.registry (r.attemptTime host) 0
    (r.changesDone host).1.1.goals (r.changesDone host).2
  exact (Occasion.handOn_append.2 ⟨_, hevents, hgoals⟩).follow

theorem follow_along (r : Run) (hosts : List H) : Occasion.Follow r.registry r.mission.ledger.latches
    (r.along occasions hosts) (r.after hosts).mission.ledger.latches := by
  induction hosts generalizing r with
  | nil => rfl
  | cons host rest ih => exact Occasion.follow_append.2 ⟨_, r.follow_tick host, ih (r.tick host).run⟩

end Run

end

/-- The name and the formula of an event. -/
def Event.signed (e : Event) : String × Node :=
  (e.name, e.formula.root)

/-- The name and the formula of a goal. -/
def Goal.signed (g : Goal) : String × Node :=
  (g.name, g.formula.root)

namespace Mission

/-- The name and the formula of the event or the goal at a place. -/
def formula? (m : Mission) : FormulaOwner → Option (String × Node)
  | .event i => (m.schedule.events[i]?).map Event.signed
  | .goal i => (m.tracker.goals[i]?).map Goal.signed

/-- Whether a mission has the formulas of another one. -/
structure SameFormulas (m m' : Mission) : Prop where
  events : m'.schedule.events.map Event.signed = m.schedule.events.map Event.signed
  goals : m'.tracker.goals.map Goal.signed = m.tracker.goals.map Goal.signed

theorem SameFormulas.formula?_eq {m m' : Mission} (h : m.SameFormulas m') : m'.formula? = m.formula? := by
  funext owner
  cases owner with
  | event i => rw [formula?, formula?, ← List.getElem?_map, ← List.getElem?_map, h.events]
  | goal i => rw [formula?, formula?, ← List.getElem?_map, ← List.getElem?_map, h.goals]

end Mission

section

variable {H : Type} [Host H]

theorem Event.signed_turned (e : Event) (now : Float) (reading : Option Truth) :
    (e.turned now reading).signed = e.signed := by
  rw [signed, signed, e.turned_formula, (e.turned_name_chain now reading).1]

/-- Every occasion in the turns of events is one of an event that was there at first. -/
theorem Schedule.signed_of_mem_occasions {registry : Registry} {now : Float} {s : Schedule} {env : Env H}
    {places : List Nat} : ∀ o ∈ s.occasions registry now env places, ∃ i, o.owner = .event i ∧
      (s.events.map Event.signed)[i]? = some (o.name, o.root) := by
  induction places generalizing s env with
  | nil => exact nofun
  | cons i rest ih =>
    have hsound := isSound_turn registry now s i env
    refine List.forall_mem_append.2 ⟨fun o ho => ?_, fun o ho => ?_⟩
    · rw [Option.mem_toList, occasion?] at ho
      split at ho
      · obtain ⟨e, he, rfl⟩ := Option.map_eq_some_iff.1 ho
        exact ⟨i, rfl, by rw [List.getElem?_map, he]; rfl⟩
      · cases ho
    · obtain ⟨j, howner, hsigned⟩ := ih o ho
      refine ⟨j, howner, ?_⟩
      rwa [← hsound.map_eq Event.signed_turned]

/-- Every occasion in attempts at goals is one of these goals. -/
theorem Goal.signed_of_mem_occasions {registry : Registry} {now : Float} {place : Nat}
    {goals : List Goal} {env : Env H} : ∀ o ∈ occasions registry now place env goals,
      ∃ i, o.owner = .goal (place + i) ∧ (goals.map signed)[i]? = some (o.name, o.root) := by
  induction goals generalizing place env with
  | nil => exact nofun
  | cons g rest ih =>
    refine List.forall_mem_append.2 ⟨fun o ho => ?_, fun o ho => ?_⟩
    · rw [Option.mem_toList, occasion?] at ho
      split at ho
      · obtain rfl := Option.some.inj ho
        exact ⟨0, rfl, rfl⟩
      · cases ho
    · obtain ⟨i, howner, hsigned⟩ := ih o ho
      exact ⟨i + 1, by rw [howner]; congr 1; omega, hsigned⟩

namespace Run

theorem map_signed_changesDone (r : Run) (host : H) : (r.changesDone host).1.1.goals.map Goal.signed =
    r.mission.tracker.goals.map Goal.signed :=
  Goal.map_eq_of_sameButValidity (Goal.sameButValidity_directAll _ _ _).1 fun _ _ => rfl

theorem sameFormulas_tick (r : Run) (host : H) : r.mission.SameFormulas (r.tick host).run.mission := by
  constructor
  · exact (Schedule.turns_ticked r.registry r.mission.schedule (r.env host)).map_eq Event.signed_turned
  · exact (r.mission.tracker.passes_tick r.registry (r.eventsDone host).2).map_eq (fun _ _ => rfl)
      fun _ _ => rfl

/-- Every occasion in the course of a run is one of a formula of the mission. -/
theorem formula?_of_mem_along (r : Run) (hosts : List H) : ∀ o ∈ r.along occasions hosts,
    r.mission.formula? o.owner = some (o.name, o.root) := by
  induction hosts generalizing r with
  | nil => exact nofun
  | cons host rest ih =>
    refine List.forall_mem_append.2 ⟨List.forall_mem_append.2 ⟨fun o ho => ?_, fun o ho => ?_⟩,
      fun o ho => ?_⟩
    · obtain ⟨i, howner, hsigned⟩ := Schedule.signed_of_mem_occasions o ho
      rwa [howner, Mission.formula?, ← List.getElem?_map]
    · obtain ⟨i, howner, hsigned⟩ := Goal.signed_of_mem_occasions o ho
      rw [Nat.zero_add] at howner
      rw [howner, Mission.formula?, ← List.getElem?_map, ← r.map_signed_changesDone host]
      exact hsigned
    · rw [← (r.sameFormulas_tick host).formula?_eq]
      exact ih _ o ho

end Run

end

end MissionScript

import MissionScript.Mission.Run
import MissionScript.Proofs.Mission.Loading

/-!
Histories of runs: the mission ticks, and in between something may happen to the game. A history
collects the moments that it goes through, also those inside of a tick; each of them leads to the
later ones.
-/

namespace MissionScript

section

variable {H : Type} [Host H]

/-- The environments after each of a row of turns. -/
def Schedule.moments (registry : Registry) (now : Float) (s : Schedule) (env : Env H) :
    List Nat → List (Env H)
  | [] => []
  | i :: rest =>
    let ((s, _), env) := (s.turn registry now i).run env
    env :: s.moments registry now env rest

/-- The environments after each of a row of attempts at goals. -/
def Goal.moments (registry : Registry) (now : Float) (env : Env H) : List Goal → List (Env H)
  | [] => []
  | g :: rest =>
    let (_, env) := (g.attempt registry now).run env
    env :: moments registry now env rest

namespace Run

/-- The environment of a run between two ticks. -/
def env (r : Run) (host : H) : Env H :=
  Env.start host r.mission.vars r.mission.ledger #[]

/-- What the events of a tick leave behind. -/
def eventsDone (r : Run) (host : H) : (Schedule × List Notification) × Env H :=
  (r.mission.schedule.tick r.registry).run (r.env host)

/-- What the changes that were asked for make of that. -/
def changesDone (r : Run) (host : H) : (Tracker × List Notification) × Env H :=
  let env := (r.eventsDone host).2
  (r.mission.tracker.obey (Host.time env.host)).run env

/-- The time of the attempts at goals. -/
def attemptTime (r : Run) (host : H) : Float :=
  Host.time (r.eventsDone host).2.host

/-- What the attempts at goals leave behind. -/
def goalsDone (r : Run) (host : H) : (List Goal × List Notification) × Env H :=
  let ((t, _), env) := r.changesDone host
  (Goal.attemptAll r.registry (r.attemptTime host) t.goals).run env

/-- The environments that a tick goes through: after the turn of each event, after the changes that
    were asked for, and after the attempt at each goal. -/
def moments (r : Run) (host : H) : List (Env H) :=
  let s := r.mission.schedule
  let ((t, _), changed) := r.changesDone host
  s.moments r.registry (Host.time host) (r.env host) (List.range s.events.length) ++
    changed :: Goal.moments r.registry (r.attemptTime host) changed t.goals

end Run

end

/-- The histories of a run that starts in a game: what comes of them, and their moments in order. -/
inductive Run.History (start : Run) (game : Simulation) :
    Run → Simulation → List (Env Simulation) → Prop where
  | start : History start game start game [start.env game]
  | happening {r : Run} {g g' : Simulation} {ms : List (Env Simulation)}
    (h : History start game r g ms) (hg : g.Happening g') :
    History start game r g' (ms ++ [r.env g'])
  | tick {r : Run} {g : Simulation} {ms : List (Env Simulation)} (h : History start game r g ms) :
    History start game (r.tick g).run (r.tick g).host (ms ++ r.moments g)

namespace Env

/-- Whether environments come one after the other between two others. -/
structure Rises (env : Env Simulation) (ms : List (Env Simulation)) (env' : Env Simulation) : Prop where
  ordered : ms.Pairwise Leads
  before : ∀ m ∈ ms, env.Leads m
  after : ∀ m ∈ ms, m.Leads env'
  leads : env.Leads env'

theorem Rises.nil {env env' : Env Simulation} (h : env.Leads env') : env.Rises [] env' :=
  ⟨.nil, nofun, nofun, h⟩

theorem Rises.append {env₁ env₂ env₃ : Env Simulation} {ms ms' : List (Env Simulation)}
    (h : env₁.Rises ms env₂) (h' : env₂.Rises ms' env₃) : env₁.Rises (ms ++ ms') env₃ := by
  refine ⟨?_, ?_, ?_, h.leads.trans h'.leads⟩
  · refine List.pairwise_append.2 ⟨h.ordered, h'.ordered, fun m hm m' hm' => ?_⟩
    exact (h.after m hm).trans (h'.before m' hm')
  · intro m hm
    rcases List.mem_append.1 hm with hm | hm
    · exact h.before m hm
    · exact h.leads.trans (h'.before m hm)
  · intro m hm
    rcases List.mem_append.1 hm with hm | hm
    · exact (h.after m hm).trans h'.leads
    · exact h'.after m hm

theorem Rises.append_nil {env₁ env₂ env₃ : Env Simulation} {ms : List (Env Simulation)}
    (h : env₁.Rises ms env₂) (h' : env₂.Leads env₃) : env₁.Rises ms env₃ := by
  have happend := h.append (.nil h')
  rwa [List.append_nil] at happend

theorem Rises.single {env env' : Env Simulation} (h : env.Leads env') : env.Rises [env'] env' :=
  ⟨List.pairwise_singleton _ _, by simpa using h, by simpa using Leads.refl env', h⟩

theorem Rises.cons {env env₁ env₂ : Env Simulation} {ms : List (Env Simulation)}
    (h : env.Leads env₁) (h' : env₁.Rises ms env₂) : env.Rises (env₁ :: ms) env₂ :=
  (Rises.single h).append h'

end Env

section

variable {env : Env Simulation}

theorem Schedule.rises_moments {s : Schedule} (h : s.IsBooked env.ledger) (registry : Registry)
    (now : Float) (places : List Nat) : env.Rises (s.moments registry now env places)
      ((s.turns registry now places).run env).2 := by
  induction places generalizing s env with
  | nil => exact .nil (.refl env)
  | cons i rest ih =>
    have hturn := advances_turn h registry now i
    exact .cons hturn.leads (ih hturn.booked)

theorem Goal.rises_moments {before goals : List Goal} (h : AreBooked (before ++ goals) env.ledger)
    (registry : Registry) (now : Float) : env.Rises (Goal.moments registry now env goals)
      ((attemptAll registry now goals).run env).2 := by
  induction goals generalizing before env with
  | nil => exact .nil (.refl env)
  | cons g rest ih =>
    have hattempt := advances_attempt h registry now
    rw [List.append_cons] at hattempt
    exact .cons hattempt.leads (ih hattempt.booked)

end

namespace Run

variable {r : Run} {g : Simulation}

/-- Whether the ledger of a run has a record of every event and every goal. -/
def IsBooked (r : Run) : Prop :=
  r.mission.schedule.IsBooked r.mission.ledger ∧ Goal.AreBooked r.mission.tracker.goals r.mission.ledger

theorem tick_eq (r : Run) (g : Simulation) :
    (r.tick g).host = (r.goalsDone g).2.host ∧
      (r.tick g).run.mission.ledger = (r.goalsDone g).2.ledger ∧
      (r.tick g).run.mission.schedule = (r.eventsDone g).1.1 ∧
      (r.tick g).run.mission.tracker.goals = (r.goalsDone g).1.1 :=
  ⟨rfl, rfl, rfl, (Tracker.refresh_spec _ false _).1⟩

/-- What a tick goes through lies between the environments before and after it. -/
theorem rises_tick (h : r.IsBooked) (g : Simulation) :
    (r.env g).Rises (r.moments g) ((r.tick g).run.env (r.tick g).host) ∧ (r.tick g).run.IsBooked := by
  obtain ⟨hschedule, hgoals⟩ := h
  obtain ⟨hhost, hledger, hschedule', hgoals'⟩ := r.tick_eq g
  have hevents : Schedule.Advances (r.env g) (r.eventsDone g).1.1 (r.eventsDone g).2 :=
    Schedule.advances_tick hschedule r.registry
  have hunchanged : Goal.AreBooked r.mission.tracker.goals (r.eventsDone g).2.ledger := by
    rw [Goal.AreBooked, hevents.goals]
    exact hgoals
  have hchanges : Goal.Advances (r.eventsDone g).2 (r.changesDone g).1.1.goals (r.changesDone g).2 :=
    Tracker.advances_obey hunchanged _
  have hattempts : Goal.Advances (r.changesDone g).2 (r.goalsDone g).1.1 (r.goalsDone g).2 :=
    @Goal.advances_attemptAll _ [] _ hchanges.booked r.registry (r.attemptTime g)
  have hend : (r.goalsDone g).2.Leads ((r.tick g).run.env (r.tick g).host) := by
    rw [Env.Leads, env, Env.start, hhost, hledger]
    exact ⟨.refl _, .refl _⟩
  constructor
  · have hturns : (r.env g).Rises _ ((r.mission.schedule.turns r.registry
        (Host.time (r.env g).host) (List.range r.mission.schedule.events.length)).run (r.env g)).2 :=
      Schedule.rises_moments hschedule r.registry (Host.time g) _
    rw [← Schedule.run_tick] at hturns
    have hgoals : (r.changesDone g).2.Rises _ (r.goalsDone g).2 :=
      @Goal.rises_moments _ [] _ hchanges.booked r.registry (r.attemptTime g)
    exact hturns.append (.cons hchanges.leads (hgoals.append_nil hend))
  · constructor
    · rw [Schedule.IsBooked, hschedule', hledger, hattempts.events, hchanges.events]
      exact hevents.booked
    · rw [hgoals', hledger]
      exact hattempts.booked

theorem History.rises {start r : Run} {game g : Simulation} {ms : List (Env Simulation)}
    (h : History start game r g ms) (hstart : start.IsBooked) :
    (start.env game).Rises ms (r.env g) ∧ r.IsBooked := by
  induction h with
  | start => exact ⟨.single (.refl _), hstart⟩
  | @happening r g g' ms _ hg ih =>
    have hlead : (r.env g).Leads (r.env g') := ⟨hg.leads, .refl _⟩
    exact ⟨ih.1.append (.single hlead), ih.2⟩
  | @tick r g ms _ ih =>
    have htick := rises_tick ih.2 g
    exact ⟨ih.1.append htick.1, htick.2⟩

end Run

end MissionScript

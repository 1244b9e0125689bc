import MissionScript.Goal.Tracker
import MissionScript.Proofs.Game.Evaluation
import MissionScript.Proofs.Table

/-!
Passes over goals. The ledger has a record of every goal, and it says that a goal is decided only if
the goal itself does; so a goal whose record is decided is not open, and its record stays.
-/

namespace MissionScript

namespace Goal

/-- Whether the record of a goal fits it. -/
def Fits (g : Goal) (r : GoalRecord) : Prop :=
  r.status.isTerminal = true → g.status.isTerminal = true

/-- Whether a ledger has a fitting record of every goal. -/
def AreBooked (goals : List Goal) (l : Ledger) : Prop :=
  l.goals.Books Goal.name Fits goals

/-- Whether a goal differs from another one at most in whether it counts. -/
def SameButValidity (g g' : Goal) : Prop :=
  g' = { g with invalid := g'.invalid }

theorem sameButValidity_direct? {d : Directive} {now : Float} {goals goals' : List Goal}
    {ns : List Notification} (h : direct? d now goals = some (goals', ns)) :
    List.Forall₂ SameButValidity goals goals' := by
  have hsame (goals : List Goal) : List.Forall₂ SameButValidity goals goals :=
    List.forall₂_same.2 fun _ _ => rfl
  induction goals generalizing goals' ns with
  | nil => cases h
  | cons g rest ih =>
    unfold direct? at h
    split at h
    · cases h
      exact .cons rfl (hsame rest)
    · obtain ⟨⟨rest', ns'⟩, hrest, heq⟩ := Option.map_eq_some_iff.1 h
      cases heq
      exact .cons rfl (ih hrest)

theorem AreBooked.congr {goals goals' : List Goal} {l : Ledger} (h : AreBooked goals l)
    (hgoals : List.Forall₂ SameButValidity goals goals') : AreBooked goals' l := by
  refine Table.Books.congr h (hgoals.imp fun g g' hg => ?_)
  rw [hg]
  exact ⟨rfl, fun _ hfits => hfits⟩

/-- The changes that formulas ask for decide no goal. -/
theorem AreBooked.directAll {goals : List Goal} {l : Ledger} (h : AreBooked goals l) (now : Float)
    (directives : List Directive) : AreBooked (directAll now directives goals).1 l := by
  induction directives generalizing goals with
  | nil => exact h
  | cons d rest ih =>
    unfold Goal.directAll
    split
    · exact ih h
    · next hdirect => exact ih (h.congr (sameButValidity_direct? hdirect))

/-- What an attempt, or a row of attempts, leaves behind. -/
structure Advances (env : Env Simulation) (goals : List Goal) (env' : Env Simulation) : Prop where
  booked : AreBooked goals env'.ledger
  leads : env.Leads env'
  events : env'.ledger.events = env.ledger.events

theorem run_attempt {H : Type} [Host H] {env : Env H} {g : Goal} (hopen : g.isOpen = true)
    (registry : Registry) (now : Float) : (g.attempt registry now).run env =
      let (value, env') := (evaluate registry g.name g.formula.root).run env
      match decision? value.truth with
      | none => ((g, []), env')
      | some status =>
        ((g.move status, [g.moved status now]),
          { env' with ledger := env'.ledger.goalChanged g.name status now }) := by
  unfold attempt
  rw [if_pos hopen, StateT.run_bind]
  generalize (evaluate registry g.name g.formula.root).run env = result
  obtain ⟨value, env'⟩ := result
  change (match decision? value.truth with
      | none => return (g, [])
      | some status => do
        modify fun env => { env with ledger := env.ledger.goalChanged g.name status now }
        return (g.move status, [g.moved status now]) :
          EvalM H (Goal × List Notification)).run env' = _
  dsimp only
  cases decision? value.truth <;> rfl

variable {env : Env Simulation}

theorem advances_attempt {before after : List Goal} {g : Goal}
    (h : AreBooked (before ++ g :: after) env.ledger) (registry : Registry) (now : Float) :
    Advances env (before ++ ((g.attempt registry now).run env).1.1 :: after)
      ((g.attempt registry now).run env).2 := by
  cases hopen : g.isOpen with
  | false =>
    unfold attempt
    rw [if_neg (by simp [hopen])]
    exact ⟨h, .refl env, rfl⟩
  | true =>
    have hg : g ∈ before ++ g :: after := by simp
    obtain ⟨r, hr, hfits⟩ := h.records g hg
    have hundecided : r.status.isTerminal = false := by
      rw [← Bool.not_eq_true]
      intro hterminal
      have hstatus := hfits hterminal
      simp [isOpen, hstatus] at hopen
    have hfollows := env.follows_evaluate registry g.name g.formula.root
    rw [run_attempt hopen]
    generalize (evaluate registry g.name g.formula.root).run env = result at hfollows ⊢
    obtain ⟨value, env'⟩ := result
    obtain ⟨hhost, hevents, hgoals⟩ := hfollows
    have hsame : env.ledger.Leads env'.ledger := Ledger.SameRecords.leads ⟨hevents, hgoals⟩
    have hbooked : AreBooked (before ++ g :: after) env'.ledger := by
      rw [AreBooked, hgoals]
      exact h
    have hr' : env'.ledger.goal? g.name = some r := by
      rw [Ledger.goal?, hgoals]
      exact hr
    cases hdecision : decision? value.truth with
    | none =>
      simp only [hdecision]
      exact ⟨hbooked, ⟨hhost, hsame⟩, hevents⟩
    | some status =>
      simp only [hdecision]
      have hchanged := Ledger.leads_goalChanged hr' hundecided status now
      refine ⟨?_, ⟨hhost, hsame.trans hchanged⟩, hevents⟩
      refine hbooked.replace rfl (fun key hkey => ?_) ⟨⟨status, some now⟩, ?_, fun hterminal => hterminal⟩
      · simp [Ledger.goalChanged, hkey]
      · simp [Ledger.goalChanged]

/-- Attempting goals one after the other; `before` are those that have been attempted. -/
theorem advances_attemptAll {before goals : List Goal}
    (h : AreBooked (before ++ goals) env.ledger) (registry : Registry) (now : Float) :
    Advances env (before ++ ((attemptAll registry now goals).run env).1.1)
      ((attemptAll registry now goals).run env).2 := by
  induction goals generalizing before env with
  | nil => exact ⟨h, .refl env, rfl⟩
  | cons g rest ih =>
    have hfirst := advances_attempt h registry now
    rw [List.append_cons] at hfirst
    have hrest := ih hfirst.booked
    rw [← List.append_cons] at hrest
    exact ⟨hrest.booked, hfirst.leads.trans hrest.leads, hrest.events.trans hfirst.events⟩

end Goal

namespace Tracker

/-- Whether no two goals have the same name. -/
def IsDistinct (t : Tracker) : Prop :=
  (t.goals.map fun g => foldName g.name).Nodup

theorem registerIn_tables (t : Tracker) (l : Ledger) :
    (t.registerIn l).events = l.events ∧ (t.registerIn l).goals =
      t.goals.foldl (fun table g => table.insertNew (foldName g.name) ⟨.incomplete, none⟩)
        l.goals := by
  unfold registerIn
  generalize t.goals = goals
  induction goals generalizing l with
  | nil => exact ⟨rfl, rfl⟩
  | cons g rest ih => exact ih (l.registerGoal g.name)

/-- Looking at the outcome leaves the goals alone and tells of nothing else. -/
theorem refresh_spec (t : Tracker) (finished : Bool) (now : Float) :
    (t.refresh finished now).1.goals = t.goals ∧
      ∀ n ∈ (t.refresh finished now).2, ∃ outcome, n = .outcomeChanged outcome now := by
  unfold refresh
  dsimp only
  split
  · exact ⟨rfl, List.forall_mem_nil _⟩
  · exact ⟨rfl, List.forall_mem_singleton.2 ⟨_, rfl⟩⟩

variable {env : Env Simulation} {t : Tracker}

theorem advances_obey (h : Goal.AreBooked t.goals env.ledger) (now : Float) :
    Goal.Advances env ((t.obey now).run env).1.1.goals ((t.obey now).run env).2 :=
  ⟨h.directAll now _, ⟨.refl _, Ledger.SameRecords.leads ⟨rfl, rfl⟩⟩, rfl⟩

end Tracker

end MissionScript

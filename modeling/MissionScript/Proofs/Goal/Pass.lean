import MissionScript.Proofs.Goal.History

/-!
Passes over goals. In a tick what formulas have asked for is carried out, then some goals that are
open are decided, and last the outcome is looked at; when a mission ends, every goal that is still
open is decided, and then the outcome is looked at.
-/

namespace MissionScript

namespace Goal

/-- Goals before and after some that were open have been decided, and the notifications of that. -/
inductive Decides (now : Float) : List Goal → List Goal → List Notification → Prop where
  | nil : Decides now [] [] []
  | keep {goals goals' : List Goal} {ns : List Notification} (g : Goal)
    (h : Decides now goals goals' ns) : Decides now (g :: goals) (g :: goals') ns
  | move {goals goals' : List Goal} {ns : List Notification} {g : Goal} (status : GoalStatus)
    (hopen : g.isOpen = true) (hstatus : status.isTerminal = true)
    (h : Decides now goals goals' ns) :
    Decides now (g :: goals) (g.move status :: goals') (g.moved status now :: ns)

section

variable {H : Type} [Host H]

/-- An attempt at a goal leaves it as it is, unless it is open and gets decided. -/
theorem attempt_cases (registry : Registry) (now : Float) (g : Goal) (env : Env H) :
    ((g.attempt registry now).run env).1 = (g, []) ∨
      g.isOpen = true ∧ ∃ status : GoalStatus, status.isTerminal = true ∧
        ((g.attempt registry now).run env).1 = (g.move status, [g.moved status now]) := by
  cases hopen : g.isOpen with
  | false =>
    unfold attempt
    rw [if_neg (by simp [hopen])]
    exact Or.inl rfl
  | true =>
    rw [run_attempt hopen]
    generalize (evaluate registry g.name g.formula.root).run env = result
    obtain ⟨value, env'⟩ := result
    dsimp only
    cases hdecision : decision? value.truth with
    | none => exact Or.inl rfl
    | some status => exact Or.inr ⟨rfl, status, isTerminal_of_decision? hdecision, rfl⟩

theorem decides_attemptAll (registry : Registry) (now : Float) (goals : List Goal) (env : Env H) :
    Decides now goals ((attemptAll registry now goals).run env).1.1
      ((attemptAll registry now goals).run env).1.2 := by
  induction goals generalizing env with
  | nil => exact .nil
  | cons g rest ih =>
    have hrun : ((attemptAll registry now (g :: rest)).run env).1 =
        let first := (g.attempt registry now).run env
        let others := ((attemptAll registry now rest).run first.2).1
        (first.1.1 :: others.1, first.1.2 ++ others.2) := rfl
    rw [hrun]
    dsimp only
    rcases attempt_cases registry now g env with hkept | ⟨hopen, status, hstatus, hmoved⟩
    · rw [hkept]
      exact .keep g (ih _)
    · rw [hmoved]
      exact .move status hopen hstatus (ih _)

/-- What does not depend on whether a goal counts stays as it is when only that changes. -/
theorem map_eq_of_sameButValidity {α : Type} {f : Goal → α} {goals goals' : List Goal}
    (h : List.Forall₂ SameButValidity goals goals')
    (hf : ∀ (g : Goal) invalid, f { g with invalid } = f g) : goals'.map f = goals.map f := by
  induction h with
  | nil => rfl
  | cons hfirst _ ih => rw [List.map_cons, List.map_cons, ih, hfirst, hf]

/-- What deciding a goal does not change about any, deciding some does not change about all. -/
theorem Decides.map_eq {α : Type} {f : Goal → α} {now : Float} {goals goals' : List Goal}
    {ns : List Notification} (h : Decides now goals goals' ns)
    (hf : ∀ g status, f (g.move status) = f g) : goals'.map f = goals.map f := by
  induction h with
  | nil => rfl
  | keep g _ ih => rw [List.map_cons, List.map_cons, ih]
  | @move _ _ _ g status _ _ _ ih => rw [List.map_cons, List.map_cons, ih, hf]

end

/-- All that is notified of deciding goals is that they change their status. -/
theorem Decides.goalChanged_of_mem {now : Float} {goals goals' : List Goal} {ns : List Notification}
    (h : Decides now goals goals' ns) :
    ∀ n ∈ ns, ∃ goal status score, n = .goalChanged goal status score now := by
  induction h with
  | nil => exact List.forall_mem_nil _
  | keep _ _ ih => exact ih
  | move _ _ _ _ ih => exact List.forall_mem_cons.2 ⟨⟨_, _, _, rfl⟩, ih⟩

theorem decides_failOpen (now : Float) (goals : List Goal) (ledger : Ledger) :
    Decides now goals (failOpen now goals ledger).1 (failOpen now goals ledger).2.1 := by
  induction goals generalizing ledger with
  | nil => exact .nil
  | cons g rest ih =>
    rw [failOpen]
    split
    · next hopen => exact .move .failed hopen rfl (ih _)
    · exact .keep g (ih _)

end Goal

namespace Tracker

/-- Goals before and after a pass over them, and the notifications of that. -/
inductive Passes (now : Float) (t : Tracker) : Tracker → List Notification → Prop where
  | pass {changed decided : List Goal} {changes moves : List Notification}
    (hchanged : List.Forall₂ Goal.SameButValidity t.goals changed)
    (hchanges : ∀ n ∈ changes, ∃ goal invalid, n = .goalValidity goal invalid now)
    (hdecided : Goal.Decides now changed decided moves) :
    Passes now t ({ t with goals := decided }.refresh false now).1
      (changes ++ moves ++ ({ t with goals := decided }.refresh false now).2)

theorem passes_tick {H : Type} [Host H] (registry : Registry) (t : Tracker) (env : Env H) :
    t.Passes (Host.time env.host) ((t.tick registry).run env).1.1
      ((t.tick registry).run env).1.2 := by
  obtain ⟨hchanged, hchanges⟩ :=
    Goal.sameButValidity_directAll (Host.time env.host) env.ledger.directives t.goals
  exact .pass hchanged hchanges (Goal.decides_attemptAll registry (Host.time env.host) _ _)

theorem passes_failIncomplete (now : Float) (t : Tracker) (ledger : Ledger) :
    t.Passes now (t.failIncomplete now ledger).1 (t.failIncomplete now ledger).2.1 :=
  .pass (List.forall₂_same.2 fun _ _ => rfl) (List.forall_mem_nil _)
    (Goal.decides_failOpen now t.goals ledger)

/-- The outcome is notified exactly if it is another one than before. -/
theorem refresh_eq (t : Tracker) (finished : Bool) (now : Float) :
    let outcome := outcomeOf t.goals t.failsEarly finished
    t.refresh finished now =
      ({ t with outcome }, if outcome = t.outcome then [] else [.outcomeChanged outcome now]) := by
  rw [refresh]
  dsimp only
  split
  · next hsame => rw [hsame]
  · rfl

/-- What neither depends on whether a goal counts nor on whether it is decided, no pass changes. -/
theorem Passes.map_eq {α : Type} {f : Goal → α} {now : Float} {t t' : Tracker}
    {ns : List Notification} (h : t.Passes now t' ns)
    (hvalidity : ∀ (g : Goal) invalid, f { g with invalid } = f g)
    (hmove : ∀ (g : Goal) status, f (g.move status) = f g) : t'.goals.map f = t.goals.map f := by
  cases h with
  | pass hchanged _ hdecided =>
    rw [refresh_eq]
    exact (hdecided.map_eq hmove).trans (Goal.map_eq_of_sameButValidity hchanged hvalidity)

end Tracker

end MissionScript

import MissionScript.Proofs.Goal.Pass
import Mathlib.Data.List.Destutter

/-!
Outcomes of missions that run. After every pass over the goals the outcome is the one that the goals
call for, and it is notified, after everything else, exactly when it has become another one.
-/

namespace MissionScript

/-- The outcome that a notification tells of. -/
def Notification.outcome? : Notification → Option Outcome
  | .outcomeChanged outcome _ => some outcome
  | .eventFired .. | .goalChanged .. | .goalValidity .. => none

/-- Whether a goal is one that the outcome of a mission depends on. -/
def Goal.Counts (g : Goal) : Prop :=
  g.type = .primary ∧ g.invalid = false

/-- Whether a mission with these goals is lost. -/
def IsLost (failsEarly : Bool) (goals : List Goal) : Prop :=
  failsEarly = true ∧ ∃ g ∈ goals, g.Counts ∧ g.status = .failed

/-- Whether a mission with these goals is won, unless it is lost. -/
def IsWon (goals : List Goal) : Prop :=
  (∃ g ∈ goals, g.Counts) ∧ ∀ g ∈ goals, g.Counts → g.status = .complete

instance (g : Goal) : Decidable g.Counts :=
  inferInstanceAs (Decidable (_ ∧ _))

instance (failsEarly : Bool) (goals : List Goal) : Decidable (IsLost failsEarly goals) :=
  inferInstanceAs (Decidable (_ ∧ _))

instance (goals : List Goal) : Decidable (IsWon goals) :=
  inferInstanceAs (Decidable (_ ∧ _))

/-- The outcome that these goals call for while a mission runs. -/
def Outcome.due (failsEarly : Bool) (goals : List Goal) : Outcome :=
  if IsLost failsEarly goals then .failure else if IsWon goals then .success else .inProgress

theorem Goal.isCounted_iff {g : Goal} : g.isCounted = true ↔ g.Counts := by
  simp [isCounted, Counts]

theorem outcomeOf_eq_due (goals : List Goal) (failsEarly : Bool) :
    outcomeOf goals failsEarly false = Outcome.due failsEarly goals := by
  have hlost : (failsEarly && (goals.filter (·.isCounted)).any (·.status == .failed)) = true ↔
      IsLost failsEarly goals := by
    simp [IsLost, Goal.isCounted_iff]
  have hall : (goals.filter (·.isCounted)).all (·.status == .complete) = true ↔
      ∀ g ∈ goals, g.Counts → g.status = .complete := by
    simp only [List.all_eq_true, List.mem_filter, Goal.isCounted_iff, and_imp, beq_iff_eq]
  have hany : (!(goals.filter (·.isCounted)).isEmpty) = true ↔ ∃ g ∈ goals, g.Counts := by
    simp [Goal.isCounted_iff]
  have hwon : ((goals.filter (·.isCounted)).all (·.status == .complete) &&
      (!(goals.filter (·.isCounted)).isEmpty || false)) = true ↔ IsWon goals := by
    rw [Bool.or_false, Bool.and_eq_true, hall, hany, IsWon, and_comm]
  simp only [outcomeOf, Outcome.due, hlost, hwon, Bool.false_eq_true, if_false]

namespace Tracker

/-- What is done with goals while a mission runs and when it ends: a pass over them in some
    environment, or failing those that are still open. -/
inductive Call : Type 1 where
  | tick {H : Type} [Host H] (registry : Registry) (env : Env H)
  | failIncomplete (now : Float) (ledger : Ledger)

/-- A call that has been made: the goals before and after it, and what it has notified. -/
structure Called where
  before : Tracker
  after : Tracker
  notes : List Notification

/-- Makes a call. -/
def Call.make (t : Tracker) : Call → Called
  | @tick _ _ registry env =>
    ⟨t, ((t.tick registry).run env).1.1, ((t.tick registry).run env).1.2⟩
  | failIncomplete now ledger =>
    ⟨t, (t.failIncomplete now ledger).1, (t.failIncomplete now ledger).2.1⟩

/-- Makes calls one after the other. -/
def course (t : Tracker) : List Call → List Called
  | [] => []
  | c :: rest => c.make t :: (c.make t).after.course rest

namespace Called

/-- The outcomes that a call has notified. -/
def told (c : Called) : List Outcome :=
  c.notes.filterMap Notification.outcome?

/-- Whether the outcome after a call is the one that the goals call for, and notified exactly if it
    is another one than before, and then last. -/
structure IsSound (c : Called) : Prop where
  failsEarly : c.after.failsEarly = c.before.failsEarly
  outcome : c.after.outcome = .due c.after.failsEarly c.after.goals
  told : c.told = if c.after.outcome = c.before.outcome then [] else [c.after.outcome]
  last : ∀ n ∈ c.notes.dropLast, n.outcome? = none

end Called

theorem Passes.isSound {now : Float} {t t' : Tracker} {ns : List Notification}
    (h : t.Passes now t' ns) : Called.IsSound ⟨t, t', ns⟩ := by
  cases h with
  | @pass changed decided changes moves _ hchanges hdecided =>
    have hearly : ∀ n ∈ changes ++ moves, n.outcome? = none := by
      refine List.forall_mem_append.2 ⟨fun n hn => ?_, fun n hn => ?_⟩
      · obtain ⟨goal, invalid, rfl⟩ := hchanges n hn
        rfl
      · obtain ⟨goal, status, score, rfl⟩ := hdecided.goalChanged_of_mem n hn
        rfl
    have hquiet : (changes ++ moves).filterMap Notification.outcome? = [] :=
      List.filterMap_eq_nil_iff.2 hearly
    rw [refresh_eq, outcomeOf_eq_due]
    refine ⟨rfl, rfl, ?_, ?_⟩
    · rw [Called.told, List.filterMap_append, hquiet, List.nil_append]
      dsimp only
      split <;> rfl
    · dsimp only
      split
      · rw [List.append_nil]
        exact fun n hn => hearly n (List.mem_of_mem_dropLast hn)
      · rw [List.dropLast_concat]
        exact hearly

theorem Call.isSound_make (c : Call) (t : Tracker) : (c.make t).IsSound := by
  cases c with
  | tick registry env => exact (t.passes_tick registry env).isSound
  | failIncomplete now ledger => exact (t.passes_failIncomplete now ledger).isSound

theorem Call.before_make (c : Call) (t : Tracker) : (c.make t).before = t := by
  cases c <;> rfl

/-- The outcomes that have been notified are those after each call without repetitions. -/
theorem told_course (t : Tracker) (calls : List Call) :
    t.outcome :: (t.course calls).flatMap Called.told =
      ((t.course calls).map (·.after.outcome)).destutter' (· ≠ ·) t.outcome := by
  -- the outcome before a call is the one that is in force, whether or not it has been notified
  induction calls generalizing t with
  | nil => rfl
  | cons c rest ih =>
    have htold := (c.isSound_make t).told
    rw [c.before_make] at htold
    have hrest := ih (c.make t).after
    rw [course, List.flatMap_cons, List.map_cons, htold]
    by_cases hsame : (c.make t).after.outcome = t.outcome
    · rw [if_pos hsame, List.nil_append, List.destutter'_cons_neg _ (not_not.2 hsame.symm), ← hsame,
        hrest]
    · rw [if_neg hsame, List.singleton_append, List.destutter'_cons_pos _ (Ne.symm hsame), hrest]

theorem foldl_add (t : Tracker) (goals : List Goal) :
    goals.foldl add t = { t with goals := t.goals ++ goals } := by
  induction goals generalizing t with
  | nil => rw [List.foldl_nil, List.append_nil]
  | cons g rest ih =>
    rw [List.foldl_cons, ih, add, List.append_assoc]
    rfl

theorem isSound_course (t : Tracker) (calls : List Call) :
    ∀ c ∈ t.course calls, c.IsSound ∧ c.after.failsEarly = t.failsEarly := by
  induction calls generalizing t with
  | nil => exact List.forall_mem_nil _
  | cons c rest ih =>
    have hfirst := c.isSound_make t
    have hfailsEarly : (c.make t).after.failsEarly = t.failsEarly := by
      rw [hfirst.failsEarly, c.before_make]
    refine List.forall_mem_cons.2 ⟨⟨hfirst, hfailsEarly⟩, fun later hlater => ?_⟩
    obtain ⟨hlater, hlast⟩ := ih _ later hlater
    exact ⟨hlater, hlast.trans hfailsEarly⟩

/-- Whatever is done with goals, the outcome is always the one that they call for, and what is
    notified of it is exactly how it changes. After every call the mission is lost if the first
    failed goal ends it and there is a failed one that counts, else won if there are goals that
    count and all of them are complete, and else in progress. A call notifies the outcome, last of
    all, exactly if it is another one than before; so the outcomes that are notified are those after
    each call without repetitions, from being in progress on. -/
theorem outcome_due (goals : List Goal) (failsEarly : Bool) (calls : List Call) :
    let made := (goals.foldl add (.empty failsEarly)).course calls
    (∀ c ∈ made, c.after.outcome = .due failsEarly c.after.goals ∧
      c.told = (if c.after.outcome = c.before.outcome then [] else [c.after.outcome]) ∧
      ∀ n ∈ c.notes.dropLast, n.outcome? = none) ∧
    .inProgress :: made.flatMap Called.told =
      (.inProgress :: made.map (·.after.outcome)).destutter (· ≠ ·) ∧
    (.inProgress :: made.flatMap Called.told).IsChain (· ≠ ·) := by
  have hstart : goals.foldl add (.empty failsEarly) = ⟨goals, failsEarly, .inProgress⟩ :=
    foldl_add (.empty failsEarly) goals
  have htold := told_course ⟨goals, failsEarly, .inProgress⟩ calls
  rw [hstart]
  refine ⟨fun c hc => ?_, htold, ?_⟩
  · obtain ⟨hsound, hsame⟩ := isSound_course _ calls c hc
    have hfailsEarly : c.after.failsEarly = failsEarly := hsame
    exact ⟨hfailsEarly ▸ hsound.outcome, hsound.told, hsound.last⟩
  · rw [htold]
    exact List.isChain_destutter' _ _ _

open Outpost in
/-- The outpost is held, then its convoy counts again, and at last it is lost. -/
example :
    let goals := [goal "Hold" (.list [.atom (.operator "true") 1] 0),
      { goal "Convoy" (.list [.atom (.operator "has-time-elapsed") 1, .atom (.number 9) 18] 0) with
        invalid := true }]
    let calls := [.tick Registry.builtin (env 1 .empty),
      .tick Registry.builtin (env 2 (Ledger.empty.pushDirective ⟨"CONVOY", false⟩)),
      .failIncomplete 3 .empty]
    ((goals.foldl add (.empty true)).course calls).flatMap Called.told =
      [.success, .inProgress, .failure] := by
  decide +kernel

end Tracker

end MissionScript

import MissionScript.Proofs.Evaluation.Journey
import MissionScript.Proofs.Goal.Tracker
import Mathlib.Data.List.Chain

/-!
Moments of the goals of a mission. From one moment to the next at most one goal is decided, and then
the ledger and the notifications learn of it.
-/

namespace MissionScript

/-- Whether a notification tells of a new status of the goal of a name. -/
def Notification.isMoveOf (name : String) : Notification → Bool
  | .goalChanged goal .. => sameName goal name
  | .eventFired .. | .goalValidity .. | .outcomeChanged .. => false

/-- Whether a record and the notifications agree with a goal. The record has its status; and if the
    goal is decided, the record has the time of the one notification that tells of it, and otherwise
    there is no time and no such notification. -/
structure Goal.Agrees (notes : List Notification) (g : Goal) (r : GoalRecord) : Prop where
  status : r.status = g.status
  changedAt : r.changedAt.isSome = g.status.isTerminal
  notes : notes.filter (Notification.isMoveOf g.name) = r.changedAt.toList.map (g.moved g.status)

/-- A moment of the goals of a mission. -/
structure Moment where
  goals : List Goal
  ledger : Ledger
  /-- all notifications so far -/
  notes : List Notification
  /-- the place of the goal whose formula has just been evaluated -/
  evaluated : Option Nat

namespace Moment

/-- Whether what is decided at a moment is left as it is until another one, and not evaluated then. -/
def Upholds (m m' : Moment) : Prop :=
  ∀ (i : Nat) (g : Goal), m.goals[i]? = some g → g.status.isTerminal = true →
    m'.evaluated ≠ some i ∧ ∃ g', m'.goals[i]? = some g' ∧ g'.status = g.status

/-- Whether the goals of two moments are the same, and only those change their status that count and
    are not decided. -/
def MovesOpen (m m' : Moment) : Prop :=
  List.Forall₂ (fun g g' => g'.name = g.name ∧
    (g'.status ≠ g.status → g.invalid = false ∧ g.status = .incomplete)) m.goals m'.goals

/-- Whether every goal has a record of its own, and it and the notifications agree with the goal. -/
def Agrees (m : Moment) : Prop :=
  m.ledger.goals.Books Goal.name (Goal.Agrees m.notes) m.goals

/-- What can happen between two moments. Either no status changes, and whatever is evaluated was
    open, or one goal that was open is decided. -/
inductive Step : Moment → Moment → Prop where
  | rest {m m' : Moment} {notes : List Notification}
    (hgoals : List.Forall₂ Goal.SameButValidity m.goals m'.goals)
    (hledger : m'.ledger.goals = m.ledger.goals) (hnotes : m'.notes = m.notes ++ notes)
    (hmoves : ∀ n ∈ notes, ∀ name, n.isMoveOf name = false)
    (hevaluated : ∀ i ∈ m'.evaluated, ∃ g, m.goals[i]? = some g ∧ g.isOpen = true) : Step m m'
  | move {m m' : Moment} {before after : List Goal} {g : Goal} {status : GoalStatus} {now : Float}
    (hgoals : m.goals = before ++ g :: after) (hopen : g.isOpen = true)
    (hstatus : status.isTerminal = true) (hgoals' : m'.goals = before ++ g.move status :: after)
    (hledger : m'.ledger.goals = (m.ledger.goalChanged g.name status now).goals)
    (hnotes : m'.notes = m.notes ++ [g.moved status now])
    (hevaluated : ∀ i ∈ m'.evaluated, i = before.length) : Step m m'

end Moment

theorem Goal.isOpen_iff {g : Goal} :
    g.isOpen = true ↔ g.invalid = false ∧ g.status = .incomplete := by
  rw [isOpen, Bool.and_eq_true, Bool.not_eq_true', Bool.not_eq_true']
  cases g.status <;> simp [GoalStatus.isTerminal]

namespace Moment

variable {m m' : Moment}

theorem Upholds.trans {m₁ m₂ m₃ : Moment} (h₁₂ : m₁.Upholds m₂) (h₂₃ : m₂.Upholds m₃) :
    m₁.Upholds m₃ := by
  intro i g hi hterminal
  obtain ⟨-, g₂, hi₂, hstatus₂⟩ := h₁₂ i g hi hterminal
  obtain ⟨hevaluated, g₃, hi₃, hstatus₃⟩ := h₂₃ i g₂ hi₂ (hstatus₂ ▸ hterminal)
  exact ⟨hevaluated, g₃, hi₃, hstatus₃.trans hstatus₂⟩

instance : Trans Upholds Upholds Upholds :=
  ⟨Upholds.trans⟩

theorem Step.upholds (h : m.Step m') : m.Upholds m' := by
  intro i g hi hterminal
  have hclosed : g.isOpen = false := by simp [Goal.isOpen, hterminal]
  cases h with
  | rest hgoals _ _ _ hevaluated =>
    refine ⟨fun heq => ?_, ?_⟩
    · obtain ⟨g₀, hi₀, hopen⟩ := hevaluated i heq
      obtain rfl := Option.some.inj (hi.symm.trans hi₀)
      rw [hclosed] at hopen
      cases hopen
    · obtain ⟨hlength, hsame⟩ := List.forall₂_iff_get.1 hgoals
      obtain ⟨hlt, rfl⟩ := List.getElem?_eq_some_iff.1 hi
      have hlt' : i < m'.goals.length := hlength ▸ hlt
      refine ⟨_, List.getElem?_eq_getElem hlt', ?_⟩
      have hi' : m'.goals[i] = { m.goals[i] with invalid := m'.goals[i].invalid } := hsame i hlt hlt'
      rw [hi']
  | @move before after g₀ status now hgoals hopen _ hgoals' _ _ hevaluated =>
    have hne : i ≠ before.length := by
      rintro rfl
      rw [hgoals, List.getElem?_append_right (Nat.le_refl _), Nat.sub_self] at hi
      obtain rfl : g₀ = g := Option.some.inj hi
      rw [hclosed] at hopen
      cases hopen
    refine ⟨fun heq => hne (hevaluated i heq), g, ?_, rfl⟩
    rw [hgoals] at hi
    rw [hgoals']
    rw [List.getElem?_append] at hi ⊢
    split
    · next hlt => rwa [if_pos hlt] at hi
    · next hlt =>
      rw [if_neg hlt] at hi
      obtain ⟨k, hk⟩ : ∃ k, i - before.length = k + 1 := ⟨i - before.length - 1, by omega⟩
      rw [hk, List.getElem?_cons_succ] at hi ⊢
      exact hi

theorem Step.movesOpen (h : m.Step m') : m.MovesOpen m' := by
  cases h with
  | rest hgoals _ _ _ _ =>
    refine hgoals.imp fun g g' hg => ?_
    rw [hg]
    exact ⟨rfl, fun hne => absurd rfl hne⟩
  | move hgoals hopen _ hgoals' _ _ _ =>
    rw [MovesOpen, hgoals, hgoals']
    have hsame (gs : List Goal) : List.Forall₂ (fun g g' : Goal => g'.name = g.name ∧
        (g'.status ≠ g.status → g.invalid = false ∧ g.status = .incomplete)) gs gs :=
      List.forall₂_same.2 fun _ _ => ⟨rfl, fun hne => absurd rfl hne⟩
    exact List.rel_append (hsame _) (.cons ⟨rfl, fun _ => Goal.isOpen_iff.1 hopen⟩ (hsame _))

theorem Step.keeps_agrees (h : m.Step m') (hm : m.Agrees) : m'.Agrees := by
  cases h with
  | @rest notes hgoals hledger hnotes hmoves _ =>
    rw [Agrees, hledger]
    have hfilter (name : String) : m'.notes.filter (Notification.isMoveOf name) =
        m.notes.filter (Notification.isMoveOf name) := by
      have hnone : notes.filter (Notification.isMoveOf name) = [] :=
        List.filter_eq_nil_iff.2 fun n hn => by simp [hmoves n hn name]
      rw [hnotes, List.filter_append, hnone, List.append_nil]
    have hm' : m.ledger.goals.Books Goal.name (Goal.Agrees m'.notes) m.goals :=
      ⟨hm.distinct, fun g hg => by
        obtain ⟨r, hr, hstatus, hchangedAt, hnotes⟩ := hm.records g hg
        exact ⟨r, hr, hstatus, hchangedAt, (hfilter g.name).trans hnotes⟩⟩
    refine hm'.congr (hgoals.imp fun g g' hg => ?_)
    rw [hg]
    exact ⟨rfl, fun _ ⟨hstatus, hchangedAt, hnotes⟩ => ⟨hstatus, hchangedAt, hnotes⟩⟩
  | @move before after g status now hgoals hopen hstatus hgoals' hledger hnotes _ =>
    rw [Agrees, hgoals] at hm
    rw [Agrees, hgoals', hledger, hnotes]
    refine hm.replaceFitting rfl (fun key hkey => ?_) (fun b r hne hb => ?_) ?_
    · simp [Ledger.goalChanged, hkey]
    · have hother : Notification.isMoveOf b.name (g.moved status now) = false := by
        rw [Goal.moved, Notification.isMoveOf, ← Bool.not_eq_true, sameName_iff]
        exact Ne.symm hne
      refine ⟨hb.status, hb.changedAt, ?_⟩
      rw [List.filter_append, List.filter_singleton, hother, hb.notes]
      exact List.append_nil _
    · obtain ⟨r, -, -, hchangedAt, hfilter⟩ := hm.records g (by simp)
      have hundecided : g.status.isTerminal = false := by
        rw [(Goal.isOpen_iff.1 hopen).2]
        rfl
      rw [hundecided, Option.isSome_eq_false_iff, Option.isNone_iff_eq_none] at hchangedAt
      refine ⟨⟨status, some now⟩, by simp [Ledger.goalChanged], rfl, hstatus.symm, ?_⟩
      have hown : Notification.isMoveOf g.name (g.moved status now) = true := sameName_iff.2 rfl
      rw [List.filter_append]
      change m.notes.filter (Notification.isMoveOf g.name) ++
        [g.moved status now].filter (Notification.isMoveOf g.name) = [g.moved status now]
      rw [hfilter, hchangedAt, List.filter_singleton, hown]
      rfl

end Moment

end MissionScript

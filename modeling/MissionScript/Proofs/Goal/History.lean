import MissionScript.Game.Simulation
import MissionScript.Proofs.Goal.Moment

/-!
Histories of goals. They are registered in an empty ledger, and then there are passes over them, the
open ones are failed and outcomes are settled, in any order. At every moment of a history the ledger
and the notifications agree with the goals, and what is decided stays.
-/

namespace MissionScript

variable {H : Type} [Host H]

namespace Goal

/-- The moments after each attempt at goals in order; `before` are those that have been attempted,
    and `notes` the notifications so far. -/
def attemptMoments (registry : Registry) (now : Float) (before : List Goal)
    (notes : List Notification) : List Goal → Env H → List Moment
  | [], _ => []
  | g :: rest, env =>
    let ((g', ns), env') := (g.attempt registry now).run env
    let evaluated := if (g.attempt registry now).evaluates env then some before.length else none
    ⟨before ++ g' :: rest, env'.ledger, notes ++ ns, evaluated⟩ ::
      attemptMoments registry now (before ++ [g']) (notes ++ ns) rest env'

/-- The moments after each goal when those that are still open are failed in order. -/
def failMoments (now : Float) (before : List Goal) (notes : List Notification) :
    List Goal → Ledger → List Moment
  | [], _ => []
  | g :: rest, ledger =>
    let (gs, ns, ledger) := failOpen now [g] ledger
    ⟨before ++ gs ++ rest, ledger, notes ++ ns, none⟩ ::
      failMoments now (before ++ gs) (notes ++ ns) rest ledger

theorem isTerminal_of_decision? {truth : Truth} {status : GoalStatus}
    (h : decision? truth = some status) : status.isTerminal = true := by
  cases truth <;> cases h <;> rfl

/-- The formula of a goal is evaluated only if the goal is open. -/
theorem evaluates_attempt_iff {g : Goal} {registry : Registry} {now : Float} {env : Env H} :
    (g.attempt registry now).evaluates env = true ↔ g.isOpen = true := by
  cases hopen : g.isOpen with
  | false =>
    unfold attempt
    rw [if_neg (by simp [hopen])]
    exact ⟨nofun, nofun⟩
  | true =>
    refine iff_of_true ?_ rfl
    have htrace := isEmpty_trace_evaluate registry g.name g.formula.root { env with trace := #[] }
    rw [EvalM.evaluates, run_attempt hopen, Bool.not_eq_true', ← htrace]
    generalize (evaluate registry g.name g.formula.root).run { env with trace := #[] } = result
    obtain ⟨value, env'⟩ := result
    dsimp only
    cases decision? value.truth <;> rfl

end Goal

section

variable (before rest : List Goal) (notes : List Notification) (evaluated : Option Nat)

/-- A goal that is open is evaluated, and may be decided; otherwise nothing happens. -/
theorem Moment.step_attempt (g : Goal) (registry : Registry) (now : Float) (env : Env H) :
    let ((g', ns), env') := (g.attempt registry now).run env
    Moment.Step ⟨before ++ g :: rest, env.ledger, notes, evaluated⟩
      ⟨before ++ g' :: rest, env'.ledger, notes ++ ns,
        if (g.attempt registry now).evaluates env then some before.length else none⟩ := by
  have hsame (goals : List Goal) : List.Forall₂ Goal.SameButValidity goals goals :=
    List.forall₂_same.2 fun _ _ => rfl
  cases hopen : g.isOpen with
  | false =>
    have hclosed : (g.attempt registry now).evaluates env = false := by
      rw [← Bool.not_eq_true, Goal.evaluates_attempt_iff, hopen]
      exact Bool.false_ne_true
    have hrun : (g.attempt registry now).run env = ((g, []), env) := by
      unfold Goal.attempt
      rw [if_neg (by simp [hopen])]
      rfl
    rw [hrun]
    simp only [hclosed]
    exact .rest (hsame _) rfl rfl nofun nofun
  | true =>
    have hevaluated : (g.attempt registry now).evaluates env = true :=
      Goal.evaluates_attempt_iff.2 hopen
    have hgoals := (records_evaluate registry g.name g.formula.root env).2
    rw [Goal.run_attempt hopen]
    simp only [hevaluated, if_true]
    generalize (evaluate registry g.name g.formula.root).run env = result at hgoals
    obtain ⟨value, env'⟩ := result
    dsimp only at hgoals ⊢
    cases hdecision : Goal.decision? value.truth with
    | none =>
      refine .rest (hsame _) hgoals rfl nofun fun i hi => ?_
      obtain rfl : before.length = i := Option.some.inj hi
      exact ⟨g, by simp, hopen⟩
    | some status =>
      refine .move rfl hopen (Goal.isTerminal_of_decision? hdecision) rfl ?_ rfl fun i hi => ?_
      · simp [Ledger.goalChanged, hgoals]
      · exact (Option.some.inj hi).symm

/-- Attempts at goals in order go from moment to moment. -/
theorem Moment.isChain_attemptMoments (registry : Registry) (now : Float) (goals : List Goal)
    (env : Env H) (last : Moment)
    (hlast : ∀ evaluated, let ((goals', ns), env') := (Goal.attemptAll registry now goals).run env
      Moment.Step ⟨before ++ goals', env'.ledger, notes ++ ns, evaluated⟩ last) :
    List.IsChain Moment.Step (⟨before ++ goals, env.ledger, notes, evaluated⟩ ::
      (Goal.attemptMoments registry now before notes goals env ++ [last])) := by
  induction goals generalizing before notes evaluated env with
  | nil =>
    have hstep : Moment.Step ⟨before ++ [], env.ledger, notes ++ [], evaluated⟩ last :=
      hlast evaluated
    rw [List.append_nil notes] at hstep
    exact .cons_cons hstep (.singleton last)
  | cons g rest ih =>
    have hstep := step_attempt before rest notes evaluated g registry now env
    have hrun : (Goal.attemptAll registry now (g :: rest)).run env =
        let ((g', first), env₁) := (g.attempt registry now).run env
        let ((rest', others), env') := (Goal.attemptAll registry now rest).run env₁
        ((g' :: rest', first ++ others), env') := rfl
    rw [hrun] at hlast
    rw [Goal.attemptMoments]
    generalize (g.attempt registry now).run env = result at hstep hlast ⊢
    obtain ⟨⟨g', first⟩, env₁⟩ := result
    refine .cons_cons hstep ?_
    dsimp only at hlast ⊢
    rw [List.append_cons]
    refine ih _ _ _ env₁ fun evaluated => ?_
    have hlater := hlast evaluated
    generalize (Goal.attemptAll registry now rest).run env₁ = result at hlater ⊢
    obtain ⟨⟨rest', others⟩, env'⟩ := result
    dsimp only at hlater ⊢
    rwa [← List.append_cons, List.append_assoc notes]

omit [Host H]

theorem Goal.failOpen_singleton (now : Float) (g : Goal) (ledger : Ledger) :
    failOpen now [g] ledger =
      if g.isOpen then ([g.move .failed], [g.moved .failed now], ledger.goalChanged g.name .failed now)
      else ([g], [], ledger) := rfl

theorem Goal.failOpen_cons (now : Float) (g : Goal) (rest : List Goal) (ledger : Ledger) :
    failOpen now (g :: rest) ledger =
      let (gs, first, ledger₁) := failOpen now [g] ledger
      let (rest', others, ledger') := failOpen now rest ledger₁
      (gs ++ rest', first ++ others, ledger') := by
  rw [failOpen_singleton, failOpen]
  split <;> rfl

/-- A goal that is open is failed. -/
theorem Moment.step_failOpen (now : Float) (g : Goal) (ledger : Ledger) :
    let (gs, ns, ledger') := Goal.failOpen now [g] ledger
    Moment.Step ⟨before ++ g :: rest, ledger, notes, evaluated⟩
      ⟨before ++ gs ++ rest, ledger', notes ++ ns, none⟩ := by
  rw [Goal.failOpen_singleton]
  cases hopen : g.isOpen with
  | true =>
    have hstatus : GoalStatus.failed.isTerminal = true := rfl
    refine .move rfl hopen hstatus ?_ rfl rfl nofun
    rw [List.append_assoc]
    rfl
  | false =>
    refine .rest ?_ rfl rfl nofun nofun
    rw [List.append_assoc]
    exact List.forall₂_same.2 fun _ _ => rfl

theorem Moment.isChain_failMoments (now : Float) (goals : List Goal) (ledger : Ledger) (last : Moment)
    (hlast : ∀ evaluated, let (goals', ns, ledger') := Goal.failOpen now goals ledger
      Moment.Step ⟨before ++ goals', ledger', notes ++ ns, evaluated⟩ last) :
    List.IsChain Moment.Step (⟨before ++ goals, ledger, notes, evaluated⟩ ::
      (Goal.failMoments now before notes goals ledger ++ [last])) := by
  induction goals generalizing before notes evaluated ledger with
  | nil =>
    have hstep : Moment.Step ⟨before ++ [], ledger, notes ++ [], evaluated⟩ last := hlast evaluated
    rw [List.append_nil notes] at hstep
    exact .cons_cons hstep (.singleton last)
  | cons g rest ih =>
    have hstep := step_failOpen before rest notes evaluated now g ledger
    rw [Goal.failOpen_cons] at hlast
    rw [Goal.failMoments]
    generalize Goal.failOpen now [g] ledger = result at hstep hlast ⊢
    obtain ⟨gs, first, ledger₁⟩ := result
    refine .cons_cons hstep (ih _ _ _ ledger₁ fun evaluated => ?_)
    have hlater := hlast evaluated
    dsimp only at hlater ⊢
    rwa [List.append_assoc, List.append_assoc notes]

end

namespace Goal

omit [Host H]

theorem sameButValidity_trans {goals₁ goals₂ goals₃ : List Goal}
    (h₁₂ : List.Forall₂ SameButValidity goals₁ goals₂)
    (h₂₃ : List.Forall₂ SameButValidity goals₂ goals₃) :
    List.Forall₂ SameButValidity goals₁ goals₃ := by
  induction h₁₂ generalizing goals₃ with
  | nil => exact h₂₃
  | cons hfirst _ ih =>
    cases h₂₃ with
    | cons hsecond hrest =>
      refine .cons ?_ (ih hrest)
      rw [SameButValidity] at hfirst hsecond ⊢
      rw [hsecond, hfirst]

/-- A change that a formula asks for tells at most of whether a goal counts. -/
theorem goalValidity_of_mem_direct? {d : Directive} {now : Float} {goals goals' : List Goal}
    {ns : List Notification} (h : direct? d now goals = some (goals', ns)) :
    ∀ n ∈ ns, ∃ goal invalid, n = .goalValidity goal invalid now := by
  induction goals generalizing goals' with
  | nil => cases h
  | cons g rest ih =>
    unfold direct? at h
    split at h
    · obtain ⟨-, rfl⟩ := Prod.mk.inj (Option.some.inj h)
      split
      · exact List.forall_mem_nil _
      · exact List.forall_mem_singleton.2 ⟨g.name, d.invalid, rfl⟩
    · obtain ⟨⟨rest', ns'⟩, hrest, heq⟩ := Option.map_eq_some_iff.1 h
      obtain ⟨-, rfl⟩ := Prod.mk.inj heq
      exact ih hrest

/-- The changes that formulas ask for leave goals as they are but for whether they count, and that is
    all they tell of. -/
theorem sameButValidity_directAll (now : Float) (directives : List Directive) (goals : List Goal) :
    List.Forall₂ SameButValidity goals (directAll now directives goals).1 ∧
      ∀ n ∈ (directAll now directives goals).2.1, ∃ goal invalid, n = .goalValidity goal invalid now := by
  induction directives generalizing goals with
  | nil => exact ⟨List.forall₂_same.2 fun _ _ => rfl, List.forall_mem_nil _⟩
  | cons d rest ih =>
    unfold directAll
    split
    · exact ih goals
    · next goals₁ first hdirect =>
      obtain ⟨hgoals, hnotes⟩ := ih goals₁
      refine ⟨?_, List.forall_mem_append.2 ⟨goalValidity_of_mem_direct? hdirect, hnotes⟩⟩
      exact sameButValidity_trans (sameButValidity_direct? hdirect) hgoals

end Goal

namespace Tracker

/-- The present moment of goals. -/
def present (t : Tracker) (l : Ledger) (notes : List Notification) : Moment :=
  ⟨t.goals, l, notes, none⟩

/-- The moments of a pass over the goals: after the changes that formulas have asked for, after each
    attempt at a goal, and at the end. -/
def tickMoments (registry : Registry) (t : Tracker) (notes : List Notification) (env : Env H) :
    List Moment :=
  let ((obeyed, changes), env₁) := (t.obey (Host.time env.host)).run env
  let ((t', ns), env') := (t.tick registry).run env
  obeyed.present env₁.ledger (notes ++ changes) ::
    (Goal.attemptMoments registry (Host.time env.host) [] (notes ++ changes) obeyed.goals env₁ ++
      [t'.present env'.ledger (notes ++ ns)])

/-- The moments after each goal when those that are still open are failed, and at the end. -/
def failMoments (t : Tracker) (now : Float) (notes : List Notification) (l : Ledger) : List Moment :=
  let (t', ns, l') := t.failIncomplete now l
  Goal.failMoments now [] notes t.goals l ++ [t'.present l' (notes ++ ns)]

/-- The histories of goals: where they have come to, with the ledger and the notifications, and all
    moments on the way. In between anything may happen to the ledger but to the records of goals. -/
inductive History : Tracker → Ledger → List Notification → List Moment → Prop where
  | start {t : Tracker} (hopen : ∀ g ∈ t.goals, g.status = .incomplete) (hdistinct : t.IsDistinct) :
    History t (t.registerIn .empty) [] [t.present (t.registerIn .empty) []]
  | meanwhile {t : Tracker} {l : Ledger} {notes : List Notification} {moments : List Moment}
    (h : History t l notes moments) (l' : Ledger) (hgoals : l'.goals = l.goals) :
    History t l' notes (moments ++ [t.present l' notes])
  | tick {H : Type} [Host H] {t : Tracker} {notes : List Notification} {moments : List Moment}
    (registry : Registry) (env : Env H) (h : History t env.ledger notes moments) :
    History ((t.tick registry).run env).1.1 ((t.tick registry).run env).2.ledger
      (notes ++ ((t.tick registry).run env).1.2) (moments ++ t.tickMoments registry notes env)
  | failIncomplete {t : Tracker} {l : Ledger} {notes : List Notification} {moments : List Moment}
    (h : History t l notes moments) (now : Float) :
    History (t.failIncomplete now l).1 (t.failIncomplete now l).2.2
      (notes ++ (t.failIncomplete now l).2.1) (moments ++ t.failMoments now notes l)
  | conclude {t : Tracker} {l : Ledger} {notes : List Notification} {moments : List Moment}
    (h : History t l notes moments) (now : Float) :
    History (t.conclude now).1 l (notes ++ (t.conclude now).2)
      (moments ++ [(t.conclude now).1.present l (notes ++ (t.conclude now).2)])

/-- Looking at the outcome is a step without a change of status. -/
theorem step_refresh (t : Tracker) (finished : Bool) (now : Float) (l : Ledger)
    (notes : List Notification) (evaluated : Option Nat) :
    Moment.Step ⟨t.goals, l, notes, evaluated⟩
      ((t.refresh finished now).1.present l (notes ++ (t.refresh finished now).2)) := by
  obtain ⟨hgoals, hnotes⟩ := t.refresh_spec finished now
  have hmoves : ∀ n ∈ (t.refresh finished now).2, ∀ name, n.isMoveOf name = false := by
    intro n hn name
    obtain ⟨outcome, rfl⟩ := hnotes n hn
    rfl
  refine .rest ?_ rfl rfl hmoves nofun
  rw [present, hgoals]
  exact List.forall₂_same.2 fun _ _ => rfl

omit [Host H] in
/-- Carrying out the changes that formulas have asked for is a step without a change of status. -/
theorem step_obey (t : Tracker) (now : Float) (notes : List Notification) (env : Env H) :
    let ((obeyed, changes), env') := (t.obey now).run env
    Moment.Step (t.present env.ledger notes) (obeyed.present env'.ledger (notes ++ changes)) := by
  obtain ⟨hgoals, hnotes⟩ := Goal.sameButValidity_directAll now env.ledger.directives t.goals
  refine .rest hgoals rfl rfl (fun n hn name => ?_) nofun
  obtain ⟨goal, invalid, rfl⟩ := hnotes n hn
  rfl

theorem isChain_tickMoments (t : Tracker) (registry : Registry) (notes : List Notification)
    (env : Env H) : List.IsChain Moment.Step
      (t.present env.ledger notes :: t.tickMoments registry notes env) := by
  have hobey := t.step_obey (Host.time env.host) notes env
  have hrun : (t.tick registry).run env =
      let ((obeyed, changes), env₁) := (t.obey (Host.time env.host)).run env
      let ((goals, moves), env') :=
        (Goal.attemptAll registry (Host.time env.host) obeyed.goals).run env₁
      let ended := { obeyed with goals }.refresh false (Host.time env.host)
      ((ended.1, changes ++ moves ++ ended.2), env') := rfl
  rw [tickMoments, hrun]
  generalize (t.obey (Host.time env.host)).run env = result at hobey ⊢
  obtain ⟨⟨obeyed, changes⟩, env₁⟩ := result
  dsimp only at hobey ⊢
  have hattempts {last : Moment} := Moment.isChain_attemptMoments [] (notes ++ changes) none registry
    (Host.time env.host) obeyed.goals env₁ last
  generalize (Goal.attemptAll registry (Host.time env.host) obeyed.goals).run env₁ = result
    at hattempts ⊢
  obtain ⟨⟨goals, moves⟩, env'⟩ := result
  refine .cons_cons hobey (hattempts fun evaluated => ?_)
  have hstep := step_refresh { obeyed with goals } false (Host.time env.host) env'.ledger
    (notes ++ changes ++ moves) evaluated
  simpa only [List.nil_append, List.append_assoc] using hstep

theorem isChain_failMoments (t : Tracker) (now : Float) (notes : List Notification) (l : Ledger) :
    List.IsChain Moment.Step (t.present l notes :: t.failMoments now notes l) := by
  refine Moment.isChain_failMoments [] notes none now t.goals l _ fun evaluated => ?_
  have hstep := step_refresh { t with goals := (Goal.failOpen now t.goals l).1 } false now
    (Goal.failOpen now t.goals l).2.2 (notes ++ (Goal.failOpen now t.goals l).2.1) evaluated
  rw [List.append_assoc] at hstep
  exact hstep

namespace History

variable {t : Tracker} {l : Ledger} {notes : List Notification} {moments new : List Moment}
  {m m' : Moment}

/-- Moments that go on step by step, and at each of which the ledger and the notifications agree with
    the goals. -/
structure Sound (moments : List Moment) (m : Moment) : Prop where
  chain : moments.IsChain Moment.Step
  last : moments.getLast? = some m
  agreement : ∀ m ∈ moments, m.Agrees

omit [Host H]

theorem Sound.append (h : Sound moments m) (hnew : (m :: new).IsChain Moment.Step)
    (hlast : new.getLast? = some m') : Sound (moments ++ new) m' := by
  obtain ⟨hfirst, hrest⟩ := List.isChain_cons.1 hnew
  refine ⟨List.isChain_append.2 ⟨h.chain, hrest, fun m₁ hm₁ => ?_⟩, ?_,
    List.forall_mem_append.2 ⟨h.agreement, ?_⟩⟩
  · obtain rfl : m = m₁ := Option.some.inj (h.last.symm.trans hm₁)
    exact hfirst
  · rw [List.getLast?_append, hlast, Option.some_or]
  · have hagrees := List.IsChain.induction Moment.Agrees (m :: new) hnew
      (fun _ _ hstep hm => hstep.keeps_agrees hm) fun _ => h.agreement m (List.mem_of_getLast? h.last)
    exact (List.forall_mem_cons.1 hagrees).2

/-- Goals that have just been registered agree with the ledger. -/
theorem agrees_start (hopen : ∀ g ∈ t.goals, g.status = .incomplete) (hdistinct : t.IsDistinct) :
    (t.present (t.registerIn .empty) []).Agrees := by
  rw [Moment.Agrees, present, (t.registerIn_tables .empty).2]
  exact Table.books_insertNew hdistinct fun g hg => ⟨(hopen g hg).symm, by rw [hopen g hg]; rfl, rfl⟩

theorem sound (h : History t l notes moments) : Sound moments (t.present l notes) := by
  induction h with
  | start hopen hdistinct =>
    exact ⟨.singleton _, rfl, List.forall_mem_singleton.2 (agrees_start hopen hdistinct)⟩
  | @meanwhile t l notes _ _ l' hgoals ih =>
    have hstep : (t.present l notes).Step (t.present l' notes) :=
      .rest (List.forall₂_same.2 fun _ _ => rfl) hgoals (List.append_nil _).symm nofun nofun
    exact ih.append (.cons_cons hstep (.singleton _)) rfl
  | @tick H _ t notes _ registry env _ ih =>
    refine ih.append (t.isChain_tickMoments registry notes env) ?_
    exact List.getLast?_concat (l := _ :: Goal.attemptMoments registry _ [] _ _ _)
  | @failIncomplete t l notes _ _ now ih =>
    exact ih.append (t.isChain_failMoments now notes l) List.getLast?_concat
  | @conclude t l notes _ _ now ih =>
    exact ih.append (.cons_cons (t.step_refresh true now l notes none) (.singleton _)) rfl

/-- The ledger never drifts from the goals. At every moment of a history every goal has a record with
    its status, and the time of the one notification that tells of it if the goal is decided; a goal
    that is not has no such notification. Only goals that count and are not decided change their
    status, and what is decided stays as it is and is not evaluated any more. -/
theorem agrees (h : History t l notes moments) :
    moments.Pairwise Moment.Upholds ∧ moments.IsChain Moment.MovesOpen ∧
      (∀ m ∈ moments, m.Agrees) ∧ moments.getLast? = some (t.present l notes) := by
  obtain ⟨hchain, hlast, hagrees⟩ := h.sound
  refine ⟨List.isChain_iff_pairwise.1 (hchain.imp fun _ _ hstep => hstep.upholds), ?_, hagrees,
    hlast⟩
  exact hchain.imp fun _ _ hstep => hstep.movesOpen

end History

namespace Outpost

def goal (name : String) (root : Node) : Goal :=
  ⟨name, ⟨root, []⟩, .primary, 10, 0, false, .incomplete⟩

/-- An outpost that is to be held for two seconds without losing its convoy. -/
def tracker : Tracker where
  goals := [
    goal "Hold" (.list [.atom (.operator "has-time-elapsed") 1, .atom (.number 2) 18] 0),
    goal "Convoy" (.list [.atom (.operator "false") 1] 0),
    goal "Patrol" (.list [.atom (.operator "is-goal-true") 1, .atom (.text "Hold") 14] 0),
    goal "Reserve" (.list [.atom (.operator "has-time-elapsed") 1, .atom (.number 9) 18] 0)]
  failsEarly := false
  outcome := .inProgress

def env (time : Float) (l : Ledger) : Env Simulation :=
  .start ((Simulation.start ⟨[], []⟩ (.rolls [])).setTime time) .empty l #[]

/-- A pass over the goals at a time. -/
def pass (t : Tracker) (time : Float) (l : Ledger) : (Tracker × List Notification) × Env Simulation :=
  (t.tick Registry.builtin).run (env time l)

theorem history_pass {t : Tracker} {l : Ledger} {notes : List Notification} {moments : List Moment}
    (h : History t l notes moments) (time : Float) :
    History (pass t time l).1.1 (pass t time l).2.ledger (notes ++ (pass t time l).1.2)
      (moments ++ t.tickMoments Registry.builtin notes (env time l)) :=
  .tick Registry.builtin (env time l) h

end Outpost

open Outpost in
/-- The convoy is lost in the first pass, and the outpost is held in the second one, before which the
    patrol is called off. Of the goals that are undecided at the end, only the reserve is failed. -/
theorem History.agrees_outpost : ∃ t l notes moments, History t l notes moments ∧
    t.goals.map (·.status) = [.complete, .failed, .incomplete, .failed] ∧
    moments.filterMap (·.evaluated) = [0, 1, 2, 3, 0, 3] ∧ moments.Pairwise Moment.Upholds ∧
    ∀ m ∈ moments, m.Agrees := by
  have hopen : ∀ g ∈ tracker.goals, g.status = .incomplete := by
    simp [tracker, goal]
  have hdistinct : tracker.IsDistinct := by
    rw [IsDistinct]
    decide +kernel
  have hdirective (l : Ledger) (d : Directive) : (l.pushDirective d).goals = l.goals := rfl
  have hfirst := history_pass (.start hopen hdistinct) 1
  have hcalled := hfirst.meanwhile _ (hdirective _ ⟨"PATROL", true⟩)
  have hlast := (history_pass hcalled 3).failIncomplete 4
  refine ⟨_, _, _, _, hlast, ?_, ?_, hlast.agrees.1, hlast.agrees.2.2.1⟩
  · decide +kernel
  · decide +kernel

end Tracker

end MissionScript

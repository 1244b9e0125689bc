import MissionScript.Mission.Flight
import MissionScript.Proofs.Mission.Score
import MissionScript.Proofs.Operator.Builtin

/-!
Flights. While the mission runs, a tick answers with its own report, and the reports add up to the
score. The last of them stays behind when the mission is finished, and every tick that is asked for
later answers with it once more.
-/

namespace MissionScript

namespace Flight

/-- What is asked of a flight. -/
inductive Call where
  | tick
  | finish
  deriving DecidableEq

/-- The flight after a call. -/
def called (f : Flight) : Call → Flight
  | .tick => f.tick.1
  | .finish => f.finish.2

/-- The flight after calls. -/
def after (f : Flight) (calls : List Call) : Flight :=
  calls.foldl called f

/-- The report that a tick answers with. -/
def answer (f : Flight) : Option TickReport :=
  f.tick.1.lastReport

/-- What the ticks among calls answer. -/
def answers (f : Flight) : List Call → List (Option TickReport)
  | [] => []
  | .tick :: calls => f.answer :: answers f.tick.1 calls
  | .finish :: calls => answers f.finish.2 calls

/-- The summary of the mission, if calls finish it. -/
def summary? (f : Flight) : List Call → Option Summary
  | [] => none
  | .tick :: calls => summary? f.tick.1 calls
  | .finish :: calls => f.finish.1.or (summary? f.finish.2 calls)

/-- What an answer adds to the score. -/
def gain (answer : Option TickReport) : Int :=
  answer.elim 0 (·.score)

/-- What answers add to the score. -/
def total (answers : List (Option TickReport)) : Int :=
  (answers.map gain).sum

/-- How many ticks are asked for after the mission has been finished. -/
def late (calls : List Call) : Nat :=
  (calls.dropWhile (· = .tick)).count .tick

variable {f : Flight} {r : Run} {calls : List Call}

theorem total_cons (answer : Option TickReport) (answers : List (Option TickReport)) :
    total (answer :: answers) = gain answer + total answers := by
  rw [total, List.map_cons, List.sum_cons, total]

theorem total_replicate (n : Nat) (answer : Option TickReport) :
    total (List.replicate n answer) = n * gain answer := by
  rw [total, List.map_replicate, List.sum_replicate, nsmul_eq_mul]

/-- A tick of a mission that runs is the tick of its run, at the time of the clock. -/
theorem tick_of_running (h : f.run = some r) :
    let t := r.tick (f.game.setTime f.clock.next.time)
    f.tick.1 = ⟨f.clock.next, t.host, some t.run, some t.report⟩ := by
  rw [tick, h]

/-- What a tick of a mission that runs answers is added to the score. -/
theorem score_tick (h : f.run = some r) :
    ∃ r', f.tick.1.run = some r' ∧ r'.score = r.score + gain f.answer := by
  rw [answer, tick_of_running h]
  exact ⟨_, rfl, (r.earned_tick (f.game.setTime f.clock.next.time)).2⟩

/-- A tick of a mission that is finished only advances the clock. -/
theorem tick_of_finished (h : f.run = none) :
    f.tick.1 = { f with clock := f.clock.next, game := f.game.setTime f.clock.next.time } := by
  rw [tick, h]

/-- A mission that is finished stays finished, and its last report stays as it is. -/
theorem after_of_finished (h : f.run = none) (calls : List Call) :
    (f.after calls).run = none ∧ (f.after calls).lastReport = f.lastReport := by
  induction calls generalizing f with
  | nil => exact ⟨h, rfl⟩
  | cons call calls ih =>
    cases call with
    | tick =>
      have htick := tick_of_finished h
      obtain ⟨hrun, hlast⟩ := ih (f := f.tick.1) (by rw [htick, h])
      exact ⟨hrun, hlast.trans (by rw [htick])⟩
    | finish => exact ih (f := f.finish.2) rfl

/-- All ticks of a mission that is finished give one answer. -/
theorem answers_of_finished (h : f.run = none) (calls : List Call) :
    f.answers calls = List.replicate (calls.count .tick) f.lastReport := by
  induction calls generalizing f with
  | nil => rfl
  | cons call calls ih =>
    cases call with
    | tick =>
      have htick := tick_of_finished h
      have hlast : f.tick.1.lastReport = f.lastReport := by rw [htick]
      rw [answers, ih (by rw [htick, h]), answer, hlast, List.count_cons_self,
        List.replicate_succ]
    | finish => exact ih (f := f.finish.2) rfl

/-- The report of a flight is what its last tick has answered. -/
theorem lastReport_after (f : Flight) (calls : List Call) :
    (f.after calls).lastReport = (f.answers calls).getLast?.getD f.lastReport := by
  induction calls generalizing f with
  | nil => rfl
  | cons call calls ih =>
    cases call with
    | tick =>
      rw [answers, List.getLast?_cons]
      exact ih f.tick.1
    | finish => exact ih f.finish.2

/-- A mission runs until it is finished. -/
theorem isSome_run_after (h : f.run = some r) (calls : List Call) :
    (f.after calls).run.isSome ↔ .finish ∉ calls := by
  induction calls generalizing f r with
  | nil =>
    change f.run.isSome ↔ _
    simp [h]
  | cons call calls ih =>
    cases call with
    | tick =>
      obtain ⟨r₁, hrun, -⟩ := score_tick h
      simp only [List.mem_cons, reduceCtorEq, false_or]
      exact ih hrun
    | finish =>
      have hrun := (after_of_finished (f := f.finish.2) rfl calls).1
      change (f.finish.2.after calls).run.isSome ↔ _
      simp [hrun]

/-- Once there is a report, there always is one. -/
theorem isSome_lastReport_after (h : f.lastReport.isSome) (calls : List Call) :
    (f.after calls).lastReport.isSome := by
  induction calls generalizing f with
  | nil => exact h
  | cons call calls ih =>
    cases call with
    | tick =>
      refine ih (f := f.tick.1) ?_
      cases hrun : f.run with
      | none => rwa [tick_of_finished hrun]
      | some r => rw [tick_of_running hrun]; rfl
    | finish => exact ih (f := f.finish.2) h

/-- As long as a mission runs, its score is what it was and what the ticks have answered since. -/
theorem score_after {r' : Run} (h : f.run = some r) (hafter : (f.after calls).run = some r') :
    r'.score = r.score + total (f.answers calls) := by
  induction calls generalizing f r with
  | nil =>
    obtain rfl : r = r' := Option.some.inj (h.symm.trans hafter)
    exact (Int.add_zero _).symm
  | cons call calls ih =>
    cases call with
    | tick =>
      obtain ⟨r₁, hrun, hscore⟩ := score_tick h
      rw [ih hrun hafter, hscore, answers, total_cons, add_assoc]
    | finish =>
      have hnone := (after_of_finished (f := f.finish.2) rfl calls).1
      cases hnone.symm.trans hafter

/-- The summary of a mission has the score that its ticks have answered. What is asked for later
    answers with the last report each time. -/
theorem score_summary {s : Summary} (h : f.run = some r) (hsummary : f.summary? calls = some s) :
    s.score + late calls * gain (f.after calls).lastReport =
      r.score + total (f.answers calls) := by
  induction calls generalizing f r with
  | nil => cases hsummary
  | cons call calls ih =>
    cases call with
    | tick =>
      obtain ⟨r₁, hrun, hscore⟩ := score_tick h
      have hlate : late (.tick :: calls) = late calls := rfl
      rw [hlate, answers, total_cons, ← add_assoc, ← hscore]
      exact ih hrun hsummary
    | finish =>
      have hfinished : f.finish.2.run = none := rfl
      obtain rfl : r.finish = s := by
        rw [summary?, finish, h] at hsummary
        exact Option.some.inj hsummary
      have hlast := (after_of_finished hfinished calls).2
      have hlate : late (.finish :: calls) = calls.count .tick := rfl
      change _ + _ * gain (f.finish.2.after calls).lastReport = _
      rw [answers, answers_of_finished hfinished, total_replicate, hlate, hlast, r.score_finish]

/-- A flight has a report exactly if its mission has begun. -/
theorem isSome_lastReport_iff (hrun : f.run = some r) (hlast : f.lastReport = none) :
    (f.after calls).lastReport.isSome ↔ calls.head? = some .tick := by
  cases calls with
  | nil => simp [after, hlast]
  | cons call calls =>
    cases call with
    | tick =>
      refine iff_of_true (isSome_lastReport_after (f := f.tick.1) ?_ calls) rfl
      rw [tick_of_running hrun]
      rfl
    | finish =>
      have hkept := (after_of_finished (f := f.finish.2) rfl calls).2
      have hnone : (f.after (.finish :: calls)).lastReport = none := hkept.trans hlast
      rw [hnone]
      exact iff_of_false Bool.false_ne_true nofun

/-- A tick after the end answers what is left of the last tick, so it answers nothing exactly if the
    mission had not begun. -/
theorem isSome_answer_iff (hrun : f.run = some r) (hlast : f.lastReport = none) :
    (f.after calls).answer.isSome ↔ .finish ∉ calls ∨ calls.head? = some .tick := by
  cases hnow : (f.after calls).run with
  | some r' =>
    have hfinish := (isSome_run_after hrun calls).1 (by rw [hnow]; rfl)
    rw [answer, tick_of_running hnow]
    exact iff_of_true rfl (.inl hfinish)
  | none =>
    have hfinish : ¬ .finish ∉ calls := by
      rw [← isSome_run_after hrun calls, hnow]
      exact Bool.false_ne_true
    rw [answer, tick_of_finished hnow, isSome_lastReport_iff hrun hlast]
    exact (or_iff_right hfinish).symm

/-- One call comes before another exactly if calls up to the other have it among them. -/
theorem sublist_pair_iff {a b : Call} :
    [a, b].Sublist calls ↔ ∃ done, done ++ [b] <+: calls ∧ a ∈ done := by
  constructor
  · intro h
    obtain ⟨early, rest, rfl, ha, hb⟩ := List.cons_sublist_iff.1 h
    obtain ⟨between, rest', rfl⟩ := List.append_of_mem (List.singleton_sublist.1 hb)
    refine ⟨early ++ between, ⟨rest', ?_⟩, List.mem_append_left between ha⟩
    simp
  · rintro ⟨done, hdone, ha⟩
    exact ((List.singleton_sublist.2 ha).append (List.Sublist.refl [b])).trans hdone.sublist

/-- Flights answer with a report as long as the mission runs. It is the report of the tick that is asked
    for, at the time of the clock, and the reports add up to the score of the mission; a mission that
    is finished has that score in its summary. Once it is finished, a tick answers as the one before
    it did. So a report tells of a tick that ran unless a tick is asked for after the end of a
    mission that had begun, and each of those counts the last report once more. -/
theorem answers_reported (run : Run) (game : Simulation) (settings : Settings)
    (calls : List Call) :
    let f := start run game settings
    let now := f.after calls
    (now.run.isSome ↔ .finish ∉ calls) ∧
    (∀ r, now.run = some r →
      let t := r.tick (now.game.setTime now.tick.1.clock.time)
      now.answer = some t.report ∧ t.report.time = now.tick.1.clock.time ∧
        r.score = run.score + total (f.answers calls)) ∧
    (now.run = none → now.answer = (f.answers calls).getLast?.join) ∧
    ((∀ done, done ++ [.tick] <+: calls →
        ((f.after done).answer.isSome ↔ (f.after done).run.isSome)) ↔
      (calls.head? = some .tick → ¬ [.finish, .tick].Sublist calls)) ∧
    ∀ s, f.summary? calls = some s →
      s.score + late calls * gain now.lastReport = run.score + total (f.answers calls) := by
  dsimp only
  have hstart : (start run game settings).run = some run := rfl
  refine ⟨isSome_run_after hstart calls, fun r hr => ?_, fun hr => ?_, ?_, fun s hs => ?_⟩
  · have htick := tick_of_running hr
    refine ⟨?_, rfl, score_after hstart hr⟩
    rw [answer, htick]
  · rw [answer, tick_of_finished hr, lastReport_after]
    cases (answers (start run game settings) calls).getLast? <;> rfl
  · refine ⟨fun hfaithful hbegun hlate => ?_, fun hnever done hdone => ?_⟩
    · obtain ⟨done, hdone, hfinish⟩ := sublist_pair_iff.1 hlate
      have hhead : done.head? = some .tick := by
        obtain ⟨call, done, rfl⟩ := List.exists_cons_of_ne_nil (List.ne_nil_of_mem hfinish)
        obtain ⟨rest, rfl⟩ := hdone
        exact hbegun
      have hanswer := (isSome_answer_iff hstart rfl).2 (.inr hhead)
      exact (isSome_run_after hstart done).1 ((hfaithful done hdone).1 hanswer) hfinish
    · rw [isSome_answer_iff hstart rfl, isSome_run_after hstart done]
      refine ⟨fun h => h.elim id fun hhead hfinish => ?_, .inl⟩
      have hbegun : calls.head? = some .tick := by
        obtain ⟨rest, rfl⟩ := hdone
        rw [List.append_assoc, List.head?_append, hhead]
        rfl
      exact hnever hbegun (sublist_pair_iff.2 ⟨done, hdone, hfinish⟩)
  · exact score_summary hstart hs

end Flight

namespace Sighting

/-- A mission in which a contact is reported at once. -/
def definition : Definition where
  name := "Sighting"
  vars := []
  events := [⟨"Contact", "(true)", 1, 1, 0, none, 5, none⟩]
  goals := []

/-- A flight of the mission in a game with no ships. -/
def takeoff (mission : Mission) : Flight :=
  .start (.start mission Registry.builtin .builtin) (.start ⟨[], []⟩ (.rolls [])) .builtin

/-- What is read of a flight after calls: what each answer adds to the score, whether the mission
    runs, and the score in its summary. -/
def flight? (calls : List Flight.Call) : Option (List Int × Bool × Option Int) :=
  (Mission.load definition Registry.builtin .builtin .empty).toOption.map fun mission =>
    (((takeoff mission).answers calls).map Flight.gain, ((takeoff mission).after calls).run.isSome,
      ((takeoff mission).summary? calls).map (·.score))

theorem flight?_eq_some {calls : List Flight.Call} {gains : List Int} {runs : Bool} {score : Int}
    (h : flight? calls = some (gains, runs, some score)) : ∃ mission s,
      Mission.load definition Registry.builtin .builtin .empty = .ok mission ∧
      ((takeoff mission).answers calls).map Flight.gain = gains ∧
      ((takeoff mission).after calls).run.isSome = runs ∧
      (takeoff mission).summary? calls = some s ∧ s.score = score := by
  obtain ⟨mission, hload, hflight⟩ := Option.map_eq_some_iff.1 h
  obtain ⟨hgains, hflight⟩ := Prod.mk.inj hflight
  obtain ⟨hruns, hsummary⟩ := Prod.mk.inj hflight
  obtain ⟨s, hsummary, hscore⟩ := Option.map_eq_some_iff.1 hsummary
  exact ⟨mission, s, toOption_eq_some_iff.1 hload, hgains, hruns, hsummary, hscore⟩

end Sighting

open Sighting in
/-- Two ticks and the end of the mission: the reports add up to the score of the summary. -/
theorem Flight.answers_reported_sighting : ∃ mission s,
    Mission.load definition Registry.builtin .builtin .empty = .ok mission ∧
    (takeoff mission).summary? [.tick, .tick, .finish] = some s ∧ s.score = 5 ∧
    s.score = total ((takeoff mission).answers [.tick, .tick, .finish]) ∧
    ∀ done, done ++ [.tick] <+: [.tick, .tick, .finish] →
      (((takeoff mission).after done).answer.isSome ↔
        ((takeoff mission).after done).run.isSome) := by
  have hflight : flight? [.tick, .tick, .finish] = some ([5, 0], false, some 5) := by
    simp only [flight?, takeoff, Registry.builtin_eq]
    decide +kernel
  obtain ⟨mission, s, hload, -, -, hsummary, hscore⟩ := flight?_eq_some hflight
  obtain ⟨-, -, -, hfaithful, htotal⟩ := Flight.answers_reported
    (Run.start mission Registry.builtin .builtin) (.start ⟨[], []⟩ (.rolls [])) .builtin
    [.tick, .tick, .finish]
  have hsum := htotal s hsummary
  have hlate : late [.tick, .tick, .finish] = 0 := rfl
  have hstart : (Run.start mission Registry.builtin .builtin).score = 0 := rfl
  rw [hlate, Nat.cast_zero, Int.zero_mul, Int.add_zero, hstart, Int.zero_add] at hsum
  exact ⟨mission, s, hload, hsummary, hscore, hsum, hfaithful.2 fun _ => by decide⟩

open Sighting in
/-- A tick after the end of the mission answers with a report, which is that of the last tick that
    ran. The reports add up to more than the score of the mission. -/
theorem Flight.answer_after_finish : ∃ mission s,
    Mission.load definition Registry.builtin .builtin .empty = .ok mission ∧
    ((takeoff mission).after [.tick, .finish]).run = none ∧
    ((takeoff mission).after [.tick, .finish]).answer.isSome ∧
    (takeoff mission).summary? [.tick, .finish, .tick] = some s ∧ s.score = 5 ∧
    total ((takeoff mission).answers [.tick, .finish, .tick]) = 10 := by
  have hflight : flight? [.tick, .finish, .tick] = some ([5, 5], false, some 5) := by
    simp only [flight?, takeoff, Registry.builtin_eq]
    decide +kernel
  obtain ⟨mission, s, hload, hgains, -, hsummary, hscore⟩ := flight?_eq_some hflight
  refine ⟨mission, s, hload, rfl, rfl, hsummary, hscore, ?_⟩
  rw [total, hgains]
  rfl

end MissionScript

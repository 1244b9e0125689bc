import MissionScript.Proofs.Event.Safety
import MissionScript.Proofs.Mission.Course
import MissionScript.Proofs.Mission.Settled

/-!
What formulas are told about an event in the course of a run. An event whose formula is false for good
may have fired before, if it may fire several times; then it counts as over although it has fired. In
all other courses the two answers about an event exclude each other, and neither is ever taken back.
-/

namespace MissionScript

/-- Whether an answer is kept if it is settled. -/
def Truth.Stays (earlier later : Truth) : Prop :=
  earlier.isSettled = true → later = earlier

instance : DecidableRel Truth.Stays :=
  fun _ _ => inferInstanceAs (Decidable (_ → _))

namespace Schedule

variable {s : Schedule} {i : Nat} {turns earlier later : List Turn}

/-- Whether the event at a place has fired, and then its formula was false for good. -/
def Relapses (i : Nat) (turns : List Turn) : Prop :=
  firings i turns ≠ [] ∧ ∃ t ∈ evaluations i turns, t.reading = some .knownFalse

theorem evaluations_append (i : Nat) (earlier later : List Turn) :
    evaluations i (earlier ++ later) = evaluations i earlier ++ evaluations i later :=
  List.filter_append ..

theorem mem_evaluations {t : Turn} :
    t ∈ evaluations i turns ↔ t ∈ turns ∧ t.place = i ∧ t.reading.isSome = true := by
  rw [evaluations, List.mem_filter, Bool.and_eq_true, beq_iff_eq]

/-- An event whose formula is false for good is exhausted. -/
theorem Turn.IsSound.exhausted {t : Turn} (ht : t.IsSound) (hreading : t.reading = some .knownFalse) :
    ∃ e, t.after.events[t.place]? = some e ∧ e.state = .exhausted := by
  obtain ⟨e, he, -⟩ := ht.evaluates (by rw [hreading]; rfl)
  refine ⟨e.turned t.now (some .knownFalse), ?_, rfl⟩
  rw [ht.after_eq, hreading]
  exact getElem?_modify_eq_some.2 ⟨e, he, (if_pos rfl).symm⟩

theorem Relapses.append (h : Relapses i earlier) (later : List Turn) :
    Relapses i (earlier ++ later) := by
  obtain ⟨hfirings, t, ht, hreading⟩ := h
  rw [Relapses, firings, evaluations_append, List.filter_append]
  exact ⟨List.append_ne_nil_of_left_ne_nil hfirings _, t, List.mem_append_left _ ht, hreading⟩

namespace Past

/-- What has come of a schedule has had a past before that. -/
theorem exists_before (h : Past s turns) (hbefore : earlier <+: turns) : ∃ s', Past s' earlier := by
  obtain ⟨later, rfl⟩ := hbefore
  cases later with
  | nil => exact ⟨s, (List.append_nil earlier).symm ▸ h⟩
  | cons t later => exact ⟨t.before, (h.before rfl).1⟩

/-- An event whose formula was false for good is not evaluated any more. -/
theorem evaluations_eq_nil (h : Past s (earlier ++ later)) {t : Turn} (ht : t ∈ evaluations i earlier)
    (hreading : t.reading = some .knownFalse) : evaluations i later = [] := by
  obtain ⟨hmem, rfl, -⟩ := mem_evaluations.1 ht
  refine List.eq_nil_iff_forall_not_mem.2 fun t' ht' => ?_
  obtain ⟨hmem', hplace, hsome⟩ := mem_evaluations.1 ht'
  obtain ⟨before, after, rfl⟩ := List.append_of_mem hmem
  obtain ⟨e, he, hstate⟩ := (h.before (List.append_assoc ..)).2.exhausted hreading
  obtain ⟨between, rest, rfl⟩ := List.append_of_mem hmem'
  have horderly := h.isOrderly (List.append_assoc (before ++ t :: after) between (t' :: rest)).symm
  have hrests := horderly.rests t (by simp) e (hplace ▸ he) hstate
  rw [hrests] at hsome
  cases hsome

/-- An event that may fire only once does so last. -/
theorem not_relapses (h : Past s turns) {e : Event} (hi : s.events[i]? = some e)
    (hrepeats : 0 ≤ e.repeats) (honce : e.repeats ≤ 1) : ¬ Relapses i turns := by
  rintro ⟨hfirings, t, ht, hreading⟩
  obtain ⟨hmem, rfl, hsome⟩ := mem_evaluations.1 ht
  obtain ⟨earlier, later, rfl⟩ := List.append_of_mem hmem
  have hlater : evaluations t.place later = [] := by
    rw [List.append_cons] at h
    exact h.evaluations_eq_nil (mem_evaluations.2 ⟨by simp, rfl, hsome⟩) hreading
  obtain ⟨hpast, hsound⟩ := h.before rfl
  obtain ⟨e', he', hplan⟩ := hsound.evaluates hsome
  obtain ⟨-, hspent, -, -⟩ := Event.plan_eq_evaluate_iff.1 hplan
  obtain ⟨e'', he'', hleads⟩ := (hsound.leads.trans (h.leads t (by simp))) t.place e' he'
  obtain rfl := Option.some.inj (hi.symm.trans he'')
  -- the event has fired before this turn, as it has not fired in it and had no turn later
  have hfired : firings t.place earlier ≠ [] := by
    intro hnone
    refine hfirings ?_
    rw [firings, ← List.singleton_append, evaluations_append, evaluations_append, hlater,
      List.append_nil, List.filter_append, ← firings, hnone, List.nil_append]
    refine List.filter_eq_nil_iff.2 fun t' ht' => ?_
    obtain rfl := List.mem_singleton.1 (mem_evaluations.1 ht').1
    rw [Turn.fires, hreading]
    exact Bool.false_ne_true
  have htriggers := (hpast.recounts t.place e' he').triggers
  have hpositive := List.length_pos_iff.2 hfired
  rw [firings, ← htriggers] at hpositive
  rw [hleads.repeats] at hrepeats honce
  have hspent' := Event.isSpent_iff.2 ⟨hrepeats, by omega⟩
  rw [hspent] at hspent'
  cases hspent'

end Past

end Schedule

namespace EventRecord.Tallies

variable {r r' : EventRecord} {i : Nat} {turns later : List Schedule.Turn}

theorem triggers_pos_iff (h : r.Tallies (Schedule.evaluations i turns)) :
    0 < r.triggers ↔ Schedule.firings i turns ≠ [] := by
  rw [h.triggers, List.length_pos_iff, Schedule.firings]

/-- An event has fired and is over only if it has relapsed. -/
theorem relapses_iff (h : r.Tallies (Schedule.evaluations i turns)) :
    Schedule.Relapses i turns ↔ r.hasFired.isTrue = true ∧ r.isOver.isTrue = true := by
  rw [Schedule.Relapses, ← h.triggers_pos_iff, ← h.never, hasFired, isOver]
  by_cases hfired : 0 < r.triggers
  · cases r.neverFires <;> simp [hfired, Truth.isTrue]
  · cases r.neverFires <;> simp [hfired, Truth.isTrue]

/-- The record of an event whose formula was false for good is never changed again. -/
theorem eq_of_neverFires {s : Schedule} (hpast : s.Past (turns ++ later))
    (h : r.Tallies (Schedule.evaluations i turns))
    (h' : r'.Tallies (Schedule.evaluations i (turns ++ later))) (hnever : r.neverFires = true) :
    r' = r := by
  obtain ⟨t, ht, hreading⟩ := h.never.1 hnever
  rw [Schedule.evaluations_append, hpast.evaluations_eq_nil ht hreading, List.append_nil] at h'
  have hnever' : r'.neverFires = true := h'.never.2 ⟨t, ht, hreading⟩
  cases r
  cases r'
  simp only [EventRecord.mk.injEq]
  exact ⟨h'.triggers.trans h.triggers.symm, h'.first.trans h.first.symm, h'.last.trans h.last.symm,
    hnever'.trans hnever.symm⟩

theorem triggers_pos_append (h : r.Tallies (Schedule.evaluations i turns))
    (h' : r'.Tallies (Schedule.evaluations i (turns ++ later))) (hfired : 0 < r.triggers) :
    0 < r'.triggers := by
  rw [h'.triggers_pos_iff, Schedule.firings, Schedule.evaluations_append, List.filter_append]
  exact List.append_ne_nil_of_left_ne_nil (h.triggers_pos_iff.1 hfired) _

/-- That an event has fired is never taken back, and neither is that it never will. -/
theorem stays_hasFired {s : Schedule} (hpast : s.Past (turns ++ later))
    (h : r.Tallies (Schedule.evaluations i turns))
    (h' : r'.Tallies (Schedule.evaluations i (turns ++ later))) : r.hasFired.Stays r'.hasFired := by
  intro hsettled
  by_cases hfired : 0 < r.triggers
  · rw [hasFired, hasFired, if_pos hfired, if_pos (h.triggers_pos_append h' hfired)]
  · cases hnever : r.neverFires with
    | true => rw [eq_of_neverFires hpast h h' hnever]
    | false =>
      rw [hasFired, if_neg hfired, hnever] at hsettled
      cases hsettled

/-- That an event is over is never taken back; that it is not, only if it relapses. -/
theorem stays_isOver {s : Schedule} (hpast : s.Past (turns ++ later))
    (h : r.Tallies (Schedule.evaluations i turns))
    (h' : r'.Tallies (Schedule.evaluations i (turns ++ later)))
    (hrelapse : ¬ Schedule.Relapses i (turns ++ later)) : r.isOver.Stays r'.isOver := by
  intro hsettled
  cases hnever : r.neverFires with
  | true => rw [eq_of_neverFires hpast h h' hnever]
  | false =>
    by_cases hfired : 0 < r.triggers
    · have hfired' := h.triggers_pos_append h' hfired
      have hnever' : r'.neverFires = false := by
        rw [← Bool.not_eq_true]
        intro hnever'
        exact hrelapse ⟨h'.triggers_pos_iff.1 hfired', h'.never.1 hnever'⟩
      rw [isOver, isOver, hnever, hnever', if_pos hfired, if_pos hfired']
    · rw [isOver, hnever, if_neg hfired] at hsettled
      cases hsettled

end EventRecord.Tallies

namespace Beat

variable {H : Type} [Host H]

/-- What a formula says at a moment. -/
def answer (registry : Registry) (formula : String) (root : Node) (b : Beat H) : Truth :=
  ((evaluate registry formula root).run b.env).1.truth

/-- A query about an event says what the record of the event says. -/
theorem answer_eq {registry : Registry} {q : Query} {name : String} {root : Node} {offset : Nat}
    (hroot : root.Applies registry (.query q) [.atom (.text name) offset])
    (haccepts : q.Accepts [.text name]) {b : Beat H} {t : Truth}
    (hanswer : q.answer b.env.host b.env.ledger [.text name] = .ok t.toValue) (formula : String) :
    b.answer registry formula root = t := by
  obtain ⟨operator, headOffset, rootOffset, rfl, hget⟩ := hroot
  have hargs : List.Forall₂ (fun (arg : Arg H) v => Yields b.env.host b.env.ledger arg.eval v)
      (Evaluation.childArgs registry formula [] 1 [.atom (.text name) offset]) [.text name] :=
    Evaluation.yields_literals (.cons rfl .nil) formula (by simp [Node.reachAll, Node.reach, maxEvalDepth]) 1
  have hquery := Evaluation.yields_query hget formula [] hargs haccepts.count haccepts.kinds
    haccepts.known hanswer
  have hyields : Yields b.env.host b.env.ledger (Evaluation.evalNode registry formula []
      (.list [.atom (.operator operator) headOffset, .atom (.text name) offset] rootOffset)) t.toValue :=
    Evaluation.yields_application (by decide) hquery
  rw [answer]
  exact (congrArg Value.truth (hyields { b.env with trace := #[] } ⟨rfl, rfl⟩).1).trans
    (Value.truth_toValue t)

theorem answer_hasFired {registry : Registry} {name : String} {root : Node} {offset : Nat}
    (hroot : root.Applies registry (.query .isEventTrue) [.atom (.text name) offset]) {b : Beat H}
    {r : EventRecord} (hr : b.env.ledger.event? name = some r) (formula : String) :
    b.answer registry formula root = r.hasFired := by
  refine answer_eq hroot (Query.accepts_singleton rfl rfl rfl) ?_ formula
  simp [Query.answer, Query.eventArg, Query.textAt, Query.argAt, Query.textArg, hr, bind, Except.bind,
    pure, Except.pure]

theorem answer_isOver {registry : Registry} {name : String} {root : Node} {offset : Nat}
    (hroot : root.Applies registry (.query .isEventFalse) [.atom (.text name) offset]) {b : Beat H}
    {r : EventRecord} (hr : b.env.ledger.event? name = some r) (formula : String) :
    b.answer registry formula root = r.isOver := by
  refine answer_eq hroot (Query.accepts_singleton rfl rfl rfl) ?_ formula
  simp [Query.answer, Query.eventArg, Query.textAt, Query.argAt, Query.textArg, hr, bind, Except.bind,
    pure, Except.pure]

end Beat

/-- An event that may fire only once does not relapse. -/
theorem Run.not_relapses {H : Type} [Host H] {definition : Definition} {loader : Registry}
    {settings : Settings} {saved : Snapshot} {mission : Mission}
    (hload : Mission.load definition loader settings saved = .ok mission) {i : Nat} {e : Event}
    (hi : mission.schedule.events[i]? = some e) (hrepeats : 0 ≤ e.repeats) (honce : e.repeats ≤ 1)
    (registry : Registry) (settings' : Settings) (hosts : List H) : ¬ Schedule.Relapses i
      (Beat.turns ((Run.start mission registry settings').along Run.beats hosts)) := by
  obtain ⟨hdistinct, hstart⟩ := Mission.recalls_load hload registry settings'
  have hpast := (hstart.along hdistinct hosts).2.past
  obtain ⟨e', hi', hleads⟩ := (Run.start mission registry settings').leads_after hosts i e hi
  rw [List.nil_append] at hpast
  rw [← hleads.repeats] at hrepeats honce
  exact hpast.not_relapses hi' hrepeats honce

/-- At every moment in the course of a loaded mission, whatever the game is like at its ticks, what
    formulas are told about an event. That it has fired, or never will, is never taken back. That it is
    over, or not, is never taken back either, and an event that is over has never fired, unless the
    event relapses. -/
theorem Run.answers_stay_iff {H : Type} [Host H] {definition : Definition}
    {loader registry : Registry} {settings settings' : Settings} {saved : Snapshot} {mission : Mission}
    (hload : Mission.load definition loader settings saved = .ok mission) {name : String} {i : Nat}
    (hi : mission.schedule.index? name = some i) {fired ended : Node} {offset offset' : Nat}
    (hfired : fired.Applies registry (.query .isEventTrue) [.atom (.text name) offset])
    (hended : ended.Applies registry (.query .isEventFalse) [.atom (.text name) offset'])
    (formula : String) (hosts : List H) {beats : List (Beat H)}
    (hbeats : beats = (Run.start mission registry settings').along Run.beats hosts) :
    (beats.map (·.answer registry formula fired)).Pairwise Truth.Stays ∧
      ((beats.map (·.answer registry formula ended)).Pairwise Truth.Stays ∧
        (∀ b ∈ beats, ¬ ((b.answer registry formula fired).isTrue = true ∧
          (b.answer registry formula ended).isTrue = true)) ↔
      ¬ Schedule.Relapses i (Beat.turns beats)) := by
  obtain ⟨hdistinct, hstart⟩ := Mission.recalls_load hload registry settings'
  obtain ⟨htallied, -, -, hpast⟩ := hstart.along hdistinct hosts
  rw [← hbeats] at htallied hpast
  rw [List.nil_append] at hpast
  -- at every moment the answers are those of a record that fits the turns so far
  have hrecord {b : Beat H} {sofar : List Schedule.Turn}
      (hb : b.env.ledger.Tallies mission.schedule.names sofar) :
      ∃ r : EventRecord, r.Tallies (Schedule.evaluations i sofar) ∧
        b.answer registry formula fired = r.hasFired ∧ b.answer registry formula ended = r.isOver := by
    obtain ⟨hlt, hsame, -⟩ := List.findIdx?_eq_some_iff_getElem.1 hi
    obtain ⟨r, hr, htallies⟩ := hb i (mission.schedule.events[i]).name (by
      rw [Schedule.names, List.getElem?_map, List.getElem?_eq_getElem hlt, Option.map_some])
    have hr' : b.env.ledger.event? name = some r := by
      rw [Ledger.event?, ← sameName_iff.1 hsame]
      exact hr
    exact ⟨r, htallies, Beat.answer_hasFired hfired hr' formula, Beat.answer_isOver hended hr' formula⟩
  refine ⟨List.pairwise_map.2 (htallied.pairwise fun b b' sofar later hbefore hb hb' => ?_), ?_⟩
  · obtain ⟨r, hr, hanswer, -⟩ := hrecord hb
    obtain ⟨r', hr', hanswer', -⟩ := hrecord hb'
    obtain ⟨s, hs⟩ := hpast.exists_before hbefore
    rw [hanswer, hanswer']
    exact hr.stays_hasFired hs hr'
  · constructor
    · rintro ⟨-, hexclusive⟩ hrelapses
      have hne : beats ≠ [] := by
        rintro rfl
        exact hrelapses.1 rfl
      obtain ⟨b, hb, htallies⟩ := htallied.exists_last hne
      obtain ⟨r, hr, hanswer, hanswer'⟩ := hrecord htallies
      refine hexclusive b hb ?_
      rw [hanswer, hanswer', ← hr.relapses_iff]
      exact hrelapses
    · intro hrelapses
      have hnever {sofar : List Schedule.Turn} (hbefore : sofar <+: Beat.turns beats) :
          ¬ Schedule.Relapses i sofar := by
        obtain ⟨later, hlater⟩ := hbefore
        rw [← hlater] at hrelapses
        exact fun h => hrelapses (h.append later)
      refine ⟨List.pairwise_map.2 (htallied.pairwise fun b b' sofar later hbefore hb hb' => ?_),
        fun b hb => ?_⟩
      · obtain ⟨r, hr, -, hanswer⟩ := hrecord hb
        obtain ⟨r', hr', -, hanswer'⟩ := hrecord hb'
        obtain ⟨s, hs⟩ := hpast.exists_before hbefore
        rw [hanswer, hanswer']
        exact hr.stays_isOver hs hr' (hnever hbefore)
      · obtain ⟨sofar, -, hbefore, htallies⟩ := htallied.exists_before b hb
        obtain ⟨r, hr, hanswer, hanswer'⟩ := hrecord htallies
        rw [hanswer, hanswer', ← hr.relapses_iff]
        exact hnever hbefore

namespace Curfew

/-- A mission with an event that fires as long as it is early, so many times at most. -/
def definition (repeats : Int) : Definition :=
  ⟨"Curfew", [], [⟨"Curfew", "(not (has-time-elapsed 5))", repeats, 0, 0, none, 0, none⟩], []⟩

def game : Simulation :=
  .start ⟨[], []⟩ (.rolls [])

/-- The game at two ticks, five seconds apart. -/
def games (r : Run) : List Simulation :=
  [game, (r.tick game).host.setTime 5]

theorem time_games (r : Run) : (games r).map Host.time = [0, 5] := by
  rw [games, List.map_cons, List.map_singleton]
  rfl

/-- Asking about the event. -/
def fired : Node :=
  .application (.query .isEventTrue) [.atom (.text "curfew") 0]

def ended : Node :=
  .application (.query .isEventFalse) [.atom (.text "curfew") 0]

/-- Both answers at a moment. -/
def answers (b : Beat Simulation) : Truth × Truth :=
  (b.answer Registry.builtin "report" fired, b.answer Registry.builtin "report" ended)

/-- The answers at all moments of a run. -/
def report (r : Run) : List (Truth × Truth) :=
  (r.along Run.beats (games r)).map answers

theorem answers_ended (r : Run) : (r.along Run.beats (games r)).map
    (·.answer Registry.builtin "report" ended) = (report r).map Prod.snd := by
  simp only [report, answers, List.map_map, Function.comp_def]

/-- The place of the event with how often it may fire, and the report of the run. -/
def flight? (repeats : Int) : Option (Option (Nat × Int) × List (Truth × Truth)) :=
  (Mission.load (definition repeats) Registry.builtin .builtin .empty).toOption.map fun mission =>
    ((mission.schedule.index? "curfew").bind fun i =>
      mission.schedule.events[i]?.map fun e => (i, e.repeats),
      report (Run.start mission Registry.builtin .builtin))

theorem flight?_eq_some {repeats : Int} {place : Option (Nat × Int)} {answers : List (Truth × Truth)}
    (h : flight? repeats = some (place, answers)) : ∃ mission,
      Mission.load (definition repeats) Registry.builtin .builtin .empty = .ok mission ∧
      ((mission.schedule.index? "curfew").bind fun i =>
        mission.schedule.events[i]?.map fun e => (i, e.repeats)) = place ∧
      report (Run.start mission Registry.builtin .builtin) = answers := by
  obtain ⟨mission, hload, hpair⟩ := Option.map_eq_some_iff.1 h
  obtain ⟨hplace, hreport⟩ := Prod.mk.inj hpair
  exact ⟨mission, toOption_eq_some_iff.1 hload, hplace, hreport⟩

end Curfew

open Curfew in
/-- An event that fires once: it has fired, and so it is not over. -/
theorem Run.answers_stay_curfew : ∃ mission r,
    Mission.load (definition 1) Registry.builtin .builtin .empty = .ok mission ∧
    r = Run.start mission Registry.builtin .builtin ∧
    report r = (.falseNow, .falseNow) :: List.replicate 5 (.knownTrue, .knownFalse) ∧
    ((r.along beats (games r)).map (·.answer Registry.builtin "report" fired)).Pairwise Truth.Stays ∧
    ((r.along beats (games r)).map (·.answer Registry.builtin "report" ended)).Pairwise Truth.Stays ∧
    ∀ b ∈ r.along beats (games r), ¬ ((b.answer Registry.builtin "report" fired).isTrue = true ∧
      (b.answer Registry.builtin "report" ended).isTrue = true) := by
  have hflight : flight? 1 = some (some (0, 1),
      (.falseNow, .falseNow) :: List.replicate 5 (.knownTrue, .knownFalse)) := by decide +kernel
  obtain ⟨mission, hload, hplace, hreport⟩ := flight?_eq_some hflight
  obtain ⟨i, hi, hevent⟩ := Option.bind_eq_some_iff.1 hplace
  obtain ⟨e, he, hpair⟩ := Option.map_eq_some_iff.1 hevent
  obtain ⟨rfl, honce⟩ := Prod.mk.inj hpair
  have hrelapses := not_relapses hload he (by rw [honce]; decide) honce.le Registry.builtin .builtin
    (games (Run.start mission Registry.builtin .builtin))
  obtain ⟨hstays, hiff⟩ := answers_stay_iff hload hi
    (Node.applies_application (.query .isEventTrue) [.atom (.text "curfew") 0])
    (Node.applies_application (.query .isEventFalse) [.atom (.text "curfew") 0]) "report"
    (games (Run.start mission Registry.builtin .builtin))
    (Eq.refl ((Run.start mission Registry.builtin .builtin).along beats (games _)))
  exact ⟨mission, _, hload, rfl, hreport, hstays, hiff.2 hrelapses⟩

open Curfew in
/-- An event that may fire again: five seconds later it has fired and is over. -/
theorem Run.answers_not_stay_curfew : ∃ mission r,
    Mission.load (definition (-1)) Registry.builtin .builtin .empty = .ok mission ∧
    r = Run.start mission Registry.builtin .builtin ∧
    (games r).map Host.time = [0, 5] ∧
    ¬ ((r.along beats (games r)).map (·.answer Registry.builtin "report" ended)).Pairwise Truth.Stays ∧
    ∃ b ∈ r.along beats (games r), (b.answer Registry.builtin "report" fired).isTrue = true ∧
      (b.answer Registry.builtin "report" ended).isTrue = true := by
  have hflight : flight? (-1) = some (some (0, -1), [(.falseNow, .falseNow),
      (.knownTrue, .knownFalse), (.knownTrue, .knownFalse), (.knownTrue, .knownFalse),
      (.knownTrue, .knownTrue), (.knownTrue, .knownTrue)]) := by decide +kernel
  obtain ⟨mission, hload, -, hreport⟩ := flight?_eq_some hflight
  refine ⟨mission, _, hload, rfl, time_games _, ?_, ?_⟩
  · rw [answers_ended, hreport]
    decide
  · have hboth : (.knownTrue, .knownTrue) ∈ report (Run.start mission Registry.builtin .builtin) := by
      rw [hreport]
      simp
    obtain ⟨b, hb, hanswers⟩ := List.mem_map.1 hboth
    obtain ⟨hfired, hended⟩ := Prod.mk.inj hanswers
    exact ⟨b, hb, by rw [hfired]; rfl, by rw [hended]; rfl⟩

end MissionScript

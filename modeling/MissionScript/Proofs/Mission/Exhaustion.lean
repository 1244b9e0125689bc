import MissionScript.Proofs.Mission.Answers

/-!
Events that are exhausted without ever having fired. Either the formula of the event was false for
good, and then its record says that it never fires; or the event may not fire at all, and then its
formula is never evaluated and nothing is entered into its record.
-/

namespace MissionScript

namespace Event

variable {e : Event} {turns : List Schedule.Turn}

/-- Whether an event is exhausted for a reason, given the turns in which it was evaluated. -/
structure HasReason (e : Event) (turns : List Schedule.Turn) : Prop where
  /-- an event that may not fire at all is never evaluated -/
  untried : e.repeats = 0 → turns = []
  /-- it has fired as often as it may, or its formula was false for good -/
  reason : e.state = .exhausted → e.isSpent = true ∨ ∃ t ∈ turns, t.reading = some .knownFalse

/-- An event that may not fire at all has done so as often as it may. -/
theorem isSpent_of_repeats_eq_zero (h : e.repeats = 0) : e.isSpent = true :=
  isSpent_iff.2 ⟨h.ge, h ▸ Int.natCast_nonneg e.triggers⟩

/-- An event that is evaluated is exhausted only if it fires for the last time or its formula is
    false for good. -/
theorem HasReason.read {t : Schedule.Turn} {isOpened : Bool} {reading : Truth}
    (hplan : e.plan isOpened t.now = .evaluate) (hreading : t.reading = some reading) :
    (e.turned t.now (some reading)).HasReason (turns ++ [t]) := by
  obtain ⟨hstate, hspent, -⟩ := plan_eq_evaluate_iff.1 hplan
  refine ⟨fun hnone => ?_, fun hexhausted => ?_⟩
  · rw [turned, (leads_settle hstate t.now reading).repeats] at hnone
    rw [isSpent_of_repeats_eq_zero hnone] at hspent
    cases hspent
  · cases reading with
    | trueNow | knownTrue =>
      left
      rw [turned, settle, fire_eq] at hexhausted ⊢
      by_contra hroom
      rw [isSpent_iff] at hroom
      exact EventState.noConfusion ((if_neg hroom).symm.trans hexhausted)
    | knownFalse => exact Or.inr ⟨t, by simp, hreading⟩
    | falseNow | unknown => cases hexhausted

theorem isInvariant_hasReason : IsInvariant HasReason where
  new e h := by
    refine ⟨fun _ => rfl, fun hexhausted => ?_⟩
    rw [h.state] at hexhausted
    cases hexhausted
  chained _ _ _ h := ⟨h.untried, h.reason⟩
  unread e turns now h := by
    rw [turned]
    split
    · next hspent => exact ⟨h.untried, fun _ => Or.inl hspent⟩
    · exact h
  read _ _ _ _ _ _ hplan hreading := .read hplan hreading

/-- So the formula of an event that is exhausted without having fired was false for good, unless the
    event may not fire at all. -/
theorem HasReason.settled_iff (h : e.HasReason turns) (hstate : e.state = .exhausted)
    (hunfired : e.triggers = 0) :
    (∃ t ∈ turns, t.reading = some .knownFalse) ↔ e.repeats ≠ 0 := by
  constructor
  · rintro ⟨t, ht, -⟩ hnone
    rw [h.untried hnone] at ht
    cases ht
  · intro hsome
    refine (h.reason hstate).resolve_left fun hspent => ?_
    have hroom := isSpent_iff.1 hspent
    omega

end Event

/-- The record of an event that is exhausted without having fired, from then on. -/
theorem EventRecord.Tallies.unfired {r : EventRecord} {s s' : Schedule} {i : Nat} {e : Event}
    {turns sofar turns' : List Schedule.Turn} (hr : r.Tallies (Schedule.evaluations i sofar))
    (hpast : s.Past turns) (hpast' : s'.Past turns') (hleads : s.Leads s')
    (hbefore : turns <+: sofar) (hafter : sofar <+: turns') (hi : s.events[i]? = some e)
    (hstate : e.state = .exhausted) (hunfired : e.triggers = 0) :
    r.triggers = 0 ∧ (r.neverFires = true ↔ e.repeats ≠ 0) := by
  obtain ⟨e', hi', hlead⟩ := hleads i e hi
  obtain ⟨hstate', htriggers', -⟩ := hlead.exhausted hstate
  have hearlier : Schedule.evaluations i turns <+: Schedule.evaluations i sofar := hbefore.filter _
  have hlater : Schedule.evaluations i sofar <+: Schedule.evaluations i turns' := hafter.filter _
  constructor
  · have hnone := (hpast'.recounts i e' hi').triggers
    rw [htriggers', hunfired] at hnone
    have hle := (hlater.filter (·.fires)).length_le
    rw [← hnone, ← hr.triggers] at hle
    exact Nat.le_zero.1 hle
  · -- what was read by then has been read since, and nothing is read that was not read at the end
    have hfirst := (hpast.each Event.isInvariant_hasReason i e hi).settled_iff hstate hunfired
    have hlast := (hpast'.each Event.isInvariant_hasReason i e' hi').settled_iff hstate'
      (htriggers'.trans hunfired)
    rw [hlead.repeats] at hlast
    rw [hr.never]
    constructor
    · rintro ⟨t, ht, hreading⟩
      exact hlast.1 ⟨t, hlater.subset ht, hreading⟩
    · intro hsome
      obtain ⟨t, ht, hreading⟩ := hfirst.2 hsome
      exact ⟨t, hearlier.subset ht, hreading⟩

namespace EventRecord

variable {r : EventRecord}

theorem hasFired_of_unfired (h : r.triggers = 0) :
    r.hasFired = if r.neverFires then .knownFalse else .falseNow := by
  rw [hasFired, if_neg (by omega)]

theorem isOver_of_unfired (h : r.triggers = 0) :
    r.isOver = if r.neverFires then .knownTrue else .falseNow := by
  rw [isOver, if_neg (by omega : ¬ 0 < r.triggers)]

end EventRecord

/-- Whether an event that is exhausted without having fired is known never to fire. At any point of the
    course of a loaded mission its record says so exactly if it might have fired, that is, unless it
    has been declared with no repetitions at all. Accordingly, from then on formulas are told at every
    moment that it never fires and is over, or else only that it has not fired and is not over yet. -/
theorem Run.exhausted_unfired_iff {H : Type} [Host H] {definition : Definition}
    {loader registry : Registry} {settings settings' : Settings} {saved : Snapshot} {mission : Mission}
    (hload : Mission.load definition loader settings saved = .ok mission) (hosts : List H) {r : Run}
    (hr : r = (Run.start mission registry settings').after hosts) {e : Event}
    (he : e ∈ r.mission.schedule.events) (hstate : e.state = .exhausted) (hunfired : e.triggers = 0)
    {name : String} (hname : sameName e.name name) :
    (∃ record, r.mission.ledger.event? name = some record ∧
      (record.neverFires = true ↔ e.repeats ≠ 0)) ∧
    ∀ (fired ended : Node) (offset offset' : Nat),
      fired.Applies registry (.query .isEventTrue) [.atom (.text name) offset] →
      ended.Applies registry (.query .isEventFalse) [.atom (.text name) offset'] →
      ∀ (later : List H) (b : Beat H), b ∈ r.along Run.beats later → ∀ formula : String,
        (b.answer registry formula fired, b.answer registry formula ended) =
          if e.repeats = 0 then (.falseNow, .falseNow) else (.knownFalse, .knownTrue) := by
  obtain ⟨hdistinct, hstart⟩ := Mission.recalls_load hload registry settings'
  have hrecalls := (hstart.along hdistinct hosts).2
  rw [← hr, List.nil_append] at hrecalls
  obtain ⟨i, hi⟩ := List.mem_iff_getElem?.1 he
  -- the record of the event is the one that is found under the name
  have hrecord {l : Ledger} {sofar : List Schedule.Turn}
      (hl : l.Tallies mission.schedule.names sofar) : ∃ record, l.event? name = some record ∧
        record.Tallies (Schedule.evaluations i sofar) := by
    have hplace : mission.schedule.names[i]? = some e.name := by
      rw [← hrecalls.names_eq, Schedule.names, List.getElem?_map, hi, Option.map_some]
    obtain ⟨record, hrecord, htallies⟩ := hl i e.name hplace
    refine ⟨record, ?_, htallies⟩
    rw [Ledger.event?, ← sameName_iff.1 hname]
    exact hrecord
  constructor
  · obtain ⟨record, hfound, htallies⟩ := hrecord hrecalls.tallies
    have hunfired' := htallies.unfired hrecalls.past hrecalls.past (.refl _) (List.prefix_refl _)
      (List.prefix_refl _) hi hstate hunfired
    exact ⟨record, hfound, hunfired'.2⟩
  · intro fired ended offset offset' hfired hended later b hb formula
    obtain ⟨htallied, hend⟩ := hrecalls.along hdistinct later
    obtain ⟨sofar, hbefore, hafter, hl⟩ := htallied.exists_before b hb
    obtain ⟨record, hfound, htallies⟩ := hrecord hl
    obtain ⟨hnone, hnever⟩ := htallies.unfired hrecalls.past hend.past (r.leads_after later) hbefore
      hafter hi hstate hunfired
    rw [Beat.answer_hasFired hfired hfound, Beat.answer_isOver hended hfound,
      EventRecord.hasFired_of_unfired hnone, EventRecord.isOver_of_unfired hnone]
    by_cases hrepeats : e.repeats = 0
    · have hfalse : ¬ record.neverFires = true := fun h => hnever.1 h hrepeats
      rw [if_neg hfalse, if_neg hfalse, if_pos hrepeats]
    · have htrue := hnever.2 hrepeats
      rw [if_pos htrue, if_pos htrue, if_neg hrepeats]

namespace Sentry

/-- A mission with an event of this formula that fires so many times at most. -/
def definition (formula : String) (repeats : Int) : Definition :=
  ⟨"Sentry", [], [⟨"Sentry", formula, repeats, 0, 0, none, 0, none⟩], []⟩

def game : Simulation :=
  .start ⟨[], []⟩ (.rolls [])

/-- Asking about the event. -/
def fired : Node :=
  .application (.query .isEventTrue) [.atom (.text "sentry") 0]

def ended : Node :=
  .application (.query .isEventFalse) [.atom (.text "sentry") 0]

/-- The run after a first tick. -/
def ticked (mission : Mission) : Run :=
  (Run.start mission Registry.builtin .builtin).after [game]

/-- Both answers at all moments of another tick. -/
def report (r : Run) : List (Truth × Truth) :=
  (r.along Run.beats [game]).map fun b =>
    (b.answer Registry.builtin "report" fired, b.answer Registry.builtin "report" ended)

/-- What has become of an event. -/
structure Fate where
  name : String
  repeats : Int
  state : EventState
  triggers : Nat
  deriving DecidableEq

def fate (e : Event) : Fate :=
  ⟨e.name, e.repeats, e.state, e.triggers⟩

/-- The events after the first tick, whether the record says that the event never fires, and the
    report of the second tick. -/
def watch? (formula : String) (repeats : Int) :
    Option (List Fate × Option Bool × List (Truth × Truth)) :=
  (Mission.load (definition formula repeats) Registry.builtin .builtin .empty).toOption.map
    fun mission =>
      let r := ticked mission
      (r.mission.schedule.events.map fate,
        (r.mission.ledger.event? "sentry").map (·.neverFires), report r)

theorem watch?_eq_some {formula : String} {repeats : Int} {fates : List Fate} {never : Option Bool}
    {answers : List (Truth × Truth)} (h : watch? formula repeats = some (fates, never, answers)) :
    ∃ mission,
      Mission.load (definition formula repeats) Registry.builtin .builtin .empty = .ok mission ∧
      (ticked mission).mission.schedule.events.map fate = fates ∧
      ((ticked mission).mission.ledger.event? "sentry").map (·.neverFires) = never ∧
      report (ticked mission) = answers := by
  obtain ⟨mission, hload, htriple⟩ := Option.map_eq_some_iff.1 h
  obtain ⟨hfates, hrest⟩ := Prod.mk.inj htriple
  obtain ⟨hnever, hreport⟩ := Prod.mk.inj hrest
  exact ⟨mission, toOption_eq_some_iff.1 hload, hfates, hnever, hreport⟩

end Sentry

open Sentry in
/-- The sentry waits for what can never be. It is exhausted in the first tick, and from then on
    everybody is told that it never fires. -/
theorem Run.exhausted_unfired_iff_sentry : ∃ mission e,
    Mission.load (definition "(false)" 1) Registry.builtin .builtin .empty = .ok mission ∧
    e ∈ (ticked mission).mission.schedule.events ∧ e.state = .exhausted ∧ e.triggers = 0 ∧
    (∃ record, (ticked mission).mission.ledger.event? "sentry" = some record ∧
      record.neverFires = true) ∧
    ∀ b ∈ (ticked mission).along beats [game],
      (b.answer Registry.builtin "report" fired, b.answer Registry.builtin "report" ended) =
        (.knownFalse, .knownTrue) := by
  have hwatch : watch? "(false)" 1 = some ([⟨"Sentry", 1, .exhausted, 0⟩], some true,
      List.replicate 3 (.knownFalse, .knownTrue)) := by
    simp only [watch?, ticked, report, Registry.builtin_eq]
    decide +kernel
  obtain ⟨mission, hload, hfates, -, -⟩ := watch?_eq_some hwatch
  obtain ⟨e, hevents, hfate⟩ := List.map_eq_singleton_iff.1 hfates
  obtain ⟨hname, hrepeats, hexhausted, hunfired⟩ := Fate.mk.inj hfate
  have he : e ∈ (ticked mission).mission.schedule.events := by
    rw [hevents]
    exact List.mem_singleton_self e
  have hsame : sameName e.name "sentry" := by
    rw [hname]
    decide +kernel
  obtain ⟨⟨record, hrecord, hnever⟩, hanswers⟩ :=
    exhausted_unfired_iff hload [game] (Eq.refl (ticked mission)) he hexhausted hunfired hsame
  rw [hrepeats] at hnever hanswers
  refine ⟨mission, e, hload, he, hexhausted, hunfired, ⟨record, hrecord, hnever.2 (by decide)⟩, ?_⟩
  exact fun b hb => hanswers fired ended 0 0 (Node.applies_application _ _)
    (Node.applies_application _ _) [game] b hb "report"

open Sentry in
/-- The sentry may not fire at all. It is exhausted in the first tick as well, but nobody is ever told
    that it never fires. -/
theorem Run.exhausted_unfired_untold : ∃ mission e,
    Mission.load (definition "(true)" 0) Registry.builtin .builtin .empty = .ok mission ∧
    e ∈ (ticked mission).mission.schedule.events ∧ e.state = .exhausted ∧ e.triggers = 0 ∧
    (∃ record, (ticked mission).mission.ledger.event? "sentry" = some record ∧
      record.neverFires = false) ∧
    ∀ b ∈ (ticked mission).along beats [game],
      (b.answer Registry.builtin "report" fired, b.answer Registry.builtin "report" ended) =
        (.falseNow, .falseNow) := by
  have hwatch : watch? "(true)" 0 = some ([⟨"Sentry", 0, .exhausted, 0⟩], some false,
      List.replicate 3 (.falseNow, .falseNow)) := by
    simp only [watch?, ticked, report, Registry.builtin_eq]
    decide +kernel
  obtain ⟨mission, hload, hfates, hnever, hreport⟩ := watch?_eq_some hwatch
  obtain ⟨e, hevents, hfate⟩ := List.map_eq_singleton_iff.1 hfates
  obtain ⟨-, -, hexhausted, hunfired⟩ := Fate.mk.inj hfate
  refine ⟨mission, e, hload, ?_, hexhausted, hunfired, Option.map_eq_some_iff.1 hnever, ?_⟩
  · rw [hevents]
    exact List.mem_singleton_self e
  · intro b hb
    refine List.eq_of_mem_replicate (n := 3) ?_
    rw [← hreport]
    exact List.mem_map.2 ⟨b, hb, rfl⟩

end MissionScript

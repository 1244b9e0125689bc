import MissionScript.Proofs.Event.Turn
import Mathlib.Data.List.Chain
import Mathlib.Data.List.Nodup

/-!
Histories of schedules: events are added, made to wait for each other, and ticked. Everything that is
true of the events at some point follows from what one turn does to what has been true before it.
-/

namespace MissionScript

namespace Event

/-- An event that has not had any turn and waits for nothing. -/
structure IsNew (e : Event) : Prop where
  triggers : e.triggers = 0
  last : e.last = none
  state : e.state = .armed
  chain : e.chain = none

/-- Whether an event fits the turns in which it was evaluated. -/
structure Tallies (e : Event) (turns : List Schedule.Turn) : Prop where
  triggers : e.triggers = (turns.filter (·.fires)).length
  last : e.last = (turns.filter (·.fires)).getLast?.map (·.now)
  /-- it fired when it was last evaluated -/
  fired : e.state = .fired → ∃ t ∈ turns.getLast?, t.fires = true
  bounded : 0 ≤ e.repeats → e.triggers ≤ e.repeats
  /-- it has waited out its interval between any two times that it fired one after the other -/
  spaced : (turns.filter (·.fires)).IsChain fun t t' => t'.now - t.now ≥ e.interval

theorem IsNew.tallies {e : Event} (h : e.IsNew) : e.Tallies [] := by
  refine ⟨h.triggers, h.last, fun hfired => ?_, fun hrepeats => ?_, .nil⟩
  · rw [h.state] at hfired
    cases hfired
  · rw [h.triggers]
    exact hrepeats

theorem Tallies.unread {e : Event} {turns : List Schedule.Turn} (h : e.Tallies turns) (now : Float) :
    (e.turned now none).Tallies turns := by
  rw [turned]
  split
  · exact ⟨h.triggers, h.last, fun hfired => EventState.noConfusion hfired, h.bounded, h.spaced⟩
  · exact h

/-- An event that is evaluated fits the turns up to that one. -/
theorem Tallies.read {e : Event} {turns : List Schedule.Turn} (h : e.Tallies turns)
    {t : Schedule.Turn} {isOpened : Bool} (hplan : e.plan isOpened t.now = .evaluate)
    {reading : Truth} (hreading : t.reading = some reading) :
    (e.turned t.now (some reading)).Tallies (turns ++ [t]) := by
  obtain ⟨-, hspent, hwaited, -⟩ := plan_eq_evaluate_iff.1 hplan
  have hfires : t.fires = reading.isTrue := by rw [Schedule.Turn.fires, hreading, Option.any_some]
  cases htrue : reading.isTrue with
  | false =>
    have hfilter : (turns ++ [t]).filter (·.fires) = turns.filter (·.fires) := by
      simp [hfires, htrue]
    cases reading with
    | trueNow | knownTrue => cases htrue
    | knownFalse | falseNow | unknown =>
      refine ⟨?_, ?_, nofun, h.bounded, ?_⟩
      · rw [hfilter]
        exact h.triggers
      · rw [hfilter]
        exact h.last
      · rw [hfilter]
        exact h.spaced
  | true =>
    have hfilter : (turns ++ [t]).filter (·.fires) = turns.filter (·.fires) ++ [t] := by
      simp [hfires, htrue]
    have hfire : e.turned t.now (some reading) = e.fire t.now := by
      cases reading with
      | trueNow | knownTrue => rfl
      | knownFalse | falseNow | unknown => cases htrue
    rw [hfire, fire_eq]
    refine ⟨?_, ?_, fun _ => ⟨t, by simp, by rw [hfires, htrue]⟩, fun hrepeats => ?_, ?_⟩
    · rw [hfilter, List.length_append, ← h.triggers, List.length_singleton]
    · rw [hfilter, List.getLast?_concat, Option.map_some]
    · have hroom : ¬ e.isSpent = true := by simp [hspent]
      rw [isSpent_iff] at hroom
      dsimp only at hrepeats ⊢
      omega
    · rw [hfilter, List.isChain_append]
      refine ⟨h.spaced, .singleton t, fun t₀ ht₀ t' ht' => ?_⟩
      obtain rfl : t = t' := by simpa using ht'
      have hlast : e.last = some t₀.now := by rw [h.last, ht₀, Option.map_some]
      rw [hasWaited, hlast, Option.all_some, decide_eq_true_eq] at hwaited
      exact hwaited

/-- Whether what relates an event to the turns in which it was evaluated is an invariant: it holds of
    new events, whatever they are made to wait for, and every turn keeps it. -/
structure IsInvariant (P : Event → List Schedule.Turn → Prop) : Prop where
  new : ∀ e, e.IsNew → P e []
  chained : ∀ e turns link, P e turns → P { e with chain := link } turns
  unread : ∀ e turns now, P e turns → P (e.turned now none) turns
  read : ∀ e turns (t : Schedule.Turn) isOpened reading, P e turns →
    e.plan isOpened t.now = .evaluate → t.reading = some reading →
    P (e.turned t.now (some reading)) (turns ++ [t])

theorem isInvariant_tallies : IsInvariant Tallies where
  new _ h := h.tallies
  chained _ _ _ h := ⟨h.triggers, h.last, h.fired, h.bounded, h.spaced⟩
  unread _ _ now h := h.unread now
  read _ _ _ _ _ h hplan hreading := h.read hplan hreading

end Event

namespace Schedule

/-- The turns in which the event at a place was evaluated. -/
def evaluations (i : Nat) (turns : List Turn) : List Turn :=
  turns.filter fun t => t.place == i && t.reading.isSome

/-- The turns in which the event at a place fired. -/
def firings (i : Nat) (turns : List Turn) : List Turn :=
  (evaluations i turns).filter (·.fires)

/-- Whether something holds of every event and the turns in which it was evaluated. -/
def Each (P : Event → List Turn → Prop) (s : Schedule) (turns : List Turn) : Prop :=
  ∀ (i : Nat) (e : Event), s.events[i]? = some e → P e (evaluations i turns)

/-- Whether every event fits the turns so far. -/
def Recounts (s : Schedule) (turns : List Turn) : Prop :=
  ∀ (i : Nat) (e : Event), s.events[i]? = some e → e.Tallies (evaluations i turns)

/-- Whether a schedule can become another one. Events keep their places. -/
def Leads (s s' : Schedule) : Prop :=
  ∀ (i : Nat) (e : Event), s.events[i]? = some e → ∃ e', s'.events[i]? = some e' ∧ e.Leads e'

/-- Whether every event that waits for another one waits for an event of that name. -/
def IsLinked (s : Schedule) : Prop :=
  ∀ (i : Nat) (e : Event) (link : ChainLink), s.events[i]? = some e → e.chain = some link →
    ∃ p, s.events[link.index]? = some p ∧ p.name = link.predecessor

theorem Leads.refl (s : Schedule) : s.Leads s :=
  fun _ e h => ⟨e, h, .refl e⟩

theorem Leads.trans {s₁ s₂ s₃ : Schedule} (h₁₂ : s₁.Leads s₂) (h₂₃ : s₂.Leads s₃) : s₁.Leads s₃ := by
  intro i e hi
  obtain ⟨e₂, hi₂, hlead₂⟩ := h₁₂ i e hi
  obtain ⟨e₃, hi₃, hlead₃⟩ := h₂₃ i e₂ hi₂
  exact ⟨e₃, hi₃, hlead₂.trans hlead₃⟩

theorem add_eq_ok {s s' : Schedule} {e : Event} (h : s.add e = .ok s') : s' = ⟨s.events ++ [e]⟩ := by
  unfold add at h
  split at h
  · cases h
  · exact (Except.ok.inj h).symm

/-- An event that is made to wait gets a link to the event of the other name. -/
theorem chainAfter_eq_ok {s s' : Schedule} {event predecessor : String}
    (h : s.chainAfter event predecessor = .ok s') :
    ∃ i j p, s.index? event = some i ∧ s.index? predecessor = some j ∧ s.events[j]? = some p ∧
      s' = ⟨s.events.modify i ({ · with chain := some ⟨p.name, j⟩ })⟩ := by
  unfold chainAfter at h
  split at h
  · next i j hi hj =>
    split at h
    · cases h
    · split at h
      · cases h
      · obtain ⟨hlt, -⟩ := List.findIdx?_eq_some_iff_getElem.1 hj
        have hp := List.getElem?_eq_getElem hlt
        rw [hp, Option.map_some] at h
        exact ⟨i, j, _, hi, hj, hp, (Except.ok.inj h).symm⟩
  · cases h

/-- The event at a place after one event has been changed. -/
theorem getElem?_modify_eq_some {events : List Event} {i j : Nat} {f : Event → Event} {e' : Event} :
    (events.modify i f)[j]? = some e' ↔
      ∃ e, events[j]? = some e ∧ e' = if i = j then f e else e := by
  rw [List.getElem?_modify]
  cases events[j]? <;> simp [eq_comm]

/-- Changing an event keeps what the change keeps about every event. -/
theorem map_modify_eq {α : Type} {f : Event → α} {g : Event → Event} (hg : ∀ e, f (g e) = f e)
    (events : List Event) (i : Nat) : (events.modify i g).map f = events.map f := by
  refine List.ext_getElem? fun k => ?_
  rw [List.getElem?_map, List.getElem?_map, List.getElem?_modify]
  cases events[k]? with
  | none => rfl
  | some e =>
    rw [Option.map_eq_map, Option.map_some, Option.map_some, Option.map_some]
    split
    · rw [hg]
    · rfl

theorem leads_modify {s : Schedule} {i : Nat} {f : Event → Event}
    (h : ∀ e, s.events[i]? = some e → e.Leads (f e)) : s.Leads ⟨s.events.modify i f⟩ := by
  intro j e hj
  refine ⟨if i = j then f e else e, getElem?_modify_eq_some.2 ⟨e, hj, rfl⟩, ?_⟩
  split
  · next hij => exact h e (hij ▸ hj)
  · exact .refl e

section

variable {s s' : Schedule} {e : Event} {turns : List Turn} {event predecessor : String} {t : Turn}

theorem leads_add (h : s.add e = .ok s') : s.Leads s' := by
  rw [add_eq_ok h]
  exact fun i e' hi => ⟨e', List.getElem?_append_left (List.getElem?_eq_some_iff.1 hi).1 ▸ hi, .refl e'⟩

theorem leads_chainAfter (h : s.chainAfter event predecessor = .ok s') : s.Leads s' := by
  obtain ⟨i, j, p, -, -, -, rfl⟩ := chainAfter_eq_ok h
  exact leads_modify fun e _ => ⟨rfl, rfl, rfl, rfl, fun hstate => ⟨hstate, rfl, rfl⟩⟩

/-- Every turn leads on. -/
theorem Turn.IsSound.leads (ht : t.IsSound) : t.before.Leads t.after := by
  obtain ⟨hafter, hevaluates⟩ := ht
  rw [hafter]
  refine leads_modify fun e hi => ?_
  cases hreading : t.reading with
  | none => exact e.leads_unread t.now
  | some reading =>
    obtain ⟨e', hi', hplan⟩ := hevaluates (by rw [hreading]; rfl)
    obtain rfl := Option.some.inj (hi.symm.trans hi')
    exact Event.leads_settle (Event.plan_eq_evaluate_iff.1 hplan).1 t.now reading

theorem evaluations_concat (i : Nat) (turns : List Turn) (t : Turn) :
    evaluations i (turns ++ [t]) =
      evaluations i turns ++ if t.place = i ∧ t.reading.isSome = true then [t] else [] := by
  simp [evaluations, List.filter_append, List.filter_cons]

variable {P : Event → List Turn → Prop}

theorem each_add (hP : Event.IsInvariant P) (hadd : s.add e = .ok s') (he : e.IsNew)
    (h : s.Each P turns)
    (hplaces : ∀ t ∈ turns, t.reading.isSome = true → t.place < s.events.length) :
    s'.Each P turns := by
  rw [add_eq_ok hadd]
  intro i e' hi
  rw [List.getElem?_append] at hi
  split at hi
  · exact h i e' hi
  · next hlength =>
    obtain ⟨hindex, rfl⟩ : i - s.events.length = 0 ∧ e = e' := by
      rw [List.getElem?_singleton] at hi
      split at hi
      · next hindex => exact ⟨hindex, Option.some.inj hi⟩
      · cases hi
    have hnone : evaluations i turns = [] := by
      refine List.filter_eq_nil_iff.2 fun t ht hread => ?_
      simp only [Bool.and_eq_true, beq_iff_eq] at hread
      have hplace := hplaces t ht hread.2
      omega
    rw [hnone]
    exact hP.new e he

theorem each_chainAfter (hP : Event.IsInvariant P) (hchain : s.chainAfter event predecessor = .ok s')
    (h : s.Each P turns) : s'.Each P turns := by
  obtain ⟨i, j, p, -, -, -, rfl⟩ := chainAfter_eq_ok hchain
  intro k e' hk'
  obtain ⟨e, hk, rfl⟩ := getElem?_modify_eq_some.1 hk'
  have he := h k e hk
  split
  · exact hP.chained e _ _ he
  · exact he

/-- A turn keeps an invariant for the event at its place, and for the others nothing changes. -/
theorem Turn.IsSound.each (hP : Event.IsInvariant P) (ht : t.IsSound) (h : t.before.Each P turns) :
    t.after.Each P (turns ++ [t]) := by
  obtain ⟨hafter, hevaluates⟩ := ht
  rw [hafter]
  intro i e' hi'
  obtain ⟨e, hi, rfl⟩ := getElem?_modify_eq_some.1 hi'
  have he := h i e hi
  rw [evaluations_concat]
  by_cases hplace : t.place = i
  · rw [if_pos hplace]
    cases hreading : t.reading with
    | none =>
      rw [if_neg (by simp), List.append_nil]
      exact hP.unread e _ t.now he
    | some reading =>
      obtain ⟨e', he', hplan⟩ := hevaluates (by rw [hreading]; rfl)
      obtain rfl := Option.some.inj (hi.symm.trans (hplace ▸ he'))
      rw [if_pos ⟨hplace, rfl⟩]
      exact hP.read e _ t _ reading he hplan hreading
  · rw [if_neg hplace, if_neg (fun h => hplace h.1), List.append_nil]
    exact he

/-- After its turn an event fits the turns up to that one, and the others fit as before. -/
theorem Turn.IsSound.recounts (ht : t.IsSound) (h : t.before.Recounts turns) :
    t.after.Recounts (turns ++ [t]) :=
  ht.each Event.isInvariant_tallies h

theorem isLinked_add (hadd : s.add e = .ok s') (he : e.chain = none) (h : s.IsLinked) :
    s'.IsLinked := by
  rw [add_eq_ok hadd]
  intro i e' link hi hlink
  rw [List.getElem?_append] at hi
  split at hi
  · obtain ⟨p, hp, hname⟩ := h i e' link hi hlink
    exact ⟨p, (List.getElem?_append_left (List.getElem?_eq_some_iff.1 hp).1).trans hp, hname⟩
  · obtain rfl := List.mem_singleton.1 (List.mem_of_getElem? hi)
    rw [he] at hlink
    cases hlink

/-- Links stay right as long as events keep their names and get no other links. -/
theorem isLinked_modify {i : Nat} {f : Event → Event} (hname : ∀ e, (f e).name = e.name)
    (hlinks : ∀ e link, s.events[i]? = some e → (f e).chain = some link →
      ∃ p, s.events[link.index]? = some p ∧ p.name = link.predecessor) (h : s.IsLinked) :
    IsLinked ⟨s.events.modify i f⟩ := by
  intro k e' link hk' hlink
  obtain ⟨e, hk, rfl⟩ := getElem?_modify_eq_some.1 hk'
  obtain ⟨p, hp, hpredecessor⟩ : ∃ p, s.events[link.index]? = some p ∧ p.name = link.predecessor := by
    split at hlink
    · next hik => exact hlinks e link (hik ▸ hk) hlink
    · exact h k e link hk hlink
  refine ⟨_, getElem?_modify_eq_some.2 ⟨p, hp, rfl⟩, ?_⟩
  split
  · exact (hname p).trans hpredecessor
  · exact hpredecessor

theorem isLinked_chainAfter (hchain : s.chainAfter event predecessor = .ok s') (h : s.IsLinked) :
    s'.IsLinked := by
  obtain ⟨i, j, p, -, -, hp, rfl⟩ := chainAfter_eq_ok hchain
  refine isLinked_modify (fun _ => rfl) (fun e link _ hlink => ?_) h
  cases hlink
  exact ⟨p, hp, rfl⟩

theorem Turn.IsSound.isLinked (ht : t.IsSound) (h : t.before.IsLinked) : t.after.IsLinked := by
  rw [ht.after_eq]
  exact isLinked_modify (fun e => (e.turned_name_chain t.now t.reading).1)
    (fun e link hi hlink =>
      h t.place e link hi ((e.turned_name_chain t.now t.reading).2 ▸ hlink)) h

end

/-- What has come of a schedule, and all turns that it has gone through. -/
inductive Past : Schedule → List Turn → Prop where
  | empty : Past .empty []
  | add {s s' : Schedule} {turns : List Turn} {e : Event} (h : Past s turns) (he : e.IsNew)
    (hadd : s.add e = .ok s') : Past s' turns
  | chain {s s' : Schedule} {turns : List Turn} {event predecessor : String} (h : Past s turns)
    (hchain : s.chainAfter event predecessor = .ok s') : Past s' turns
  | turn {t : Turn} {turns : List Turn} (h : Past t.before turns) (ht : t.IsSound) :
    Past t.after (turns ++ [t])

namespace Past

variable {s s' : Schedule} {turns : List Turn}

/-- Every turn has a past of its own. -/
theorem before {t : Turn} {earlier later : List Turn} (h : Past s turns)
    (hturns : turns = earlier ++ t :: later) : Past t.before earlier ∧ t.IsSound := by
  induction h generalizing later with
  | empty => exact absurd hturns (by simp)
  | add _ _ _ ih | chain _ _ ih => exact ih hturns
  | @turn t' turns h ht ih =>
    rcases List.eq_nil_or_concat later with rfl | ⟨later, last, rfl⟩
    · obtain ⟨rfl, hlast⟩ := List.append_inj' hturns rfl
      obtain rfl := (List.cons.inj hlast).1
      exact ⟨h, ht⟩
    · rw [List.concat_eq_append, ← List.cons_append, ← List.append_assoc] at hturns
      exact ih (List.append_inj' hturns rfl).1

theorem leads (h : Past s turns) : ∀ t ∈ turns, t.after.Leads s := by
  induction h with
  | empty => exact fun t ht => absurd ht List.not_mem_nil
  | add _ _ hadd ih => exact fun t ht => (ih t ht).trans (leads_add hadd)
  | chain _ hchain ih => exact fun t ht => (ih t ht).trans (leads_chainAfter hchain)
  | @turn t' turns _ ht' ih =>
    refine List.forall_mem_append.2 ⟨fun t ht => (ih t ht).trans ht'.leads, ?_⟩
    exact List.forall_mem_singleton.2 (.refl t'.after)

theorem isLinked (h : Past s turns) : s.IsLinked := by
  induction h with
  | empty => exact fun i e link hi => absurd hi (by simp [Schedule.empty])
  | add _ he hadd ih => exact isLinked_add hadd he.chain ih
  | chain _ hchain ih => exact isLinked_chainAfter hchain ih
  | turn _ ht ih => exact ht.isLinked ih

/-- Only events that are there are evaluated. -/
theorem place_lt (h : Past s turns) :
    ∀ t ∈ turns, t.reading.isSome = true → t.place < s.events.length := by
  intro t ht hreading
  obtain ⟨earlier, later, rfl⟩ := List.mem_iff_append.1 ht
  have hsound := (h.before rfl).2
  obtain ⟨e, hi, -⟩ := hsound.evaluates hreading
  obtain ⟨e', hi', -⟩ := (hsound.leads.trans (h.leads t ht)) t.place e hi
  exact (List.getElem?_eq_some_iff.1 hi').1

/-- An invariant of events holds of all events of a schedule, whatever it has gone through. -/
theorem each {P : Event → List Turn → Prop} (hP : Event.IsInvariant P) (h : Past s turns) :
    s.Each P turns := by
  induction h with
  | empty => exact fun i e hi => absurd hi (by simp [Schedule.empty])
  | add h he hadd ih => exact each_add hP hadd he ih h.place_lt
  | chain _ hchain ih => exact each_chainAfter hP hchain ih
  | turn _ ht ih => exact ht.each hP ih

theorem recounts (h : Past s turns) : s.Recounts turns :=
  h.each Event.isInvariant_tallies

theorem append {turns' : List Turn} (h : Past s turns) (hturns : Turns s turns' s') :
    Past s' (turns ++ turns') := by
  induction hturns generalizing turns with
  | nil s => rwa [List.append_nil]
  | cons ht _ ih =>
    rw [List.append_cons]
    exact ih (h.turn ht)

end Past

end Schedule

end MissionScript

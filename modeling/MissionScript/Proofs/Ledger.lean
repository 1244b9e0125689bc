import MissionScript.Ledger
import Mathlib.Tactic.Common

/-!
What can become of the records of a ledger. The first time that an event fires is recorded for good,
an event that can never fire never does, and a goal is decided once.
-/

namespace MissionScript

/-- Whether the record of an event can become another one. -/
structure EventRecord.Leads (r r' : EventRecord) : Prop where
  triggers : 0 < r.triggers → 0 < r'.triggers
  first : ∀ time, r.first = some time → r'.first = some time
  never : r.neverFires = true →
    r'.neverFires = true ∧ r'.triggers = r.triggers ∧ r'.first = r.first

/-- Whether the record of a goal can become another one. -/
def GoalRecord.Leads (r r' : GoalRecord) : Prop :=
  r.status.isTerminal = true → r'.status = r.status

namespace EventRecord

theorem Leads.refl (r : EventRecord) : r.Leads r :=
  ⟨fun h => h, fun _ h => h, fun h => ⟨h, rfl, rfl⟩⟩

theorem Leads.trans {r₁ r₂ r₃ : EventRecord} (h₁₂ : r₁.Leads r₂) (h₂₃ : r₂.Leads r₃) :
    r₁.Leads r₃ := by
  refine ⟨fun h => h₂₃.triggers (h₁₂.triggers h), fun t h => h₂₃.first t (h₁₂.first t h), fun h => ?_⟩
  obtain ⟨hnever₂, htriggers₂, hfirst₂⟩ := h₁₂.never h
  obtain ⟨hnever₃, htriggers₃, hfirst₃⟩ := h₂₃.never hnever₂
  exact ⟨hnever₃, htriggers₃.trans htriggers₂, hfirst₃.trans hfirst₂⟩

end EventRecord

namespace GoalRecord

theorem Leads.refl (r : GoalRecord) : r.Leads r :=
  fun _ => rfl

theorem Leads.trans {r₁ r₂ r₃ : GoalRecord} (h₁₂ : r₁.Leads r₂) (h₂₃ : r₂.Leads r₃) :
    r₁.Leads r₃ := by
  intro h
  have h₂ := h₁₂ h
  rw [← h₂]
  exact h₂₃ (h₂.symm ▸ h)

end GoalRecord

namespace Ledger

variable {l l' : Ledger} {name : String}

/-- Whether a ledger can become another one. Records are never removed. -/
structure Leads (l l' : Ledger) : Prop where
  events : ∀ name r, l.event? name = some r → ∃ r', l'.event? name = some r' ∧ r.Leads r'
  goals : ∀ name r, l.goal? name = some r → ∃ r', l'.goal? name = some r' ∧ r.Leads r'

/-- Whether two ledgers have the same records. -/
def SameRecords (l l' : Ledger) : Prop :=
  l'.events = l.events ∧ l'.goals = l.goals

theorem SameRecords.leads (h : l.SameRecords l') : l.Leads l' := by
  obtain ⟨hevents, hgoals⟩ := h
  constructor
  · intro name r hr
    refine ⟨r, ?_, .refl r⟩
    rwa [event?, hevents]
  · intro name r hr
    refine ⟨r, ?_, .refl r⟩
    rwa [goal?, hgoals]

theorem Leads.refl (l : Ledger) : l.Leads l :=
  SameRecords.leads ⟨rfl, rfl⟩

theorem Leads.trans {l₁ l₂ l₃ : Ledger} (h₁₂ : l₁.Leads l₂) (h₂₃ : l₂.Leads l₃) : l₁.Leads l₃ := by
  constructor
  · intro name r hr
    obtain ⟨r₂, hr₂, hlead₂⟩ := h₁₂.events name r hr
    obtain ⟨r₃, hr₃, hlead₃⟩ := h₂₃.events name r₂ hr₂
    exact ⟨r₃, hr₃, hlead₂.trans hlead₃⟩
  · intro name r hr
    obtain ⟨r₂, hr₂, hlead₂⟩ := h₁₂.goals name r hr
    obtain ⟨r₃, hr₃, hlead₃⟩ := h₂₃.goals name r₂ hr₂
    exact ⟨r₃, hr₃, hlead₂.trans hlead₃⟩

/-- Changing the record of one event is all right if the record allows it. -/
theorem leads_updateEvent {r : EventRecord} {f : EventRecord → EventRecord}
    (hr : l.event? name = some r) (hlead : r.Leads (f r)) :
    l.Leads { l with events := l.events.update (foldName name) .fresh f } := by
  refine ⟨fun other r' hr' => ?_, (Leads.refl l).goals⟩
  rw [event?, Table.find?_update]
  split
  · next hsame =>
    have heq : r' = r := by
      rw [event?, hsame] at hr'
      exact Option.some.inj (hr'.symm.trans hr)
    refine ⟨_, rfl, ?_⟩
    rw [show l.events.find? (foldName name) = some r from hr, Option.getD_some, heq]
    exact hlead
  · exact ⟨r', hr', .refl r'⟩

theorem leads_eventFired {r : EventRecord} (hr : l.event? name = some r)
    (hfires : r.neverFires = false) (now : Float) : l.Leads (l.eventFired name now) := by
  refine leads_updateEvent hr ⟨fun _ => by simp, fun time htime => by simp [htime], fun h => ?_⟩
  rw [hfires] at h
  cases h

theorem leads_eventNeverFires {r : EventRecord} (hr : l.event? name = some r) :
    l.Leads (l.eventNeverFires name) :=
  leads_updateEvent hr ⟨fun h => h, fun _ h => h, fun _ => ⟨rfl, rfl, rfl⟩⟩

theorem leads_goalChanged {r : GoalRecord} (hr : l.goal? name = some r)
    (hopen : r.status.isTerminal = false) (status : GoalStatus) (now : Float) :
    l.Leads (l.goalChanged name status now) := by
  refine ⟨(Leads.refl l).events, fun other r' hr' => ?_⟩
  rw [goal?, goalChanged, Table.find?_insert]
  split
  · next hsame =>
    rw [goal?, hsame] at hr'
    obtain rfl := Option.some.inj (hr'.symm.trans hr)
    refine ⟨_, rfl, fun hterminal => ?_⟩
    rw [hopen] at hterminal
    cases hterminal
  · exact ⟨r', hr', .refl r'⟩

end Ledger

end MissionScript

import MissionScript.Game.Simulation
import MissionScript.Proofs.Number.Order
import Mathlib.Data.List.Forall2

/-!
What can become of the ships of a simulation. A ship comes into play once, and it leaves it once and
in one way; neither the clock nor a command takes anything of that back.
-/

namespace MissionScript

/-- Whether a ship of one status can have another one later. -/
def ShipStatus.Leads : ShipStatus → ShipStatus → Prop
  | .notArrived, _ => True
  | .present, s => s ≠ .notArrived
  | .destroyed, s => s = .destroyed
  | .departed, s => s = .departed

namespace ShipStatus

theorem Leads.refl (s : ShipStatus) : s.Leads s := by
  cases s <;> simp [Leads]

theorem Leads.trans {s t u : ShipStatus} (hst : s.Leads t) (htu : t.Leads u) : s.Leads u := by
  cases s <;> cases t <;> simp_all [Leads]

theorem Leads.hasArrived {s t : ShipStatus} (h : s.Leads t) (hs : s.hasArrived = true) :
    t.hasArrived = true := by
  cases s <;> cases t <;> simp_all [Leads, ShipStatus.hasArrived]

end ShipStatus

/-- Whether a moment is not before another one: all that has come by the one has come by the other. -/
def NotBefore (now later : Float) : Prop :=
  ∀ moment, moment ≤ now → moment ≤ later

theorem NotBefore.refl (now : Float) : NotBefore now now :=
  fun _ h => h

theorem NotBefore.trans {a b c : Float} (hab : NotBefore a b) (hbc : NotBefore b c) :
    NotBefore a c :=
  fun moment h => hbc moment (hab moment h)

theorem notBefore_of_le {now later : Float} (h : now ≤ later) : NotBefore now later :=
  fun _ hmoment => float_le_trans hmoment h

namespace Ship

theorem status_ne_notArrived_iff {s : Ship} {now : Float} :
    s.status now ≠ .notArrived ↔ reached now s.plan.arriveAt = true := by
  unfold status
  cases reached now s.plan.arriveAt with
  | false => simp
  | true =>
    simp only [Bool.not_true, Bool.false_eq_true, if_false, iff_true]
    split
    · split <;> simp
    all_goals simp

theorem reached_mono {now later : Float} (h : NotBefore now later) {moment : Option Float}
    (hnow : reached now moment = true) : reached later moment = true := by
  cases moment with
  | none => simp [reached] at hnow
  | some moment =>
    simp only [reached, Option.any_some, decide_eq_true_eq] at hnow ⊢
    exact h moment hnow

/-- When a ship is destroyed: it has come into play, and its destruction has come, not after its
    departure. -/
theorem status_eq_destroyed_iff {s : Ship} {now : Float} :
    s.status now = .destroyed ↔ reached now s.plan.arriveAt = true ∧ ∃ d, s.destroyedAt = some d ∧
      d ≤ now ∧ ∀ p, s.plan.departAt = some p → p ≤ now → ¬ p < d := by
  unfold status
  cases reached now s.plan.arriveAt with
  | false => simp
  | true =>
    simp only [Bool.not_true, Bool.false_eq_true, if_false, true_and]
    cases s.destroyedAt with
    | none => cases hp : s.plan.departAt.filter (· ≤ now) <;> simp
    | some d =>
      cases s.plan.departAt with
      | none => by_cases hd : d ≤ now <;> simp [Option.filter, hd]
      | some p => by_cases hd : d ≤ now <;> by_cases hp : p ≤ now <;> simp [Option.filter, hd, hp]

/-- When a ship has departed: it has come into play, and its departure has come, before any
    destruction. -/
theorem status_eq_departed_iff {s : Ship} {now : Float} :
    s.status now = .departed ↔ reached now s.plan.arriveAt = true ∧ ∃ p, s.plan.departAt = some p ∧
      p ≤ now ∧ ∀ d, s.destroyedAt = some d → d ≤ now → p < d := by
  unfold status
  cases reached now s.plan.arriveAt with
  | false => simp
  | true =>
    simp only [Bool.not_true, Bool.false_eq_true, if_false, true_and]
    cases s.plan.departAt with
    | none => cases hd : s.destroyedAt.filter (· ≤ now) <;> simp
    | some p =>
      cases s.destroyedAt with
      | none => by_cases hp : p ≤ now <;> simp [Option.filter, hp]
      | some d => by_cases hd : d ≤ now <;> by_cases hp : p ≤ now <;> simp [Option.filter, hd, hp]

/-- A ship goes on only forward while time passes. -/
theorem status_leads (s : Ship) {now later : Float} (h : NotBefore now later) :
    (s.status now).Leads (s.status later) := by
  cases hstatus : s.status now with
  | notArrived => trivial
  | present =>
    have harrived : s.status now ≠ .notArrived := by simp [hstatus]
    exact status_ne_notArrived_iff.2 (reached_mono h (status_ne_notArrived_iff.1 harrived))
  | destroyed =>
    obtain ⟨harrived, d, hd, hnow, hfirst⟩ := status_eq_destroyed_iff.1 hstatus
    refine status_eq_destroyed_iff.2 ⟨reached_mono h harrived, d, hd, h d hnow, ?_⟩
    intro p hp _ hlt
    exact hfirst p hp (float_le_trans (float_le_of_lt hlt) hnow) hlt
  | departed =>
    obtain ⟨harrived, p, hp, hnow, hfirst⟩ := status_eq_departed_iff.1 hstatus
    refine status_eq_departed_iff.2 ⟨reached_mono h harrived, p, hp, h p hnow, ?_⟩
    intro d hd hlater
    by_cases hd' : d ≤ now
    · exact hfirst d hd hd'
    · exact float_lt_of_le_of_not_le hnow hd' hlater

end Ship

/-- Whether a ship can become another one, each at its time. -/
def Ship.Leads (now later : Float) (s s' : Ship) : Prop :=
  s'.plan.name = s.plan.name ∧ (s.status now).Leads (s'.status later)

namespace Simulation

/-- Whether a game can become another one. -/
structure Leads (g g' : Simulation) : Prop where
  clock : NotBefore g.time g'.time
  ships : ∀ name status, g.shipStatus? name = some status →
    ∃ later, g'.shipStatus? name = some later ∧ status.Leads later
  wings : g'.wings = g.wings

theorem Leads.refl (g : Simulation) : g.Leads g :=
  ⟨.refl _, fun _ status h => ⟨status, h, .refl _⟩, rfl⟩

theorem Leads.trans {g₁ g₂ g₃ : Simulation} (h₁₂ : g₁.Leads g₂) (h₂₃ : g₂.Leads g₃) :
    g₁.Leads g₃ := by
  refine ⟨h₁₂.clock.trans h₂₃.clock, fun name status h => ?_, h₂₃.wings.trans h₁₂.wings⟩
  obtain ⟨status₂, h₂, hlead₂⟩ := h₁₂.ships name status h
  obtain ⟨status₃, h₃, hlead₃⟩ := h₂₃.ships name status₂ h₂
  exact ⟨status₃, h₃, hlead₂.trans hlead₃⟩

/-- If every ship becomes one of the same name, then the first of a name becomes the first of that
    name. -/
theorem leads_of_forall₂ {g g' : Simulation} (hclock : NotBefore g.time g'.time)
    (hships : List.Forall₂ (Ship.Leads g.time g'.time) g.ships g'.ships)
    (hwings : g'.wings = g.wings) : g.Leads g' := by
  refine ⟨hclock, fun name status hstatus => ?_, hwings⟩
  unfold shipStatus? ship? at hstatus ⊢
  generalize g.ships = ships, g'.ships = ships' at hships hstatus
  induction hships with
  | nil => simp at hstatus
  | @cons s s' rest rest' hs _ ih =>
    rw [List.find?_cons] at hstatus ⊢
    rw [hs.1]
    cases hname : sameName s.plan.name name with
    | true =>
      simp only [hname, Option.map_some, Option.some.injEq] at hstatus ⊢
      exact ⟨_, rfl, hstatus ▸ hs.2⟩
    | false =>
      simp only [hname] at hstatus ⊢
      exact ih hstatus

theorem leads_setTime (g : Simulation) {time : Float} (h : g.time ≤ time) :
    g.Leads (g.setTime time) := by
  have hclock : NotBefore g.time time := notBefore_of_le h
  exact leads_of_forall₂ hclock (List.forall₂_same.2 fun s _ => ⟨rfl, s.status_leads hclock⟩) rfl

theorem leads_send (g : Simulation) (persona text : String) : g.Leads (g.send persona text) :=
  ⟨.refl _, fun _ status h => ⟨status, h, .refl _⟩, rfl⟩

theorem leads_random (g : Simulation) (low high : Int64) : g.Leads (g.random low high).2 :=
  ⟨.refl _, fun _ status h => ⟨status, h, .refl _⟩, rfl⟩

/-- Only ships that have not arrived are called. -/
theorem forall₂_spawn (g : Simulation) (wing : String) :
    List.Forall₂ (Ship.Leads g.time g.time) g.ships (g.spawn wing).2.ships := by
  have hsame : List.Forall₂ (Ship.Leads g.time g.time) g.ships g.ships :=
    List.forall₂_same.2 fun _ _ => ⟨rfl, .refl _⟩
  unfold spawn
  split
  · exact hsame
  · next w _ =>
    split
    · refine List.forall₂_map_right_iff.2 (List.forall₂_same.2 fun s _ => ?_)
      split
      · next hwaits =>
        have hstatus : s.status g.time = .notArrived := by
          simp only [waitsFor, Bool.and_eq_true, beq_iff_eq] at hwaits
          exact hwaits.2
        refine ⟨rfl, ?_⟩
        rw [hstatus]
        trivial
      · exact ⟨rfl, .refl _⟩
    · exact hsame

theorem time_spawn (g : Simulation) (wing : String) : (g.spawn wing).2.time = g.time := by
  unfold spawn
  split
  · rfl
  · split <;> rfl

theorem wings_spawn (g : Simulation) (wing : String) : (g.spawn wing).2.wings = g.wings := by
  unfold spawn
  split
  · rfl
  · split <;> rfl

theorem leads_spawn (g : Simulation) (wing : String) : g.Leads (g.spawn wing).2 := by
  have htime := g.time_spawn wing
  refine leads_of_forall₂ (htime ▸ .refl _) ?_ (g.wings_spawn wing)
  rw [htime]
  exact g.forall₂_spawn wing

/-- Only a ship in play is destroyed, and that does not take it back out of play. -/
theorem forall₂_destroyIn (now : Float) (name : String) (ships : List Ship) :
    List.Forall₂ (Ship.Leads now now) ships (destroyIn now name ships).2 := by
  have hsame (ships : List Ship) : List.Forall₂ (Ship.Leads now now) ships ships :=
    List.forall₂_same.2 fun _ _ => ⟨rfl, .refl _⟩
  induction ships with
  | nil => exact .nil
  | cons s rest ih =>
    unfold destroyIn
    split
    · split
      · next hpresent =>
        refine .cons ⟨rfl, ?_⟩ (hsame rest)
        have harrived : s.status now ≠ .notArrived := by simp [hpresent]
        have hreached := Ship.status_ne_notArrived_iff.1 harrived
        rw [hpresent]
        exact Ship.status_ne_notArrived_iff.2 hreached
      · exact hsame (s :: rest)
    · exact .cons ⟨rfl, .refl _⟩ ih

theorem leads_destroy (g : Simulation) (ship : String) : g.Leads (g.destroy ship).2 :=
  leads_of_forall₂ (.refl _) (forall₂_destroyIn g.time ship g.ships) rfl

/-- What happens to a game between two ticks: its clock goes on, and whoever holds it may give it
    the same commands as a formula. -/
inductive Happening : Simulation → Simulation → Prop where
  | clock (g : Simulation) {time : Float} (h : g.time ≤ time) : Happening g (g.setTime time)
  | send (g : Simulation) (persona text : String) : Happening g (g.send persona text)
  | spawn (g : Simulation) (wing : String) : Happening g (g.spawn wing).2
  | destroy (g : Simulation) (ship : String) : Happening g (g.destroy ship).2
  | random (g : Simulation) (low high : Int64) : Happening g (g.random low high).2

theorem Happening.leads {g g' : Simulation} (h : Happening g g') : g.Leads g' := by
  cases h with
  | clock h => exact g.leads_setTime h
  | send persona text => exact g.leads_send persona text
  | spawn wing => exact g.leads_spawn wing
  | destroy ship => exact g.leads_destroy ship
  | random low high => exact g.leads_random low high

/-- A wing is there as long as the game, and one of which a ship has arrived stays so. -/
theorem Leads.wingArrived {g g' : Simulation} (h : g.Leads g') {name : String} {arrived : Bool}
    (hwing : Host.wingArrived g name = some arrived) :
    ∃ later, Host.wingArrived g' name = some later ∧ (arrived = true → later = true) := by
  have hwings : g'.wing? name = g.wing? name := by rw [wing?, wing?, h.wings]
  change (g.wingStatuses? name).map _ = some arrived at hwing
  change ∃ later, (g'.wingStatuses? name).map _ = some later ∧ _
  rw [wingStatuses?, Option.map_map, Option.map_eq_some_iff] at hwing
  obtain ⟨w, hw, rfl⟩ := hwing
  rw [wingStatuses?, hwings, hw]
  refine ⟨_, rfl, fun harrived => ?_⟩
  simp only [Function.comp_apply, List.any_map, List.any_eq_true] at harrived ⊢
  obtain ⟨ship, hship, harrived⟩ := harrived
  refine ⟨ship, hship, ?_⟩
  cases hstatus : g.shipStatus? ship with
  | none => simp [hstatus, ShipStatus.hasArrived] at harrived
  | some status =>
    obtain ⟨later, hlater, hlead⟩ := h.ships ship status hstatus
    simp only [hstatus, Option.getD_some] at harrived
    simp only [hlater, Option.getD_some]
    exact hlead.hasArrived harrived

end Simulation

end MissionScript

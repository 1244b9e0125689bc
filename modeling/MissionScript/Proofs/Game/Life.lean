import MissionScript.Proofs.Game.Simulation
import Mathlib.Data.List.Chain

/-!
The lives of ships. However a game is told to go on, no ship ever goes back: a ship that is destroyed
or has departed stays so, and what an order has done is neither undone nor done again.
-/

namespace MissionScript

/-- The ways from one status of a ship to another one. -/
def ShipStatus.ways : List (ShipStatus × ShipStatus) :=
  [(.notArrived, .present), (.notArrived, .destroyed), (.notArrived, .departed),
    (.present, .destroyed), (.present, .departed)]

theorem ShipStatus.leads_iff {s t : ShipStatus} : s.Leads t ↔ t = s ∨ (s, t) ∈ ways := by
  cases s <;> cases t <;> simp [Leads, ways]

theorem smaller_le_right (a : Float) {b : Float} (hb : b ≤ b) : smaller a b ≤ b := by
  unfold smaller
  split
  · next h =>
    rw [(float_le_self_of_le hb).2, Bool.or_false, decide_eq_true_eq] at h
    exact float_le_of_lt h
  · exact hb

/-- A ship is in play from its arrival on, until its destruction or its departure has come. -/
theorem Ship.status_eq_present_iff {s : Ship} {now : Float} :
    s.status now = .present ↔ reached now s.plan.arriveAt = true ∧
      (∀ d, s.destroyedAt = some d → ¬ d ≤ now) ∧ ∀ p, s.plan.departAt = some p → ¬ p ≤ now := by
  unfold status
  cases reached now s.plan.arriveAt with
  | false => simp
  | true =>
    cases s.destroyedAt with
    | none =>
      cases s.plan.departAt with
      | none => simp
      | some p => by_cases hp : p ≤ now <;> simp [Option.filter, hp]
    | some d =>
      cases s.plan.departAt with
      | none => by_cases hd : d ≤ now <;> simp [Option.filter, hd]
      | some p =>
        by_cases hd : d ≤ now <;> by_cases hp : p ≤ now <;> by_cases hlt : p < d <;>
          simp [Option.filter, hd, hp, hlt]

/-- A ship in play that is destroyed is destroyed from then on. -/
theorem Ship.status_kill {s : Ship} {now : Float} (h : s.status now = .present) :
    { s with killedAt := some now }.status now = .destroyed := by
  obtain ⟨hreached, -, hstays⟩ := status_eq_present_iff.1 h
  obtain ⟨moment, -, harrived⟩ := (Option.any_eq_true _ _).1 hreached
  have hnow : now ≤ now := (float_le_self_of_le (of_decide_eq_true harrived)).1
  obtain ⟨d, hd, hle⟩ : ∃ d, { s with killedAt := some now }.destroyedAt = some d ∧ d ≤ now := by
    unfold destroyedAt
    cases s.plan.destroyAt with
    | none => exact ⟨now, rfl, hnow⟩
    | some planned => exact ⟨_, rfl, smaller_le_right planned hnow⟩
  exact status_eq_destroyed_iff.2 ⟨hreached, d, hd, hle, fun p hp hle _ => hstays p hp hle⟩

namespace Simulation

/-- What a game is told to do. -/
inductive Order where
  | setTime (time : Float)
  | spawn (wing : String)
  | destroy (ship : String)

/-- The time that an order sets the clock to. -/
def Order.time? : Order → Option Float
  | .setTime time => some time
  | .spawn _ | .destroy _ => none

/-- Whether two orders call the same wing or destroy the same ship. -/
def Order.SameTarget : Order → Order → Prop
  | .spawn wing, .spawn wing' => sameName wing wing' = true
  | .destroy ship, .destroy ship' => sameName ship ship' = true
  | _, _ => False

/-- An order that has been carried out: whether it succeeded, and the game then. -/
structure Done where
  order : Order
  success : Bool
  game : Simulation

/-- Carries out an order. The clock can always be set. -/
def carryOut (g : Simulation) (order : Order) : Done :=
  match order with
  | .setTime time => ⟨order, true, g.setTime time⟩
  | .spawn wing => ⟨order, (g.spawn wing).1, (g.spawn wing).2⟩
  | .destroy ship => ⟨order, (g.destroy ship).1, (g.destroy ship).2⟩

/-- Carries out orders one after the other. -/
def course (g : Simulation) : List Order → List Done
  | [] => []
  | order :: rest => g.carryOut order :: (g.carryOut order).game.course rest

/-- Whether a game has gone on to another one without any ship that went back. -/
structure Forward (g g' : Simulation) : Prop where
  ships : ∀ ship status, g.shipStatus? ship = some status →
    ∃ later, g'.shipStatus? ship = some later ∧ (later = status ∨ (status, later) ∈ ShipStatus.ways)
  arrived : ∀ wing, Host.wingArrived g wing = some true → Host.wingArrived g' wing = some true
  destroyed : ∀ wing statuses, g.wingStatuses? wing = some statuses →
    ∃ later, g'.wingStatuses? wing = some later ∧ statuses.count .destroyed ≤ later.count .destroyed

/-- Whether what an order has done is so in a game: no ship of the wing is still to arrive, or the ship
    is destroyed. -/
def Done.Holds (d : Done) (g : Simulation) : Prop :=
  d.success = true → match d.order with
    | .setTime _ => True
    | .spawn wing => ∃ w, g.wing? wing = some w ∧ ∀ ship ∈ w.ships, g.shipStatus? ship ≠ some .notArrived
    | .destroy ship => g.shipStatus? ship = some .destroyed

/-- Whether what an order has done is so in a game, also for ships that are not found by their names
    because others come first. -/
def Done.Secures (d : Done) (g : Simulation) : Prop :=
  d.success = true → match d.order with
    | .setTime _ => True
    | .spawn wing => ∃ w, g.wing? wing = some w ∧
        ∀ s ∈ g.ships, w.ships.any (sameName · s.plan.name) = true → s.status g.time ≠ .notArrived
    | .destroy ship => g.shipStatus? ship = some .destroyed

theorem exists_of_shipStatus? {g : Simulation} {ship : String} {status : ShipStatus}
    (h : g.shipStatus? ship = some status) :
    ∃ s ∈ g.ships, sameName s.plan.name ship = true ∧ s.status g.time = status := by
  rw [shipStatus?, Option.map_eq_some_iff] at h
  obtain ⟨s, hs, hstatus⟩ := h
  rw [ship?] at hs
  have hname := List.find?_some hs
  exact ⟨s, List.mem_of_find?_eq_some hs, hname, hstatus⟩

theorem Done.Secures.holds {d : Done} {g : Simulation} (h : d.Secures g) : d.Holds g := by
  obtain ⟨order, success, game⟩ := d
  intro hsuccess
  cases order with
  | setTime | destroy => exact h hsuccess
  | spawn wing =>
    obtain ⟨w, hw, harrived⟩ := h hsuccess
    refine ⟨w, hw, fun ship hship hstatus => ?_⟩
    obtain ⟨s, hs, hname, hstatus⟩ := exists_of_shipStatus? hstatus
    refine harrived s hs (List.any_eq_true.2 ⟨ship, hship, ?_⟩) hstatus
    rwa [sameName_comm]

/-- Going on takes each ship on by itself. -/
structure Continues (g g' : Simulation) : Prop where
  ships : List.Forall₂ (Ship.Leads g.time g'.time) g.ships g'.ships
  wings : g'.wings = g.wings
  leads : g.Leads g'
  clock : g'.time ≤ g'.time

theorem continues_carryOut {g : Simulation} {order : Order} (hnow : g.time ≤ g.time)
    (hclock : ∀ time, order.time? = some time → g.time ≤ time) :
    g.Continues (g.carryOut order).game := by
  cases order with
  | setTime time =>
    have hle := hclock time rfl
    refine ⟨List.forall₂_same.2 fun s _ => ⟨rfl, s.status_leads (notBefore_of_le hle)⟩, rfl,
      g.leads_setTime hle, (float_le_self_of_le hle).1⟩
  | spawn wing =>
    have htime : (g.carryOut (.spawn wing)).game.time = g.time := g.time_spawn wing
    refine ⟨?_, g.wings_spawn wing, g.leads_spawn wing, htime ▸ hnow⟩
    rw [htime]
    exact g.forall₂_spawn wing
  | destroy ship =>
    exact ⟨forall₂_destroyIn g.time ship g.ships, rfl, g.leads_destroy ship, hnow⟩

theorem Leads.forward {g g' : Simulation} (h : g.Leads g') : g.Forward g' where
  ships ship status hstatus := by
    obtain ⟨later, hlater, hlead⟩ := h.ships ship status hstatus
    exact ⟨later, hlater, ShipStatus.leads_iff.1 hlead⟩
  arrived wing harrived := by
    obtain ⟨later, hlater, harrived⟩ := h.wingArrived harrived
    rwa [harrived rfl] at hlater
  destroyed wing statuses hstatuses := by
    have hwing : g'.wing? wing = g.wing? wing := by rw [wing?, wing?, h.wings]
    rw [wingStatuses?, Option.map_eq_some_iff] at hstatuses
    obtain ⟨w, hw, rfl⟩ := hstatuses
    refine ⟨_, by rw [wingStatuses?, hwing, hw, Option.map_some], ?_⟩
    rw [List.count_eq_countP, List.count_eq_countP, List.countP_map, List.countP_map]
    refine List.countP_mono_left fun ship _ hdestroyed => ?_
    rw [Function.comp_apply, beq_iff_eq] at hdestroyed ⊢
    cases hstatus : g.shipStatus? ship with
    | none =>
      rw [hstatus] at hdestroyed
      cases hdestroyed
    | some status =>
      obtain ⟨later, hlater, hlead⟩ := h.ships ship status hstatus
      rw [hstatus, Option.getD_some] at hdestroyed
      rw [hlater, Option.getD_some]
      rw [hdestroyed] at hlead
      exact hlead

/-- Only a ship in play is destroyed, and then it is the one that is found by its name. -/
theorem destroyIn_eq_true {now : Float} {name : String} {ships : List Ship}
    (h : (destroyIn now name ships).1 = true) :
    let find (ships : List Ship) := ships.find? fun s => sameName s.plan.name name
    (find ships).map (·.status now) = some .present ∧
      (find (destroyIn now name ships).2).map (·.status now) = some .destroyed := by
  induction ships with
  | nil => cases h
  | cons s rest ih =>
    unfold destroyIn at h ⊢
    cases hname : sameName s.plan.name name with
    | false =>
      simp only [hname, Bool.false_eq_true, if_false] at h ⊢
      simpa [List.find?_cons, hname] using ih h
    | true =>
      simp only [hname, if_true] at h ⊢
      by_cases hpresent : s.status now = .present
      · simp [hname, hpresent, Ship.status_kill hpresent]
      · simp [hpresent] at h

namespace Done

variable {d : Done} {g g' : Simulation}

/-- What an order has done is not undone. -/
theorem Secures.continues (h : d.Secures g) (hg : g.Continues g') : d.Secures g' := by
  obtain ⟨order, success, game⟩ := d
  intro hsuccess
  cases order with
  | setTime => trivial
  | destroy ship =>
    obtain ⟨later, hlater, hlead⟩ := hg.leads.ships ship _ (h hsuccess)
    exact hlater.trans (congrArg some hlead)
  | spawn wing =>
    obtain ⟨w, hw, harrived⟩ := h hsuccess
    refine ⟨w, by rwa [wing?, hg.wings], fun s' hs' hmember => ?_⟩
    obtain ⟨hlength, hlead⟩ := List.forall₂_iff_get.1 hg.ships
    obtain ⟨i, hi, rfl⟩ := List.mem_iff_getElem.1 hs'
    obtain ⟨hname, hstatus⟩ := hlead i (hlength ▸ hi) hi
    simp only [List.get_eq_getElem] at hname hstatus
    rw [hname] at hmember
    have hbefore := harrived _ (List.getElem_mem _) hmember
    intro hlater
    rw [hlater, ShipStatus.leads_iff] at hstatus
    rcases hstatus with hsame | hway
    · exact hbefore hsame.symm
    · simp [ShipStatus.ways] at hway

/-- An order that has succeeded does not succeed again where what it has done is so. -/
theorem Secures.not_success (h : d.Secures g) (hsuccess : d.success = true) {order : Order}
    (hsame : d.order.SameTarget order) : (g.carryOut order).success = false := by
  obtain ⟨first, success, game⟩ := d
  cases first with
  | setTime => cases order <;> cases hsame
  | spawn wing =>
    cases order with
    | setTime | destroy => cases hsame
    | spawn wing' =>
      obtain ⟨w, hw, harrived⟩ := h hsuccess
      have hw' : g.wing? wing' = some w := by
        have hfold : foldName wing = foldName wing' := sameName_iff.1 hsame
        simpa only [wing?, sameName, hfold] using hw
      have hnobody : g.ships.any (waitsFor g.time w) = false := by
        rw [List.any_eq_false]
        intro s hs hwaits
        rw [waitsFor, Bool.and_eq_true, beq_iff_eq] at hwaits
        exact harrived s hs hwaits.1 hwaits.2
      change (g.spawn wing').1 = false
      rw [spawn, hw']
      simp [hnobody]
  | destroy ship =>
    cases order with
    | setTime | spawn => cases hsame
    | destroy ship' =>
      have hdestroyed : g.shipStatus? ship' = some .destroyed := by
        have hfold : foldName ship = foldName ship' := sameName_iff.1 hsame
        have hstatus : g.shipStatus? ship = some .destroyed := h hsuccess
        simpa only [shipStatus?, ship?, sameName, hfold] using hstatus
      rw [← Bool.not_eq_true]
      intro hdone
      have hpresent := (destroyIn_eq_true hdone).1
      change g.shipStatus? ship' = _ at hpresent
      rw [hdestroyed] at hpresent
      cases hpresent

end Done

/-- An order that succeeds has done what it is for. -/
theorem secures_carryOut {g : Simulation} (hnow : g.time ≤ g.time) (order : Order) :
    (g.carryOut order).Secures (g.carryOut order).game := by
  intro hsuccess
  cases order with
  | setTime => trivial
  | destroy ship => exact (destroyIn_eq_true hsuccess).2
  | spawn wing =>
    change (g.spawn wing).1 = true at hsuccess
    change ∃ w, (g.spawn wing).2.wing? wing = some w ∧ ∀ s ∈ (g.spawn wing).2.ships,
      w.ships.any (sameName · s.plan.name) = true → s.status (g.spawn wing).2.time ≠ .notArrived
    rw [wing?, g.wings_spawn, g.time_spawn]
    unfold spawn at hsuccess ⊢
    split at hsuccess
    · cases hsuccess
    · next w hw =>
      refine ⟨w, hw, fun s' hs' hmember => ?_⟩
      split at hsuccess
      · next hwaits =>
        simp only [hwaits, if_true, List.mem_map] at hs'
        obtain ⟨s, -, rfl⟩ := hs'
        split at hmember
        · next hcalled =>
          rw [if_pos hcalled]
          exact Ship.status_ne_notArrived_iff.2 (by simpa [Ship.reached] using hnow)
        · next hnotCalled =>
          rw [if_neg hnotCalled]
          intro hstatus
          exact hnotCalled (by rw [waitsFor, hmember, hstatus]; rfl)
      · cases hsuccess

section Course

variable {g : Simulation} {orders : List Order}

/-- The clock at the next order. -/
theorem clock_carryOut {order : Order}
    (h : (g.time :: (order :: orders).filterMap Order.time?).IsChain (· ≤ ·)) :
    (∀ time, order.time? = some time → g.time ≤ time) ∧
      ((g.carryOut order).game.time :: orders.filterMap Order.time?).IsChain (· ≤ ·) := by
  cases order with
  | setTime time =>
    obtain ⟨hle, hrest⟩ := List.isChain_cons_cons.1 h
    exact ⟨fun time' heq => Option.some.inj heq ▸ hle, hrest⟩
  | spawn wing =>
    have htime : (g.carryOut (.spawn wing)).game.time = g.time := g.time_spawn wing
    rw [htime]
    exact ⟨nofun, h⟩
  | destroy ship => exact ⟨nofun, h⟩

/-- Wherever what an order has done is so, it stays so in the whole course, and the order does not
    succeed again. -/
theorem Done.Secures.course {d : Done} (h : d.Secures g) (hnow : g.time ≤ g.time)
    (hclock : (g.time :: orders.filterMap Order.time?).IsChain (· ≤ ·)) :
    ∀ d' ∈ g.course orders, d.Secures d'.game ∧
      (d.success = true → d.order.SameTarget d'.order → d'.success = false) := by
  induction orders generalizing g with
  | nil => exact List.forall_mem_nil _
  | cons order rest ih =>
    obtain ⟨hset, hrest⟩ := clock_carryOut hclock
    have hgoes := continues_carryOut hnow hset
    have hsecures := h.continues hgoes
    refine List.forall_mem_cons.2 ⟨⟨hsecures, fun hsuccess hsame => ?_⟩, ih hsecures hgoes.clock hrest⟩
    refine h.not_success hsuccess ?_
    cases order <;> exact hsame

/-- A course leads from each game to all later ones. -/
theorem leads_course (hnow : g.time ≤ g.time)
    (hclock : (g.time :: orders.filterMap Order.time?).IsChain (· ≤ ·)) :
    (∀ d ∈ g.course orders, g.Leads d.game) ∧ (g.course orders).Pairwise (·.game.Leads ·.game) := by
  induction orders generalizing g with
  | nil => exact ⟨List.forall_mem_nil _, .nil⟩
  | cons order rest ih =>
    obtain ⟨hset, hrest⟩ := clock_carryOut hclock
    have hgoes := continues_carryOut hnow hset
    obtain ⟨hlater, hpairwise⟩ := ih hgoes.clock hrest
    exact ⟨List.forall_mem_cons.2 ⟨hgoes.leads, fun d hd => hgoes.leads.trans (hlater d hd)⟩,
      .cons hlater hpairwise⟩

/-- What each order of a course has done is so, in the whole rest of the course. -/
theorem secures_course (hnow : g.time ≤ g.time)
    (hclock : (g.time :: orders.filterMap Order.time?).IsChain (· ≤ ·)) :
    (∀ d ∈ g.course orders, d.Secures d.game) ∧ (g.course orders).Pairwise fun d d' =>
      d.Secures d'.game ∧ (d.success = true → d.order.SameTarget d'.order → d'.success = false) := by
  induction orders generalizing g with
  | nil => exact ⟨List.forall_mem_nil _, .nil⟩
  | cons order rest ih =>
    obtain ⟨hset, hrest⟩ := clock_carryOut hclock
    have hgoes := continues_carryOut hnow hset
    have hfirst := secures_carryOut hnow order
    obtain ⟨hlater, hpairwise⟩ := ih hgoes.clock hrest
    exact ⟨List.forall_mem_cons.2 ⟨hfirst, hlater⟩,
      .cons (hfirst.course hgoes.clock hrest) hpairwise⟩

/-- The life of a ship only moves forward. Whatever a game is told to do while its clock does not go
    back, from every moment to every later one a ship has kept its status or has gone on to a later
    one, a wing that has arrived is still there, and no fewer ships of a wing are destroyed. Once a
    ship has been destroyed by an order it stays so, and once a wing has been called none of its ships
    is still to arrive; neither can be done a second time. -/
theorem lives_forward (scenario : Scenario) (dice : Dice)
    (hclock : (0 :: orders.filterMap Order.time?).IsChain (· ≤ ·)) :
    let game := start scenario dice
    let past := game.course orders
    (game :: past.map (·.game)).Pairwise Forward ∧ (∀ d ∈ past, d.Holds d.game) ∧
      past.Pairwise fun d d' => d.Holds d'.game ∧
        (d.success = true → d.order.SameTarget d'.order → d'.success = false) := by
  have hnow : (start scenario dice).time ≤ (start scenario dice).time := by
    change (0 : Float) ≤ 0
    decide +kernel
  obtain ⟨hfirst, hleads⟩ := leads_course hnow hclock
  obtain ⟨hholds, hlater⟩ := secures_course hnow hclock
  refine ⟨.cons (List.forall_mem_map.2 fun d hd => (hfirst d hd).forward) ?_,
    fun d hd => (hholds d hd).holds, hlater.imp fun h => ⟨h.1.holds, h.2⟩⟩
  exact List.pairwise_map.2 (hleads.imp Leads.forward)

end Course

/-- An escort that waits until it is called, and a freighter that is lost by plan. -/
def Convoy.scenario : Scenario where
  ships := [⟨"Hauler", some 0, some 8, none, 100⟩, ⟨"Escort 1", none, none, some 6, 100⟩,
    ⟨"Escort 2", none, none, none, 100⟩]
  wings := [⟨"Escort", ["Escort 1", "Escort 2"]⟩]

/-- The escort is called twice, and a ship of it is destroyed twice. -/
def Convoy.orders : List Order :=
  [.destroy "Escort 2", .setTime 4, .spawn "Escort", .destroy "Escort 2", .setTime 9,
    .spawn "ESCORT", .destroy "escort 2", .destroy "Hauler", .destroy "Escort 1"]

theorem lives_forward_convoy :
    let game := start Convoy.scenario (.rolls [])
    let past := game.course Convoy.orders
    (0 :: Convoy.orders.filterMap Order.time?).IsChain (· ≤ ·) ∧
      past.map (·.success) = [false, true, true, true, true, false, false, false, false] ∧
      (game :: past.map (·.game)).Pairwise Forward ∧ (∀ d ∈ past, d.Holds d.game) ∧
      past.Pairwise fun d d' => d.Holds d'.game ∧
        (d.success = true → d.order.SameTarget d'.order → d'.success = false) := by
  have hclock : (0 :: Convoy.orders.filterMap Order.time?).IsChain (· ≤ ·) := by
    simp only [Convoy.orders, Order.time?, List.filterMap_cons, List.filterMap_nil,
      List.isChain_cons_cons, List.IsChain.singleton, and_true]
    decide +kernel
  exact ⟨hclock, by decide +kernel, lives_forward Convoy.scenario (.rolls []) hclock⟩

end Simulation

end MissionScript

import MissionScript.Game.Simulation
import MissionScript.Proofs.Evaluation.Finiteness
import MissionScript.Proofs.Formula.Soundness
import MissionScript.Proofs.Mission.Occasions
import MissionScript.Proofs.Mission.Variables
import MissionScript.Proofs.Variable.History

/-!
Missions in which every number stays finite. What is read of a mission is finite, and so is what is
saved of one; so a mission that starts from finite values, in games that show finite numbers and with
operators that answer none but finite ones, leaves texts that can be read again.
-/

namespace MissionScript

/-- What every occasion keeps of a part that is handed on, all of them keep. -/
theorem Occasion.HandOn.forall {H α : Type} [Host H] {part : Env H → α} {registry : Registry}
    {first last : α} {os : List (Occasion H)} (h : HandOn part registry first os last) {P : α → Prop}
    (hfirst : P first) (hstep : ∀ o ∈ os, P (part o.env) → P (part (o.after registry))) :
    (∀ o ∈ os, P (part o.env)) ∧ P last := by
  induction os generalizing first with
  | nil =>
    obtain rfl : last = first := h
    exact ⟨nofun, hfirst⟩
  | cons o rest ih =>
    obtain ⟨hpart, hrest⟩ := h
    obtain ⟨ho, hothers⟩ := List.forall_mem_cons.1 hstep
    have henv : P (part o.env) := hpart ▸ hfirst
    obtain ⟨hall, hlast⟩ := ih hrest (ho henv) hothers
    exact ⟨List.forall_mem_cons.2 ⟨henv, hall⟩, hlast⟩

/-- Whether the variables are finite before and after an occasion, and whatever is evaluated then. -/
structure Occasion.IsFinite {H : Type} [Host H] (registry : Registry) (o : Occasion H) : Prop where
  before : o.env.vars.AreFinite
  trace : ∀ visit ∈ o.trace registry, visit.IsFinite
  after : (o.after registry).vars.AreFinite

/-- A variable starts from a saved value only if it is finite. -/
theorem Variable.isFinite_of_read? {v : Variable} {saved : Saved} {value : Stored}
    (h : v.read? saved = some value) : value.IsFinite := by
  unfold read? at h
  split at h
  · exact Stored.isFinite_of_ofText? h
  · cases h

namespace Variables

variable {vars : Variables}

theorem AreFinite.declare (h : vars.AreFinite) {name : String} {type : VariableType} {initial : Stored}
    {scope : Scope} {after : Variables} (hinitial : initial.IsFinite)
    (hdeclare : vars.declare name type initial scope = .ok after) : after.AreFinite := by
  unfold Variables.declare at hdeclare
  split at hdeclare
  · cases hdeclare
  · split at hdeclare
    · cases hdeclare
      intro v hv
      obtain ⟨entry, hentry, rfl⟩ := List.mem_map.1 hv
      rcases Table.mem_insert hentry with hmem | rfl
      · exact h _ (List.mem_map_of_mem hmem)
      · exact ⟨hinitial, hinitial⟩
    · split at hdeclare
      · cases hdeclare
      · cases hdeclare
        exact h.modify _ fun w hw => ⟨hw.1, hinitial⟩

/-- A saved value is used only if it is finite. -/
theorem AreFinite.start (h : vars.AreFinite) (saved : Saved) : (vars.start saved).AreFinite := by
  unfold Variables.start
  split
  · next value hoverlay =>
    obtain ⟨v, -, hread⟩ := overlay_eq_applied_iff.1 hoverlay
    have hvalue := Variable.isFinite_of_read? hread
    exact h.modify _ fun _ _ => ⟨hvalue, hvalue⟩
  all_goals exact h

theorem AreFinite.applySaved (h : vars.AreFinite) (saved : List Saved) :
    (vars.applySaved saved).1.AreFinite := by
  rw [applySaved_eq]
  exact List.foldlRecOn saved Variables.start h fun _ hvars first _ => hvars.start first

end Variables

namespace Mission

variable {definition : Definition} {loader registry : Registry} {settings settings' : Settings}
  {saved : Snapshot} {mission : Mission}

end Mission

namespace Run

variable {H : Type} [Host H]

/-- Whether every number in the formulas and the variables of a run is finite, and what its operators
    answer. -/
structure IsFinite (r : Run) : Prop where
  registry : r.registry.AnswersFinite
  formulas : ∃ known options, ∀ owner name root, r.mission.formula? owner = some (name, root) →
    root.WellFormed known options
  vars : r.mission.vars.AreFinite

variable {r : Run}

/-- A tick leaves every number finite, in a game that shows finite numbers. -/
theorem IsFinite.tick (h : r.IsFinite) {host : H} (hhost : Host.StaysFinite host) :
    (∀ o ∈ r.occasions host, o.IsFinite r.registry) ∧ (r.tick host).run.IsFinite := by
  obtain ⟨hregistry, ⟨known, options, hformulas⟩, hvars⟩ := h
  have hevaluate : ∀ o ∈ r.occasions host, Host.StaysFinite o.env.host ∧ o.env.vars.AreFinite →
      (o.after r.registry).IsFinite := by
    intro o ho ⟨hgame, hstore⟩
    have hformula := r.formula?_of_mem_along [host] o (List.mem_append_left _ ho)
    exact (isFinite_evaluate hregistry (hformulas _ _ _ hformula) o.name hgame hstore).2
  have hpart : Env.IsUnrecorded fun env : Env H => (env.host, env.vars) := fun _ _ _ => rfl
  have hevents := Schedule.handOn_turns hpart r.registry (Host.time host) r.mission.schedule
    (r.env host) (List.range r.mission.schedule.events.length)
  have hgoals := Goal.handOn_attemptAll hpart r.registry (r.attemptTime host) 0
    (r.changesDone host).1.1.goals (r.changesDone host).2
  obtain ⟨hall, hlast⟩ := (Occasion.handOn_append.2 ⟨_, hevents, hgoals⟩).forall
    (P := fun part => Host.StaysFinite part.1 ∧ part.2.AreFinite) ⟨hhost, hvars⟩
    fun o ho henv => ⟨(hevaluate o ho henv).host, (hevaluate o ho henv).vars⟩
  refine ⟨fun o ho => ?_, hregistry, ⟨known, options, ?_⟩, hlast.2⟩
  · have hafter := hevaluate o ho (hall o ho)
    exact ⟨(hall o ho).2, fun visit hvisit => hafter.trace visit (Array.mem_toList_iff.1 hvisit),
      hafter.vars⟩
  · rw [(r.sameFormulas_tick host).formula?_eq]
    exact hformulas

theorem IsFinite.along (h : r.IsFinite) {hosts : List H} (hhosts : ∀ host ∈ hosts, Host.StaysFinite host) :
    (∀ o ∈ r.along occasions hosts, o.IsFinite r.registry) ∧ (r.after hosts).IsFinite := by
  induction hosts generalizing r with
  | nil => exact ⟨nofun, h⟩
  | cons host rest ih =>
    obtain ⟨hhost, hrest⟩ := List.forall_mem_cons.1 hhosts
    obtain ⟨hoccasions, htick⟩ := h.tick hhost
    obtain ⟨hothers, hafter⟩ := ih htick hrest
    exact ⟨List.forall_mem_append.2 ⟨hoccasions, hothers⟩, hafter⟩

end Run

namespace Simulation

end Simulation

namespace Surge

/-- A mission that stores what an added operator answers, and compares it with the hull of a ship. -/
def definition : Definition :=
  ⟨"Surge", [⟨"peak", .number, .number 0, .player⟩],
    [⟨"Charge", "(when (true) (modify-variable @peak (charge)))", 1, 0, 0, none, 0, none⟩],
    [⟨"Hold", "(< (* 1e308 @peak) (hits-left \"Ranger\"))", .primary, 0, 0, false⟩]⟩

/-- The operators, with one that always answers the same number. -/
def operators? (charge : Float) : Except RegistryError Registry :=
  Registry.builtin.register "charge" ⟨0, some 0, [], .number, ⟨false, false, false⟩⟩
    (.scripted false (.give (.number charge))) "the charge"

/-- The game at two ticks. -/
def games : List Simulation :=
  let game := Simulation.start ⟨[⟨"Ranger", some 0, none, none, 100⟩], []⟩ (.rolls [])
  [game, game.setTime 5]

/-- What comes of the mission: what its variables hold, what is saved of them, and how much of that the
    mission could start from. -/
structure Outcome where
  values : List Stored
  saved : List Saved
  reused : Nat × List OverlayFault
  deriving DecidableEq

def outcome (mission : Mission) (registry : Registry) : Outcome :=
  let r := (Run.start mission registry .builtin).after games
  let saved := r.finish.saved.player
  ⟨r.mission.vars.values.map Variable.value, saved, (mission.vars.applySaved saved).2⟩

def outcome? (charge : Float) : Option Outcome :=
  (operators? charge).toOption.bind fun registry =>
    (Mission.load definition registry .builtin .empty).toOption.map (outcome · registry)

end Surge

namespace Run

open Surge

end Run

end MissionScript

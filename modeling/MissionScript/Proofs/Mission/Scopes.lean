import MissionScript.Proofs.Mission.Variables
import MissionScript.Proofs.Variable.Start

/-!
Whose saved values a variable starts from. The last saved value of its name that it can hold starts a
variable, and all the values of the pilot come before those of the campaign; so a variable starts from
what was saved for its own scope only if no value of the other one comes last.
-/

namespace MissionScript

namespace Snapshot

variable {saved : Snapshot} {name : String} {v : Variable}

/-- Everything that is saved, in the order in which variables start from it. -/
def inOrder (saved : Snapshot) : List Saved :=
  saved.player ++ saved.campaign

/-- Whether a variable starts from what was saved for its own scope. -/
def IsOwn (saved : Snapshot) (name : String) (v : Variable) : Prop :=
  v.startValue? name saved.inOrder = v.startValue? name (saved.ofScope v.scope)

/-- A variable of the pilot does unless the campaign has another value that it can hold. -/
theorem isOwn_player_iff (hscope : v.scope = .player) : saved.IsOwn name v ↔
    v.startValue? name saved.campaign = none ∨
      v.startValue? name saved.campaign = v.startValue? name saved.player := by
  rw [IsOwn, hscope, inOrder, v.startValue?_append]
  change _ = v.startValue? name saved.player ↔ _
  cases v.startValue? name saved.campaign <;> simp

/-- A variable of the campaign does unless only the pilot has a value that it can hold. -/
theorem isOwn_campaign_iff (hscope : v.scope = .campaign) : saved.IsOwn name v ↔
    v.startValue? name saved.campaign ≠ none ∨ v.startValue? name saved.player = none := by
  rw [IsOwn, hscope, inOrder, v.startValue?_append]
  change _ = v.startValue? name saved.campaign ↔ _
  cases v.startValue? name saved.campaign <;> simp

end Snapshot

namespace Mission

section

variable {definition : Definition} {registry : Registry} {settings : Settings}
  {saved saved' : Snapshot} {mission mission' : Mission} {name : String} {v : Variable}

/-- All variables start from the saved values in order. -/
theorem vars_load (h : load definition registry settings saved = .ok mission) :
    ∃ declared, declareAll definition.vars = .ok declared ∧
      mission.vars = (declared.applySaved saved.inOrder).1 := by
  obtain ⟨declared, hdeclared, hvars, -⟩ := load_eq h
  refine ⟨declared, hdeclared, ?_⟩
  rw [hvars, overlay_eq, Variables.applySaved_eq, Variables.applySaved_eq, Variables.applySaved_eq,
    Snapshot.inOrder, List.foldl_append]

/-- Missions that start from the same saved values of one scope start its variables alike, as long as
    these do start from the values of their own scope. -/
theorem load_isolated (h : load definition registry settings saved = .ok mission)
    (h' : load definition registry settings saved' = .ok mission')
    (hv : mission.vars.get? name = some v) (hsaved : saved.ofScope v.scope = saved'.ofScope v.scope)
    (hown : saved.IsOwn name v) (hown' : saved'.IsOwn name v) :
    mission'.vars.get? name = some v := by
  obtain ⟨declared, hdeclared, hvars⟩ := vars_load h
  obtain ⟨declared', hdeclared', hvars'⟩ := vars_load h'
  cases hdeclared.symm.trans hdeclared'
  rw [hvars] at hv
  cases hw : declared.get? name with
  | none => cases hv.symm.trans (Variables.get?_applySaved_of_none hw)
  | some w =>
    rw [Variables.get?_applySaved hw] at hv
    have hstart := w.startValue?_startFrom (w.startValue? name saved.inOrder)
    rw [Option.some.inj hv] at hstart
    have hsame : w.startValue? name saved'.inOrder = w.startValue? name saved.inOrder := by
      rw [← hstart, hown, hown', hsaved]
    rw [hvars', Variables.get?_applySaved hw, hsame, hv]

end

namespace Roster

/-- A mission with a variable of the pilot and one of the campaign. -/
def patrol : Definition :=
  ⟨"Patrol", [⟨"kills", .number, .number 0, .player⟩, ⟨"ships", .number, .number 4, .campaign⟩], [],
    []⟩

/-- What is saved if the campaign has a value of this type under the name of the variable of the
    pilot. -/
def saves (type : VariableType) (ships : String) : Snapshot :=
  ⟨[⟨"Kills", .number, "3"⟩], [⟨"kills", type, "8"⟩, ⟨"ships", .number, ships⟩]⟩

/-- The variable of the pilot in the mission that is loaded. -/
def kills? (saved : Snapshot) : Option Variable :=
  (load patrol Registry.builtin .builtin saved).toOption.bind fun mission =>
    mission.vars.get? "kills"

theorem kills?_eq_some {saved : Snapshot} {v : Variable} (h : kills? saved = some v) :
    ∃ mission, load patrol Registry.builtin .builtin saved = .ok mission ∧
      mission.vars.get? "kills" = some v := by
  obtain ⟨mission, hload, hkills⟩ := Option.bind_eq_some_iff.1 h
  exact ⟨mission, toOption_eq_some_iff.1 hload, hkills⟩

end Roster

open Roster in
/-- The pilot has three kills in campaigns with different numbers of ships. -/
theorem load_isolated_patrol : ∃ mission mission' v,
    load patrol Registry.builtin .builtin (saves .string "2") = .ok mission ∧
    load patrol Registry.builtin .builtin (saves .string "5") = .ok mission' ∧
    v = ⟨"kills", .number, .number 3, .number 3, .player⟩ ∧
    mission.vars.get? "kills" = some v ∧ mission'.vars.get? "kills" = some v := by
  have hkills : kills? (saves .string "2") =
      some ⟨"kills", .number, .number 3, .number 3, .player⟩ := by decide +kernel
  have hloads : (kills? (saves .string "5")).isSome := by decide +kernel
  obtain ⟨mission, hload, hv⟩ := kills?_eq_some hkills
  obtain ⟨v', hv'⟩ := Option.isSome_iff_exists.1 hloads
  obtain ⟨mission', hload', -⟩ := kills?_eq_some hv'
  refine ⟨mission, mission', _, hload, hload', rfl, hv, ?_⟩
  refine load_isolated hload hload' hv rfl ((Snapshot.isOwn_player_iff rfl).2 (.inl ?_))
    ((Snapshot.isOwn_player_iff rfl).2 (.inl ?_))
  · decide +kernel
  · decide +kernel

open Roster in
/-- The kills that are saved with the campaign replace those of the pilot. -/
theorem load_not_isolated : ∃ mission mission' v v',
    (saves .string "2").player = (saves .number "2").player ∧
    load patrol Registry.builtin .builtin (saves .string "2") = .ok mission ∧
    load patrol Registry.builtin .builtin (saves .number "2") = .ok mission' ∧
    mission.vars.get? "kills" = some v ∧ mission'.vars.get? "kills" = some v' ∧
    v.scope = .player ∧ v'.scope = .player ∧ v.value = .number 3 ∧ v'.value = .number 8 := by
  have hkills : kills? (saves .string "2") =
      some ⟨"kills", .number, .number 3, .number 3, .player⟩ := by decide +kernel
  have hkills' : kills? (saves .number "2") =
      some ⟨"kills", .number, .number 8, .number 8, .player⟩ := by decide +kernel
  obtain ⟨mission, hload, hv⟩ := kills?_eq_some hkills
  obtain ⟨mission', hload', hv'⟩ := kills?_eq_some hkills'
  exact ⟨mission, mission', _, _, rfl, hload, hload', hv, hv', rfl, rfl, rfl, rfl⟩

end Mission

end MissionScript

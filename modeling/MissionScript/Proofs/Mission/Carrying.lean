import MissionScript.Proofs.Mission.Variables
import MissionScript.Proofs.Save.Record

/-!
What is carried over by one mission: from the records that it is loaded from, over its variables, to
the records that it is entered into.
-/

namespace MissionScript

/-- Whether a definition declares a name at most once, and only with this type and this scope. -/
def Definition.DeclaresAs (definition : Definition) (name : String) (type : VariableType)
    (scope : Scope) : Prop :=
  ∀ entry ∈ definition.declarations name,
    definition.declarations name = [entry] ∧ entry.type = type ∧ entry.scope = scope

section

variable {name : String} {type : VariableType} {scope : Scope} {present : Bool} {vars : Variables}

/-- Whether a store is in order and has a variable of a name just if it should, which then has a type
    and a scope. -/
structure Variables.Keeps (name : String) (type : VariableType) (scope : Scope) (present : Bool)
    (vars : Variables) : Prop where
  filed : vars.IsFiled
  isSome : (vars.get? name).isSome = present
  typed : ∀ v, vars.get? name = some v → v.type = type ∧ v.value.type = type ∧ v.scope = scope

theorem Variables.keptBySet_keeps : KeptBySet (Keeps name type scope present) := by
  intro vars other value after hset h
  obtain ⟨v, hv, htype, hafter⟩ := get?_set hset
  by_cases hname : foldName name = foldName other
  · have hfound : vars.get? name = some v := (get?_congr hname vars).trans hv
    have hchanged := hafter name
    rw [if_pos hname] at hchanged
    obtain ⟨hdeclared, -, hscope⟩ := h.typed v hfound
    refine ⟨h.filed.set hset, ?_, fun u hu => ?_⟩
    · rw [hchanged, ← h.isSome, hfound]
      rfl
    · rw [hchanged] at hu
      cases hu
      exact ⟨hdeclared, htype.symm.trans hdeclared, hscope⟩
  · have hsame := hafter name
    rw [if_neg hname] at hsame
    refine ⟨h.filed.set hset, ?_, fun u hu => ?_⟩
    · rw [hsame]
      exact h.isSome
    · rw [hsame] at hu
      exact h.typed u hu

/-- What is saved of a variable takes the place of what was carried under its name. -/
theorem Snapshot.Carries.merge {old new : Snapshot} {u : Option Variable}
    (h : old.Carries name scope u) (hvars : vars.Keeps name type scope present)
    (hplayer : new.player = mergeSaved old.player (vars.saved .player))
    (hcampaign : new.campaign = mergeSaved old.campaign (vars.saved .campaign)) :
    new.Carries name scope ((vars.get? name).or u) := by
  intro s hs
  have hmerged : new.ofScope s = mergeSaved (old.ofScope s) (vars.saved s) := by
    cases s with
    | mission => cases hs
    | player => exact hplayer
    | campaign => exact hcampaign
  have hupdates := hvars.filed.ofName_saved s name
  have hold := h s hs
  rw [hmerged]
  cases hfound : vars.get? name with
  | none =>
    rw [hfound] at hupdates
    rw [ofName_mergeSaved_of_nil hupdates, hold, Option.none_or]
  | some v =>
    obtain ⟨-, -, hscope⟩ := hvars.typed v hfound
    rw [hfound, Option.filter_some, hscope, hs, Bool.and_true] at hupdates
    by_cases hkeeper : s = scope
    · rw [if_pos hkeeper] at hold ⊢
      rw [if_pos (by simpa using hkeeper.symm)] at hupdates
      rw [ofName_mergeSaved hupdates, hold]
      cases u <;> rfl
    · rw [if_neg hkeeper] at hold ⊢
      rw [if_neg (by simpa using fun heq => hkeeper (Eq.symm heq))] at hupdates
      rw [ofName_mergeSaved_of_nil hupdates, hold]

end

section

variable {name : String} {type : VariableType} {scope : Scope}

/-- Whether a value can be carried over in a variable of a type. -/
structure Variable.IsCarriable (type : VariableType) (v : Variable) : Prop where
  declared : v.type = type
  typed : v.value.type = type
  finite : v.value.IsFinite

namespace Mission

variable {definition : Definition} {registry : Registry} {settings : Settings} {saved : Snapshot}
  {mission : Mission} {u : Option Variable}

/-- A variable starts from what is carried under its name. -/
theorem get?_load_carried (h : load definition registry settings saved = .ok mission)
    (hdeclares : definition.DeclaresAs name type scope) (hscope : scope.isPersistent = true)
    (hsaved : saved.Carries name scope u) (hu : ∀ v ∈ u, v.IsCarriable type)
    {entry : VariableEntry} (hentry : entry ∈ definition.declarations name) :
    entry.initial.type = type ∧
      mission.vars.get? name = some (entry.startAt ((u.map Variable.value).getD entry.initial)) := by
  obtain ⟨hone, rfl, rfl⟩ := hdeclares entry hentry
  refine get?_load h hone hscope hsaved fun v hv => ?_
  exact ⟨(hu v hv).declared, (hu v hv).typed, (hu v hv).finite⟩

theorem keeps_load (h : load definition registry settings saved = .ok mission)
    (hdeclares : definition.DeclaresAs name type scope) (hscope : scope.isPersistent = true)
    (hsaved : saved.Carries name scope u) (hu : ∀ v ∈ u, v.IsCarriable type) :
    mission.vars.Keeps name type scope (!(definition.declarations name).isEmpty) := by
  cases hdeclarations : definition.declarations name with
  | nil =>
    have hnone := get?_load_of_nil h hdeclarations
    exact ⟨isFiled_of_load h, by simp [hnone], by simp [hnone]⟩
  | cons entry rest =>
    have hentry : entry ∈ definition.declarations name := by simp [hdeclarations]
    obtain ⟨-, htype, hkeeper⟩ := hdeclares entry hentry
    obtain ⟨hinitial, hfound⟩ := get?_load_carried h hdeclares hscope hsaved hu hentry
    refine ⟨isFiled_of_load h, by simp [hfound], fun v hv => ?_⟩
    rw [hfound] at hv
    cases hv
    refine ⟨htype, ?_, hkeeper⟩
    cases u with
    | none => exact hinitial
    | some v => exact (hu v rfl).typed

/-- What is carried after a mission is its own variable, or what was carried before if it has none. -/
theorem carries_enter {p : PilotSave} {c : CampaignSave}
    (h : load definition registry settings ⟨p.vars, c.vars⟩ = .ok mission)
    (hdeclares : definition.DeclaresAs name type scope) (hscope : scope.isPersistent = true)
    (hsaved : Snapshot.Carries ⟨p.vars, c.vars⟩ name scope u) (hu : ∀ v ∈ u, v.IsCarriable type)
    {registry' : Registry} {settings' : Settings} {r : Run}
    (hrun : (Run.start mission registry' settings').Reaches r)
    (hfinite : ∀ v, r.mission.vars.get? name = some v → v.value.IsFinite) :
    (r.mission.vars.get? name).isSome = !(definition.declarations name).isEmpty ∧
      Snapshot.Carries ⟨(p.enter r.finish).vars, (c.enter r.finish).vars⟩ name scope
        ((r.mission.vars.get? name).or u) ∧
      ∀ v ∈ (r.mission.vars.get? name).or u, v.IsCarriable type := by
  have hkeeps := hrun.kept Variables.keptBySet_keeps (keeps_load h hdeclares hscope hsaved hu)
  refine ⟨hkeeps.isSome, hsaved.merge hkeeps ?_ ?_, fun v hv => ?_⟩
  · rw [PilotSave.enter, r.saved_finish]
  · rw [CampaignSave.enter, r.saved_finish]
  · rcases Option.or_eq_some_iff.1 hv with hv | ⟨-, hv⟩
    · obtain ⟨htype, hvalue, -⟩ := hkeeps.typed v hv
      exact ⟨htype, hvalue, hfinite v hv⟩
    · exact hu v hv

end Mission

end

end MissionScript

import MissionScript.Mission.Run
import MissionScript.Proofs.Evaluation.Ensures
import MissionScript.Proofs.Mission.Loading
import MissionScript.Proofs.Variable.Overlay

/-!
The variables of a mission, from its definition to its end. They are declared, and start from saved
values; after that, all that ever happens to them is that a formula stores a value in one of them, so
what storing a value keeps, a run keeps.
-/

namespace MissionScript

/-- The declarations of a name. -/
def Definition.declarations (definition : Definition) (name : String) : List VariableEntry :=
  definition.vars.filter fun entry => sameName entry.name name

/-- A variable with a value that it starts from. -/
def VariableEntry.startAt (entry : VariableEntry) (value : Stored) : Variable :=
  ⟨entry.name, entry.type, value, value, entry.scope⟩

/-- Whether what is saved under a name is this variable, for this scope and for no other one. -/
def Snapshot.Carries (saved : Snapshot) (name : String) (scope : Scope) (v : Option Variable) : Prop :=
  ∀ s, s.isPersistent = true → Saved.ofName name (saved.ofScope s) =
    if s = scope then v.toList.map Variables.save else []

namespace Mission

variable {entries : List VariableEntry} {vars declared : Variables} {name : String}
  {entry : VariableEntry}

theorem isFiled_declareAll (h : entries.foldlM declare vars = .ok declared) (hvars : vars.IsFiled) :
    declared.IsFiled := by
  refine foldlM_ok (fun vars entry after hdeclare hvars => ?_) h hvars
  exact Variables.IsFiled.declare hvars (mapError_eq_ok_iff.1 hdeclare)

theorem get?_declareAll_of_nil (h : entries.foldlM declare vars = .ok declared)
    (hnone : (entries.filter fun entry => sameName entry.name name) = []) :
    declared.get? name = vars.get? name := by
  induction entries generalizing vars with
  | nil =>
    cases h
    rfl
  | cons first rest ih =>
    obtain ⟨after, hfirst, hrest⟩ := foldlM_cons_eq_ok h
    rw [List.filter_cons] at hnone
    split at hnone
    · cases hnone
    · next hother =>
      rw [ih hrest hnone]
      exact Variables.get?_declare_of_ne (mapError_eq_ok_iff.1 hfirst) (foldName_ne hother)

/-- The one declaration of a name gives its variable the initial value, which has the declared
    type. -/
theorem get?_declareAll (h : entries.foldlM declare vars = .ok declared)
    (hone : (entries.filter fun entry => sameName entry.name name) = [entry])
    (hnew : vars.get? name = none) : entry.initial.type = entry.type ∧
      declared.get? name = some (entry.startAt entry.initial) := by
  induction entries generalizing vars with
  | nil => cases hone
  | cons first rest ih =>
    obtain ⟨after, hfirst, hrest⟩ := foldlM_cons_eq_ok h
    have hdeclare := mapError_eq_ok_iff.1 hfirst
    rw [List.filter_cons] at hone
    split at hone
    · next hsame =>
      obtain ⟨rfl, hnone⟩ := List.cons_eq_cons.1 hone
      have hname := Variables.get?_congr (sameName_iff.1 hsame)
      obtain ⟨htype, hfound⟩ := Variables.get?_declare hdeclare ((hname vars).trans hnew)
      refine ⟨htype, ?_⟩
      rw [get?_declareAll_of_nil hrest hnone, ← hname after, hfound]
      rfl
    · next hother =>
      apply ih hrest hone
      rw [Variables.get?_declare_of_ne hdeclare (foldName_ne hother)]
      exact hnew

section

variable {definition : Definition} {registry : Registry} {settings : Settings} {saved : Snapshot}
  {mission : Mission}

theorem overlay_eq (vars : Variables) (saved : Snapshot) :
    (overlay vars saved).1 = ((vars.applySaved saved.player).1.applySaved saved.campaign).1 := rfl

theorem isFiled_of_load (h : load definition registry settings saved = .ok mission) :
    mission.vars.IsFiled := by
  obtain ⟨declared, hdeclared, hvars, -⟩ := load_eq h
  rw [hvars, overlay_eq]
  have hfiled : declared.IsFiled := isFiled_declareAll hdeclared Variables.isFiled_empty
  exact (hfiled.applySaved saved.player).applySaved saved.campaign

/-- A mission has no variable of a name that it does not declare. -/
theorem get?_load_of_nil (h : load definition registry settings saved = .ok mission)
    (hnone : definition.declarations name = []) : mission.vars.get? name = none := by
  obtain ⟨declared, hdeclared, hvars, -⟩ := load_eq h
  rw [hvars, overlay_eq]
  apply Variables.get?_applySaved_of_none
  apply Variables.get?_applySaved_of_none
  exact get?_declareAll_of_nil hdeclared hnone

/-- A variable that is declared once starts from the value that is saved for it, or from its initial
    value if there is none. -/
theorem get?_load (h : load definition registry settings saved = .ok mission)
    (hone : definition.declarations name = [entry]) (hscope : entry.scope.isPersistent = true)
    {u : Option Variable} (hsaved : saved.Carries name entry.scope u)
    (hu : ∀ v ∈ u, v.type = entry.type ∧ v.value.type = entry.type ∧ v.value.IsFinite) :
    entry.initial.type = entry.type ∧
      mission.vars.get? name = some (entry.startAt ((u.map Variable.value).getD entry.initial)) := by
  obtain ⟨declared, hdeclared, hvars, -⟩ := load_eq h
  obtain ⟨hinitial, hfound⟩ := get?_declareAll hdeclared hone rfl
  refine ⟨hinitial, ?_⟩
  rw [hvars, overlay_eq]
  have hplayer : Saved.ofName name saved.player = _ := hsaved .player rfl
  have hcampaign : Saved.ofName name saved.campaign = _ := hsaved .campaign rfl
  cases u with
  | none =>
    simp only [Option.toList_none, List.map_nil, ite_self] at hplayer hcampaign
    rw [Variables.get?_applySaved_of_nil hcampaign, Variables.get?_applySaved_of_nil hplayer, hfound]
    rfl
  | some v =>
    obtain ⟨htype, hvalue, hfinite⟩ := hu v rfl
    have hstart {vars : Variables} {list : List Saved}
        (hlist : Saved.ofName name list = [Variables.save v])
        (hfound : vars.get? name = some (entry.startAt entry.initial)) :
        (vars.applySaved list).1.get? name = some (entry.startAt v.value) :=
      Variables.get?_applySaved_of_singleton hlist hfound hscope htype.symm
        (hvalue.trans htype.symm) hfinite
    cases hkeeper : entry.scope with
    | mission =>
      rw [hkeeper] at hscope
      cases hscope
    | player =>
      rw [hkeeper] at hplayer hcampaign
      rw [Variables.get?_applySaved_of_nil hcampaign]
      exact hstart hplayer hfound
    | campaign =>
      rw [hkeeper] at hplayer hcampaign
      apply hstart hcampaign
      rw [Variables.get?_applySaved_of_nil hplayer]
      exact hfound

end

end Mission

/-- Whether storing a value in a variable keeps a property of the store. -/
def Variables.KeptBySet (P : Variables → Prop) : Prop :=
  ∀ vars name value after, Variables.set vars name value = .ok after → P vars → P after

/-- The runs that a run can become tick by tick, in whatever game. -/
inductive Run.Reaches (start : Run) : Run → Prop where
  | refl : Reaches start start
  | tick {H : Type} [Host H] {r : Run} (h : Reaches start r) (host : H) :
    Reaches start (r.tick host).run

section

variable {H : Type} [Host H] {P : Variables → Prop}

theorem preserves_evaluate_vars (hP : Variables.KeptBySet P) (registry : Registry) (formula : String)
    (root : Node) : Preserves (fun env : Env H => P env.vars) (evaluate registry formula root) := by
  have hstable : Env.Stable fun env : Env H => P env.vars := by
    intro env env' heffect henv
    rcases heffect.vars with hvars | ⟨name, value, hset⟩
    · rw [hvars]
      exact henv
    · exact hP _ name value _ hset henv
  exact preserves_evaluate hstable.steady (fun _ _ henv => henv) registry formula root

omit [Host H] in
theorem preserves_ledger (f : Ledger → Ledger) : Preserves (fun env : Env H => P env.vars)
    (modify fun env => { env with ledger := f env.ledger }) :=
  ensures_modify fun _ henv => henv

theorem Schedule.preserves_turn (hP : Variables.KeptBySet P) (registry : Registry) (now : Float)
    (s : Schedule) (i : Nat) : Preserves (fun env : Env H => P env.vars) (s.turn registry now i) := by
  unfold turn
  split
  · exact ensures_pure trivial
  · next e _ =>
    split
    · exact ensures_pure trivial
    · exact ensures_pure trivial
    · refine (preserves_evaluate_vars hP registry _ _).bind fun value _ => ?_
      exact (preserves_ledger (e.book now value.truth)).bind fun _ _ => ensures_pure trivial

theorem Schedule.preserves_turns (hP : Variables.KeptBySet P) (registry : Registry) (now : Float)
    (s : Schedule) (places : List Nat) :
    Preserves (fun env : Env H => P env.vars) (s.turns registry now places) := by
  induction places generalizing s with
  | nil => exact ensures_pure trivial
  | cons i rest ih =>
    refine (preserves_turn hP registry now s i).bind fun turned _ => ?_
    exact (ih turned.1).bind fun _ _ => ensures_pure trivial

theorem Goal.preserves_attempt (hP : Variables.KeptBySet P) (registry : Registry) (now : Float)
    (g : Goal) : Preserves (fun env : Env H => P env.vars) (g.attempt registry now) := by
  unfold attempt
  split
  · refine (preserves_evaluate_vars hP registry _ _).bind fun value _ => ?_
    split
    · exact ensures_pure trivial
    · next status _ =>
      exact (preserves_ledger (·.goalChanged g.name status now)).bind fun _ _ => ensures_pure trivial
  · exact ensures_pure trivial

theorem Goal.preserves_attemptAll (hP : Variables.KeptBySet P) (registry : Registry) (now : Float)
    (goals : List Goal) :
    Preserves (fun env : Env H => P env.vars) (attemptAll registry now goals) := by
  induction goals with
  | nil => exact ensures_pure trivial
  | cons g rest ih =>
    refine (preserves_attempt hP registry now g).bind fun _ _ => ?_
    exact ih.bind fun _ _ => ensures_pure trivial

theorem Tracker.preserves_tick (hP : Variables.KeptBySet P) (registry : Registry) (t : Tracker) :
    Preserves (fun env : Env H => P env.vars) (t.tick registry) := by
  refine ensures_get.bind fun env _ => ?_
  have hobey : Preserves (fun env : Env H => P env.vars) (t.obey (Host.time env.host)) :=
    ensures_modifyGet fun _ henv => ⟨trivial, henv⟩
  refine hobey.bind fun changed _ => ?_
  refine (Goal.preserves_attemptAll hP registry _ changed.1.goals).bind fun _ _ => ?_
  exact ensures_pure trivial

namespace Run

theorem kept_tick (hP : Variables.KeptBySet P) {r : Run} (h : P r.mission.vars) (host : H) :
    P (r.tick host).run.mission.vars := by
  have hevents : Preserves (fun env : Env H => P env.vars) (r.mission.schedule.tick r.registry) :=
    ensures_get.bind fun _ _ => Schedule.preserves_turns hP r.registry _ _ _
  have henv := (hevents (Env.start host r.mission.vars r.mission.ledger #[]) h).2
  exact (Tracker.preserves_tick hP r.registry r.mission.tracker _ henv).2

/-- What storing a value keeps, any number of ticks keeps. -/
theorem Reaches.kept (hP : Variables.KeptBySet P) {start r : Run} (h : start.Reaches r)
    (hstart : P start.mission.vars) : P r.mission.vars := by
  induction h with
  | refl => exact hstart
  | tick _ host ih => exact kept_tick hP ih host

/-- The end of a mission saves the variables as they are. -/
theorem saved_finish (r : Run) :
    r.finish.saved = ⟨r.mission.vars.saved .player, r.mission.vars.saved .campaign⟩ := by
  unfold finish resolve summary
  cases r.failsOpen <;> rfl

end Run

end

end MissionScript

import MissionScript.Proofs.Variable.Soundness

/-!
The history of a store. Whatever is done to it from its start on, it is sound, and what is refused changes
nothing.
-/

namespace MissionScript

/-- Something that is done to a store. -/
inductive VariableCall where
  | declare (name : String) (type : VariableType) (initial : Stored) (scope : Scope)
  | set (name : String) (value : Stored)
  | setValue (name : String) (value : Value)
  | applySaved (saved : List Saved)
  | reset
  | endMission

namespace VariableCall

/-- What comes of a call: another store, or the reason why it is refused. -/
def make (call : VariableCall) (vars : Variables) : Except VariableError Variables :=
  match call with
  | .declare name type initial scope => vars.declare name type initial scope
  | .set name value => vars.set name value
  | .setValue name value => vars.setValue name value
  | .applySaved saved => .ok (vars.applySaved saved).1
  | .reset => .ok vars.reset
  | .endMission => .ok vars.endMission.2

/-- The store after a call. -/
def run (call : VariableCall) (vars : Variables) : Variables :=
  match call.make vars with
  | .ok after => after
  | .error _ => vars

/-- The store after some calls, the first of which is made to an empty one. -/
def runAll (calls : List VariableCall) : Variables :=
  calls.foldl (fun vars call => call.run vars) .empty

/-- Whether there is a reason to refuse a call. A variable is declared again with its own type only, and
    holds values of this type only; a value that is unknown has none. -/
def IsRefused (call : VariableCall) (vars : Variables) : Prop :=
  match call with
  | .declare name type initial _ =>
    initial.type ≠ type ∨ ∃ v, vars.get? name = some v ∧ v.type ≠ type
  | .set name value => ∀ v, vars.get? name = some v → v.type ≠ value.type
  | .setValue name value =>
    ∀ stored v, Stored.ofValue? value = some stored → vars.get? name = some v → v.type ≠ stored.type
  | .applySaved _ | .reset | .endMission => False

theorem set_refused_iff {vars : Variables} {name : String} {value : Stored} :
    (∃ e, vars.set name value = .error e) ↔
      ∀ v, vars.get? name = some v → v.type ≠ value.type := by
  unfold Variables.set
  split
  · next hnone => simp [hnone]
  · next v hv =>
    by_cases htype : v.type = value.type
    · simp [hv, htype]
    · simp [hv, htype]

/-- A call is refused exactly if there is a reason. -/
theorem refused_iff (call : VariableCall) (vars : Variables) :
    (∃ e, call.make vars = .error e) ↔ call.IsRefused vars := by
  cases call with
  | declare name type initial scope =>
    change (∃ e, vars.declare name type initial scope = .error e) ↔ _ ∨ _
    unfold Variables.declare
    by_cases htype : initial.type = type
    · cases hv : vars.get? name with
      | none => simp [htype]
      | some v => by_cases hsame : v.type = type <;> simp [htype, hsame]
    · simp [htype]
  | set name value => exact set_refused_iff
  | setValue name value =>
    change (∃ e, vars.setValue name value = .error e) ↔ ∀ stored v, _ → _ → _
    unfold Variables.setValue
    cases hstored : Stored.ofValue? value with
    | none => cases vars.get? name <;> simp
    | some stored =>
      rw [set_refused_iff]
      exact ⟨fun h stored' v hstored' => by cases hstored'; exact h v, fun h v => h stored v rfl⟩
  | applySaved | reset | endMission =>
    refine ⟨?_, False.elim⟩
    rintro ⟨_, h⟩
    cases h

theorem run_of_refused {call : VariableCall} {vars : Variables} (h : call.IsRefused vars) :
    call.run vars = vars := by
  obtain ⟨e, he⟩ := (call.refused_iff vars).2 h
  rw [run, he]

theorem isSound_run (call : VariableCall) {vars : Variables} (h : vars.IsSound) :
    (call.run vars).IsSound := by
  cases hmake : call.make vars with
  | error e =>
    rw [run, hmake]
    exact h
  | ok after =>
    rw [run, hmake]
    cases call with
    | declare => exact h.declare hmake
    | set => exact h.set hmake
    | setValue =>
      obtain ⟨stored, -, hset⟩ := Variables.exists_set_of_setValue hmake
      exact h.set hset
    | applySaved saved =>
      cases hmake
      exact h.applySaved saved
    | reset =>
      cases hmake
      exact h.reset
    | endMission =>
      cases hmake
      exact h.filter fun v => v.scope.isPersistent

theorem runAll_concat (calls : List VariableCall) (call : VariableCall) :
    runAll (calls ++ [call]) = call.run (runAll calls) :=
  List.foldl_concat ..

theorem isSound_runAll (calls : List VariableCall) : (runAll calls).IsSound :=
  List.foldlRecOn calls _ Variables.isSound_empty fun _ hvars call _ => call.isSound_run hvars

/-- A call leaves a variable its type, unless it ends the mission of the variable. -/
theorem type_run {call : VariableCall} {vars : Variables} (h : vars.IsSound) {name : String}
    {v w : Variable} (hv : vars.get? name = some v) (hw : (call.run vars).get? name = some w) :
    w.type = v.type := by
  cases hmake : call.make vars with
  | error e =>
    rw [run, hmake] at hw
    rw [Option.some.inj (hv.symm.trans hw)]
  | ok after =>
    rw [run, hmake] at hw
    have hset {other : String} {value : Stored} (hset : vars.set other value = .ok after) :
        w.type = v.type := by
      obtain ⟨u, hu, -, hafter⟩ := Variables.get?_set hset
      rw [hafter] at hw
      split at hw
      · next hname =>
        cases hw
        rw [Option.some.inj (hu.symm.trans ((Variables.get?_congr hname vars).symm.trans hv))]
      · rw [Option.some.inj (hv.symm.trans hw)]
    cases call with
    | declare other type initial scope =>
      by_cases hname : foldName name = foldName other
      · rw [Variables.get?_congr hname] at hv hw
        rw [(Variables.get?_declare_again hmake hv).2.2] at hw
        cases hw
        rfl
      · rw [Variables.get?_declare_of_ne hmake hname, hv] at hw
        rw [Option.some.inj hw]
    | set => exact hset hmake
    | setValue =>
      obtain ⟨stored, -, hmake⟩ := Variables.exists_set_of_setValue hmake
      exact hset hmake
    | applySaved saved =>
      cases hmake
      rw [Variables.get?_applySaved hv] at hw
      cases hw
      cases v.startValue? name saved <;> rfl
    | reset =>
      cases hmake
      rw [Variables.get?, Variables.reset, Table.find?_map, show vars.find? _ = _ from hv] at hw
      cases hw
      rfl
    | endMission =>
      cases hmake
      rw [Variables.get?, Variables.endMission, Table.find?_filter h.distinct] at hw
      rw [Option.some.inj (hv.symm.trans (Option.filter_eq_some_iff.1 hw).1)]

/-- A variable has the same type as long as it is declared. -/
theorem type_runAll {before later : List VariableCall} {name : String} {v w : Variable}
    (hv : (runAll before).get? name = some v)
    (hdeclared : ∀ between, between <+: later → (runAll (before ++ between)).declares name = true)
    (hw : (runAll (before ++ later)).get? name = some w) : w.type = v.type := by
  induction later using List.reverseRecOn generalizing w with
  | nil =>
    rw [List.append_nil] at hw
    rw [Option.some.inj (hv.symm.trans hw)]
  | append_singleton rest call ih =>
    obtain ⟨u, hu⟩ := Option.isSome_iff_exists.1 (hdeclared rest (List.prefix_append rest [call]))
    rw [← List.append_assoc, runAll_concat] at hw
    refine (type_run (isSound_runAll _) hu hw).trans (ih (fun between hbetween => ?_) hu)
    exact hdeclared between (hbetween.trans (List.prefix_append rest [call]))

end VariableCall

namespace Variables

variable {vars vars' : Variables}

theorem nodup_names (h : vars.IsFiled) : (vars.values.map fun v => foldName v.name).Nodup := by
  have hkeys : vars.values.map (fun v => foldName v.name) = vars.keys := by
    rw [Table.values, List.map_map]
    exact List.map_congr_left fun entry hentry => (h.filed entry hentry).symm
  rw [hkeys]
  exact h.distinct

/-- What is saved of a scope is in the order of the names, which are different ones. -/
theorem pairwise_saved (h : vars.IsFiled) (scope : Scope) :
    (vars.saved scope).Pairwise fun a b => a.name < b.name := by
  have hordered : (vars.saved scope).Pairwise fun a b => decide (a.name ≤ b.name) = true := by
    unfold saved
    refine List.pairwise_mergeSort (fun a b c hab hbc => ?_) (fun a b => ?_) _
    · exact decide_eq_true (String.le_trans (of_decide_eq_true hab) (of_decide_eq_true hbc))
    · rw [Bool.or_eq_true, decide_eq_true_eq, decide_eq_true_eq]
      exact String.le_total a.name b.name
  have hdistinct : (vars.saved scope).Pairwise fun a b => a.name ≠ b.name := by
    rw [← List.pairwise_map (f := Saved.name)]
    refine List.Nodup.of_map foldName ?_
    rw [List.map_map]
    refine ((List.mergeSort_perm _ _).map _).nodup_iff.2 ?_
    rw [List.map_map]
    exact (nodup_names h).sublist (List.filter_sublist.map _)
  refine (hordered.and hdistinct).imp fun ⟨hle, hne⟩ => ?_
  by_contra hlt
  exact hne (String.le_antisymm (of_decide_eq_true hle) (String.not_lt.1 hlt))

theorem IsFiled.of_perm (h : vars.IsFiled) (hperm : vars'.entries.Perm vars.entries) : vars'.IsFiled where
  distinct := (hperm.map _).nodup_iff.2 h.distinct
  filed entry hentry := h.filed entry (hperm.mem_iff.1 hentry)

/-- The order in which variables are filed is not seen in what is saved. -/
theorem saved_of_perm (h : vars.IsFiled) (hperm : vars'.entries.Perm vars.entries) (scope : Scope) :
    vars'.saved scope = vars.saved scope := by
  refine List.Perm.eq_of_pairwise (fun a b _ _ hab hba => ?_) (pairwise_saved (h.of_perm hperm) scope)
    (pairwise_saved h scope) ?_
  · exact absurd (String.lt_trans hab hba) (String.lt_irrefl _)
  · refine ((List.mergeSort_perm _ _).trans ?_).trans (List.mergeSort_perm _ _).symm
    exact (((hperm.map _).filter _).map _)

/-- What using saved values does to a store. -/
structure StartsFrom (vars : Variables) (saved : List Saved) : Prop where
  count : (vars.applySaved saved).2.1 = saved.countP vars.uses
  /-- the last value of its name that a variable can hold is its value and its initial value -/
  started : ∀ name, (vars.applySaved saved).1.get? name =
    (vars.get? name).map fun v => v.startFrom (v.startValue? name saved)
  /-- only variables that outlive a mission and are named are changed -/
  others : ∀ name v, vars.get? name = some v →
    (v.scope.isPersistent = false ∨ ∀ s ∈ saved, sameName s.name name = false) →
    (vars.applySaved saved).1.get? name = some v
  /-- using the same values again does the same, and it changes nothing more -/
  again : (vars.applySaved saved).1.applySaved saved = vars.applySaved saved

/-- What the end of a mission does to a store. -/
structure EndsMission (vars : Variables) : Prop where
  /-- a variable is saved once, for its own scope, if it outlives the mission -/
  saved : ∀ scope name, Saved.ofName name (vars.endMission.1.ofScope scope) =
    ((vars.get? name).filter fun v => v.scope == scope && scope.isPersistent).toList.map save
  sorted : ∀ scope, (vars.endMission.1.ofScope scope).Pairwise fun a b => a.name < b.name
  /-- the order in which variables are filed makes no difference -/
  order : ∀ vars' : Variables, vars'.entries.Perm vars.entries →
    vars'.endMission.1 = vars.endMission.1
  rest : ∀ name, vars.endMission.2.get? name = (vars.get? name).filter fun v => v.scope.isPersistent

theorem IsFiled.startsFrom (h : vars.IsFiled) (saved : List Saved) : vars.StartsFrom saved where
  count := congrArg Prod.fst (applySaved_snd vars saved)
  started name := by
    cases hv : vars.get? name with
    | none => exact get?_applySaved_of_none hv
    | some v => exact get?_applySaved hv
  others name v hv hother := by
    rcases hother with hscope | hnamed
    · have hread : v.read? = fun _ => none := by
        funext s
        exact if_neg fun hholds => by simp [hscope] at hholds
      rw [get?_applySaved hv, Variable.startValue?, hread, List.filterMap_none]
      rfl
    · have hnone : Saved.ofName name saved = [] :=
        List.filter_eq_nil_iff.2 fun s hs => by simp [hnamed s hs]
      rw [get?_applySaved_of_nil hnone, hv]
  again := h.applySaved_again saved

theorem ofScope_endMission (vars : Variables) (scope : Scope) :
    vars.endMission.1.ofScope scope = vars.saved scope := by
  cases scope with
  | mission =>
    have hnone : vars.values.filter (fun v => v.scope == Scope.mission && Scope.mission.isPersistent) = [] :=
      List.filter_eq_nil_iff.2 fun v _ => by simp [Scope.isPersistent]
    rw [Variables.saved, hnone, List.map_nil, List.mergeSort_nil]
    rfl
  | player | campaign => rfl

theorem IsFiled.endsMission (h : vars.IsFiled) : vars.EndsMission where
  saved scope name := by
    rw [ofScope_endMission]
    exact h.ofName_saved scope name
  sorted scope := by
    rw [ofScope_endMission]
    exact pairwise_saved h scope
  order vars' hperm := by
    rw [endMission, endMission, saved_of_perm h hperm, saved_of_perm h hperm]
  rest name := Table.find?_filter h.distinct _ _

end Variables

/-- Whatever has been done to a store, it is sound: every variable is filed under its own name and holds
    values of its type, and its type stays the same as long as it is declared. What is refused, for a
    reason, changes nothing. Saved values start the variables that they are for, once and for all; and the
    end of a mission saves the variables that outlive it, and keeps these only. -/
theorem VariableCall.history_sound (calls : List VariableCall) :
    let vars := runAll calls
    vars.IsSound ∧
      (∀ later name v w, vars.get? name = some v →
        (∀ between, between <+: later → (runAll (calls ++ between)).declares name = true) →
        (runAll (calls ++ later)).get? name = some w → w.type = v.type) ∧
      (∀ call : VariableCall, ((∃ e, call.make vars = .error e) ↔ call.IsRefused vars) ∧
        (call.IsRefused vars → call.run vars = vars)) ∧
      (∀ saved, vars.StartsFrom saved) ∧ vars.EndsMission := by
  intro vars
  have hsound : vars.IsSound := isSound_runAll calls
  refine ⟨hsound, fun _ _ _ _ hv hdeclared hw => type_runAll hv hdeclared hw, fun call => ?_,
    hsound.startsFrom, hsound.endsMission⟩
  exact ⟨call.refused_iff vars, run_of_refused⟩

end MissionScript

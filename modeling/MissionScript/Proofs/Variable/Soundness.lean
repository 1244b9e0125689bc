import MissionScript.Proofs.Variable.Start
import Mathlib.Data.List.Nodup

/-!
Sound stores: every variable is filed under its own name and holds values of its own type. No operation
on a store breaks this.
-/

namespace MissionScript

/-- Whether a variable holds values of its own type. -/
def Variable.IsTyped (v : Variable) : Prop :=
  v.value.type = v.type ∧ v.initial.type = v.type

namespace Variables

/-- Whether every variable is filed under its own name and holds values of its own type. -/
structure IsSound (vars : Variables) : Prop extends IsFiled vars where
  typed : ∀ v ∈ vars.values, v.IsTyped

variable {vars after : Variables} {name : String} {v : Variable}

theorem mem_values_of_get? (h : vars.get? name = some v) : v ∈ vars.values := by
  obtain ⟨before, rest, hentries, -⟩ := List.lookup_eq_some_iff.1 h
  have hmem : (foldName name, v) ∈ vars.entries := by
    rw [hentries]
    exact List.mem_append_right _ List.mem_cons_self
  exact List.mem_map_of_mem hmem

theorem isSound_empty : IsSound .empty :=
  { isFiled_empty with typed := nofun }

/-- A change to a variable keeps the store sound, if the variable is still well typed under its own
    name. -/
theorem IsSound.modify (h : vars.IsSound) (key : String) {f : Variable → Variable}
    (hname : ∀ v, (f v).name = v.name) (htyped : ∀ v, vars.find? key = some v → (f v).IsTyped) :
    IsSound (Table.modify vars key f) := by
  refine { h.toIsFiled.modify key hname with typed := fun v hv => ?_ }
  obtain ⟨entry, hentry, rfl⟩ := List.mem_map.1 hv
  obtain ⟨w, hmem, heq | ⟨hkey, heq⟩⟩ := Table.mem_modify hentry
  · rw [heq]
    exact h.typed w (List.mem_map_of_mem hmem)
  · rw [heq]
    refine htyped w ?_
    -- no other variable is filed under this key
    obtain ⟨before, rest, hentries⟩ := List.append_of_mem hmem
    have hdistinct := h.distinct
    rw [Table.keys, hentries, List.map_append, List.map_cons, List.nodup_middle, List.nodup_cons,
      List.mem_append, not_or] at hdistinct
    refine List.lookup_eq_some_iff.2 ⟨before, rest, hkey ▸ hentries, fun p hp => ?_⟩
    refine bne_iff_ne.2 fun heq => hdistinct.1.1 ?_
    rw [hkey, heq]
    exact List.mem_map_of_mem hp

theorem IsSound.insert (h : vars.IsSound) (v : Variable) (hv : v.IsTyped) :
    IsSound (Table.insert vars (foldName v.name) v) := by
  refine { h.toIsFiled.insert v with typed := fun w hw => ?_ }
  obtain ⟨entry, hentry, rfl⟩ := List.mem_map.1 hw
  rcases Table.mem_insert hentry with hmem | rfl
  · exact h.typed _ (List.mem_map_of_mem hmem)
  · exact hv

theorem IsSound.declare (h : vars.IsSound) {type : VariableType} {initial : Stored} {scope : Scope}
    (hdeclare : vars.declare name type initial scope = .ok after) : after.IsSound := by
  unfold Variables.declare at hdeclare
  split at hdeclare
  · cases hdeclare
  · next htype =>
    have htype : initial.type = type := by simpa using htype
    split at hdeclare
    · cases hdeclare
      exact h.insert ⟨name, type, initial, initial, scope⟩ ⟨htype, htype⟩
    · next v hv =>
      split at hdeclare
      · cases hdeclare
      · next hsame =>
        cases hdeclare
        refine h.modify _ (fun _ => rfl) fun w hw => ?_
        obtain rfl := Option.some.inj (hv.symm.trans hw)
        exact ⟨(h.typed v (mem_values_of_get? hv)).1, htype.trans (not_not.1 hsame).symm⟩

theorem IsSound.set (h : vars.IsSound) {value : Stored} (hset : vars.set name value = .ok after) :
    after.IsSound := by
  obtain ⟨v, hv, htype, rfl⟩ := eq_modify_of_set hset
  refine h.modify _ (fun _ => rfl) fun w hw => ?_
  obtain rfl := Option.some.inj (hv.symm.trans hw)
  exact ⟨htype.symm, (h.typed v (mem_values_of_get? hv)).2⟩

theorem IsSound.reset (h : vars.IsSound) : vars.reset.IsSound where
  distinct := by
    rw [Variables.reset, Table.keys_map]
    exact h.distinct
  filed entry hentry := by
    obtain ⟨first, hfirst, rfl⟩ := List.mem_map.1 hentry
    exact h.filed first hfirst
  typed v hv := by
    obtain ⟨entry, hentry, rfl⟩ := List.mem_map.1 hv
    obtain ⟨first, hfirst, rfl⟩ := List.mem_map.1 hentry
    have htyped := h.typed first.2 (List.mem_map_of_mem hfirst)
    exact ⟨htyped.2, htyped.2⟩

theorem IsSound.filter (h : vars.IsSound) (keep : Variable → Bool) : IsSound (Table.filter vars keep) where
  distinct := h.distinct.sublist (List.filter_sublist.map _)
  filed entry hentry := h.filed entry (List.mem_filter.1 hentry).1
  typed v hv := by
    obtain ⟨entry, hentry, rfl⟩ := List.mem_map.1 hv
    exact h.typed entry.2 (List.mem_map_of_mem (List.mem_filter.1 hentry).1)

theorem IsSound.start (h : vars.IsSound) (saved : Saved) : (vars.start saved).IsSound := by
  unfold Variables.start
  split
  · next value hoverlay =>
    obtain ⟨v, hv, hread⟩ := overlay_eq_applied_iff.1 hoverlay
    have htype := Variable.type_of_read? hread
    refine h.modify _ (fun _ => rfl) fun w hw => ?_
    obtain rfl := Option.some.inj (hv.symm.trans hw)
    exact ⟨htype, htype⟩
  all_goals exact h

theorem IsSound.applySaved (h : vars.IsSound) (saved : List Saved) : (vars.applySaved saved).1.IsSound := by
  rw [applySaved_eq]
  exact List.foldlRecOn saved Variables.start h fun vars hvars first _ => hvars.start first

end Variables

end MissionScript

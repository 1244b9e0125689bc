import MissionScript.Variable.Store
import Mathlib.Data.List.Nodup
import Mathlib.Tactic.Common

/-!
What is found in a store of variables after an operation on it. A store keeps its variables under
their own names.
-/

namespace MissionScript

namespace Table

variable {κ α : Type} [DecidableEq κ] {t t' : Table κ α}

theorem mem_modify {k : κ} {f : α → α} {entry : κ × α} (h : entry ∈ (t.modify k f).entries) :
    ∃ a, (entry.1, a) ∈ t.entries ∧ (entry.2 = a ∨ entry.1 = k ∧ entry.2 = f a) := by
  obtain ⟨⟨key, a⟩, hmem, rfl⟩ := List.mem_map.1 h
  dsimp only
  split
  · next hk => exact ⟨a, hk ▸ hmem, Or.inr ⟨rfl, rfl⟩⟩
  · exact ⟨a, hmem, Or.inl rfl⟩

theorem mem_insert {k : κ} {a : α} {entry : κ × α} (h : entry ∈ (t.insert k a).entries) :
    entry ∈ t.entries ∨ entry = (k, a) := by
  obtain ⟨key, b⟩ := entry
  obtain ⟨c, hmem, hb⟩ := mem_modify h
  rcases hb with rfl | ⟨rfl, rfl⟩
  · unfold insertNew at hmem
    split at hmem
    · exact Or.inl hmem
    · rcases List.mem_append.1 hmem with hmem | hmem
      · exact Or.inl hmem
      · exact Or.inr (List.mem_singleton.1 hmem)
  · exact Or.inr rfl

theorem find?_filter (h : t.keys.Nodup) (keep : α → Bool) (k : κ) :
    (t.filter keep).find? k = (t.find? k).filter keep := by
  obtain ⟨entries⟩ := t
  simp only [filter, find?]
  induction entries with
  | nil => rfl
  | cons entry rest ih =>
    obtain ⟨key, a⟩ := entry
    obtain ⟨hnew, hrest⟩ := List.nodup_cons.1 h
    have ih := ih hrest
    by_cases hk : k = key
    · subst hk
      have hnone : rest.lookup k = none := find?_eq_none_iff.2 hnew
      rw [hnone] at ih
      cases hkeep : keep a <;> simp [hkeep, ih, Option.filter_some]
    · cases hkeep : keep a <;> simp [List.lookup_cons, hkeep, ih, beq_false_of_ne hk]

/-- Tables are the same if they have the same entries under the same keys. -/
theorem ext_of_find? (hkeys : t'.keys = t.keys) (hdistinct : t.keys.Nodup)
    (hfind : ∀ k ∈ t.keys, t'.find? k = t.find? k) : t' = t := by
  obtain ⟨entries⟩ := t
  obtain ⟨entries'⟩ := t'
  simp only [keys, find?] at hkeys hdistinct hfind
  congr 1
  induction entries generalizing entries' with
  | nil => exact List.map_eq_nil_iff.1 hkeys
  | cons entry rest ih =>
    obtain ⟨key, a⟩ := entry
    obtain ⟨⟨key', a'⟩, rest', rfl, hkey, hrest⟩ := List.map_eq_cons_iff.1 hkeys
    obtain rfl : key' = key := hkey
    obtain ⟨hnew, hdistinct⟩ := List.nodup_cons.1 hdistinct
    have hhere := hfind key' List.mem_cons_self
    simp only [List.lookup_cons, beq_self_eq_true, Option.some.injEq] at hhere
    rw [hhere, ih hdistinct rest' hrest]
    intro k hk
    have hne : k ≠ key' := fun heq => hnew (heq ▸ hk)
    have hthere := hfind k (List.mem_cons_of_mem _ hk)
    simpa only [List.lookup_cons, beq_false_of_ne hne] using hthere

end Table

theorem foldName_ne {name other : String} (h : ¬ sameName name other = true) :
    foldName other ≠ foldName name := by
  rw [sameName_iff] at h
  exact fun heq => h heq.symm

namespace Variables

variable {vars : Variables}

theorem get?_congr {name other : String} (h : foldName other = foldName name) (vars : Variables) :
    vars.get? other = vars.get? name := by
  rw [get?, h]
  rfl

/-- Whether every variable is filed under its own name, and no two under the same. -/
structure IsFiled (vars : Variables) : Prop where
  distinct : vars.keys.Nodup
  filed : ∀ entry ∈ vars.entries, entry.1 = foldName entry.2.name

theorem isFiled_empty : IsFiled .empty :=
  ⟨List.nodup_nil, nofun⟩

/-- The variables of a name are the one that is found. -/
theorem IsFiled.filter_values (h : vars.IsFiled) (name : String) :
    vars.values.filter (fun v => sameName v.name name) = (vars.get? name).toList := by
  obtain ⟨entries⟩ := vars
  induction entries with
  | nil => rfl
  | cons entry rest ih =>
    obtain ⟨key, v⟩ := entry
    obtain ⟨hdistinct, hfiled⟩ := h
    obtain ⟨hnew, hrest⟩ := List.nodup_cons.1 hdistinct
    obtain ⟨hkey, hothers⟩ := List.forall_mem_cons.1 hfiled
    have ih := ih ⟨hrest, hothers⟩
    dsimp only at hkey
    simp only [get?, Table.find?, Table.values, List.map_cons, List.lookup_cons] at ih ⊢
    by_cases hname : foldName name = key
    · have hnone : rest.lookup (foldName name) = none := by
        rw [hname]
        exact Table.find?_eq_none_iff.2 hnew
      rw [hnone] at ih
      have hsame : sameName v.name name = true := by rw [sameName_iff, ← hkey, hname]
      simp [hsame, ih, hname]
    · have hother : sameName v.name name = false := by
        rw [← Bool.not_eq_true, sameName_iff, ← hkey]
        exact fun heq => hname heq.symm
      simp [hother, ih, beq_false_of_ne hname]

theorem IsFiled.modify (h : vars.IsFiled) (key : String) {f : Variable → Variable}
    (hf : ∀ v, (f v).name = v.name) : IsFiled (Table.modify vars key f) := by
  refine ⟨by simpa using h.distinct, fun entry hentry => ?_⟩
  obtain ⟨v, hmem, hv⟩ := Table.mem_modify hentry
  have hkey := h.filed _ hmem
  rcases hv with hv | ⟨-, hv⟩
  · rw [hv]
    exact hkey
  · rw [hv, hf]
    exact hkey

theorem IsFiled.insert (h : vars.IsFiled) (v : Variable) :
    IsFiled (Table.insert vars (foldName v.name) v) := by
  constructor
  · rw [Table.insert, Table.update, Table.keys_modify]
    exact Table.nodup_keys_insertNew h.distinct _ _
  · intro entry hentry
    rcases Table.mem_insert hentry with hentry | rfl
    · exact h.filed entry hentry
    · rfl

section

variable {name : String} {type : VariableType} {initial : Stored} {scope : Scope} {after : Variables}

theorem IsFiled.declare (h : vars.IsFiled)
    (hdeclare : vars.declare name type initial scope = .ok after) : after.IsFiled := by
  unfold Variables.declare at hdeclare
  split at hdeclare
  · cases hdeclare
  · split at hdeclare
    · cases hdeclare
      exact h.insert ⟨name, type, initial, initial, scope⟩
    · split at hdeclare
      · cases hdeclare
      · cases hdeclare
        exact h.modify _ fun _ => rfl

/-- A declaration concerns no other variable. -/
theorem get?_declare_of_ne (hdeclare : vars.declare name type initial scope = .ok after)
    {other : String} (hother : foldName other ≠ foldName name) : after.get? other = vars.get? other := by
  unfold Variables.declare at hdeclare
  split at hdeclare
  · cases hdeclare
  · split at hdeclare
    · cases hdeclare
      rw [get?, Table.find?_insert, if_neg hother]
      rfl
    · split at hdeclare
      · cases hdeclare
      · cases hdeclare
        rw [get?, Table.find?_modify, if_neg hother]
        rfl

/-- A first declaration gives a variable its initial value, which has the declared type. -/
theorem get?_declare (hdeclare : vars.declare name type initial scope = .ok after)
    (hnew : vars.get? name = none) : initial.type = type ∧
      after.get? name = some ⟨name, type, initial, initial, scope⟩ := by
  unfold Variables.declare at hdeclare
  split at hdeclare
  · cases hdeclare
  · next htype =>
    rw [hnew] at hdeclare
    cases hdeclare
    refine ⟨by simpa using htype, ?_⟩
    rw [get?, Table.find?_insert, if_pos rfl]

/-- A second declaration is of the same type, and leaves the value alone. -/
theorem get?_declare_again (hdeclare : vars.declare name type initial scope = .ok after) {v : Variable}
    (hv : vars.get? name = some v) : v.type = type ∧ initial.type = type ∧
      after.get? name = some { v with initial, scope } := by
  unfold Variables.declare at hdeclare
  split at hdeclare
  · cases hdeclare
  · next htype =>
    rw [hv] at hdeclare
    dsimp only at hdeclare
    split at hdeclare
    · cases hdeclare
    · next hsame =>
      cases hdeclare
      refine ⟨not_not.1 hsame, not_not.1 htype, ?_⟩
      rw [get?, Table.find?_modify, if_pos rfl, show vars.find? _ = _ from hv]
      rfl

end

/-- A value is stored in the variable of the name, which must have its type. -/
theorem eq_modify_of_set {name : String} {value : Stored} {after : Variables}
    (hset : vars.set name value = .ok after) : ∃ v, vars.get? name = some v ∧
      v.type = value.type ∧ after = Table.modify vars (foldName name) fun v => { v with value } := by
  unfold set at hset
  split at hset
  · cases hset
  · next v hv =>
    split at hset
    · cases hset
    · next htype => exact ⟨v, hv, by simpa using htype, (Except.ok.inj hset).symm⟩

/-- A value that a formula evaluated to is stored as what can be stored of it. -/
theorem exists_set_of_setValue {name : String} {value : Value} {after : Variables}
    (hset : vars.setValue name value = .ok after) :
    ∃ stored, Stored.ofValue? value = some stored ∧ vars.set name stored = .ok after := by
  unfold setValue at hset
  split at hset
  · next stored hstored => exact ⟨stored, hstored, hset⟩
  · split at hset <;> cases hset

theorem get?_set {name : String} {value : Stored} {after : Variables}
    (hset : vars.set name value = .ok after) : ∃ v, vars.get? name = some v ∧
      v.type = value.type ∧ ∀ other, after.get? other =
        if foldName other = foldName name then some { v with value } else vars.get? other := by
  obtain ⟨v, hv, htype, rfl⟩ := eq_modify_of_set hset
  refine ⟨v, hv, htype, fun other => ?_⟩
  unfold get? at hv ⊢
  rw [Table.find?_modify, hv]
  rfl

/-- Where a variable is found after a value has been stored. -/
theorem find?_set {name : String} {stored : Stored} {after : Variables}
    (hset : vars.set name stored = .ok after) {key : String} {v : Variable}
    (hv : vars.find? key = some v) : ∃ value, after.find? key = some { v with value } ∧
      (value ≠ v.value → value.type = v.type ∧ key = foldName name) := by
  obtain ⟨w, hw, htype, rfl⟩ := eq_modify_of_set hset
  rw [Table.find?_modify]
  split
  · next hkey =>
    subst hkey
    obtain rfl := Option.some.inj (hv.symm.trans hw)
    rw [hv]
    exact ⟨stored, rfl, fun _ => ⟨htype.symm, rfl⟩⟩
  · exact ⟨v.value, hv, fun hne => absurd rfl hne⟩

theorem IsFiled.set (h : vars.IsFiled) {name : String} {value : Stored} {after : Variables}
    (hset : vars.set name value = .ok after) : after.IsFiled := by
  obtain ⟨-, -, -, rfl⟩ := eq_modify_of_set hset
  exact h.modify _ fun _ => rfl

end Variables

end MissionScript

/-!
Tables: entries under keys, in the order in which the keys were first put in. Each operation is
described by what is found afterwards.
-/

namespace MissionScript

/-- Entries under keys. -/
structure Table (κ α : Type) where
  entries : List (κ × α)

namespace Table

variable {κ α : Type} [DecidableEq κ]

/-- The table without entries. -/
def empty : Table κ α :=
  ⟨[]⟩

/-- The entry under a key. -/
def find? (t : Table κ α) (k : κ) : Option α :=
  t.entries.lookup k

/-- Whether there is an entry under a key. -/
def contains (t : Table κ α) (k : κ) : Bool :=
  (t.find? k).isSome

/-- The keys, in order. -/
def keys (t : Table κ α) : List κ :=
  t.entries.map (·.1)

/-- The entries without their keys, in order. -/
def values (t : Table κ α) : List α :=
  t.entries.map (·.2)

/-- Changes the entry under a key, if there is one. -/
def modify (t : Table κ α) (k : κ) (f : α → α) : Table κ α :=
  ⟨t.entries.map fun entry => if entry.1 = k then (k, f entry.2) else entry⟩

/-- Puts in an entry under a key that has none; otherwise nothing changes. -/
def insertNew (t : Table κ α) (k : κ) (a : α) : Table κ α :=
  if t.contains k then t else ⟨t.entries ++ [(k, a)]⟩

/-- Changes the entry under a key, after putting in a first one if there is none. -/
def update (t : Table κ α) (k : κ) (first : α) (f : α → α) : Table κ α :=
  (t.insertNew k first).modify k f

/-- Puts an entry under a key, in place of the one that is there. -/
def insert (t : Table κ α) (k : κ) (a : α) : Table κ α :=
  t.update k a fun _ => a

/-- Changes every entry. -/
def map (t : Table κ α) (f : α → α) : Table κ α :=
  ⟨t.entries.map fun entry => (entry.1, f entry.2)⟩

/-- Keeps the entries that pass a test. -/
def filter (t : Table κ α) (keep : α → Bool) : Table κ α :=
  ⟨t.entries.filter fun entry => keep entry.2⟩

@[simp] theorem find?_empty (k : κ) : (empty : Table κ α).find? k = none := rfl

theorem find?_eq_none_iff {t : Table κ α} {k : κ} : t.find? k = none ↔ k ∉ t.keys := by
  simp only [find?, keys, List.lookup_eq_none_iff, List.mem_map, not_exists, not_and, bne_iff_ne]
  exact ⟨fun h a ha heq => h a ha heq.symm, fun h a ha heq => h a ha heq.symm⟩

theorem contains_iff {t : Table κ α} {k : κ} : t.contains k = true ↔ k ∈ t.keys := by
  rw [contains, Option.isSome_iff_ne_none, ne_eq, find?_eq_none_iff, Classical.not_not]

/-- A change is seen under its key only. -/
@[simp] theorem find?_modify (t : Table κ α) (k k' : κ) (f : α → α) :
    (t.modify k f).find? k' = if k' = k then (t.find? k).map f else t.find? k' := by
  obtain ⟨entries⟩ := t
  simp only [modify, find?]
  induction entries with
  | nil => simp
  | cons entry rest ih =>
    obtain ⟨key, a⟩ := entry
    by_cases hk : key = k
    · subst hk
      by_cases hk' : k' = key
      · simp [hk']
      · simp only [hk', if_false] at ih
        simp [List.lookup_cons, beq_false_of_ne hk', ih, hk']
    · by_cases hk' : k' = key
      · subst hk'
        simp [hk]
      · simp [List.lookup_cons, hk, beq_false_of_ne hk', beq_false_of_ne (Ne.symm hk), ih]

@[simp] theorem keys_modify (t : Table κ α) (k : κ) (f : α → α) : (t.modify k f).keys = t.keys := by
  simp only [modify, keys, List.map_map]
  apply List.map_congr_left
  intro entry _
  by_cases h : entry.1 = k <;> simp [h]

/-- What was there stays, and a new key has the new entry. -/
@[simp] theorem find?_insertNew (t : Table κ α) (k k' : κ) (a : α) :
    (t.insertNew k a).find? k' = if k' = k then some ((t.find? k).getD a) else t.find? k' := by
  unfold insertNew
  split
  · next h =>
    rw [contains, Option.isSome_iff_exists] at h
    obtain ⟨b, hb⟩ := h
    by_cases hk : k' = k <;> simp [hk, hb]
  · next h =>
    rw [contains, Bool.not_eq_true, Option.isSome_eq_false_iff, Option.isNone_iff_eq_none] at h
    simp only [find?, List.lookup_append] at h ⊢
    by_cases hk : k' = k
    · simp [hk, h]
    · simp [hk, List.lookup_cons, beq_false_of_ne hk]

theorem keys_insertNew (t : Table κ α) (k : κ) (a : α) :
    (t.insertNew k a).keys = if k ∈ t.keys then t.keys else t.keys ++ [k] := by
  unfold insertNew
  by_cases h : k ∈ t.keys
  · simp [h, contains_iff.2 h]
  · have hc : t.contains k = false := by
      rw [← Bool.not_eq_true, contains_iff]
      exact h
    simp only [hc, h, if_false, Bool.false_eq_true]
    simp [keys]

/-- Putting in a new entry keeps the keys distinct. -/
theorem nodup_keys_insertNew {t : Table κ α} (h : t.keys.Nodup) (k : κ) (a : α) :
    (t.insertNew k a).keys.Nodup := by
  rw [keys_insertNew]
  split
  · exact h
  · next hk =>
    rw [List.nodup_append]
    refine ⟨h, by simp, ?_⟩
    intro x hx y hy
    rw [List.mem_singleton] at hy
    rintro rfl
    exact hk (hy ▸ hx)

@[simp] theorem find?_update (t : Table κ α) (k k' : κ) (first : α) (f : α → α) :
    (t.update k first f).find? k' =
      if k' = k then some (f ((t.find? k).getD first)) else t.find? k' := by
  by_cases h : k' = k <;> simp [update, h]

@[simp] theorem find?_insert (t : Table κ α) (k k' : κ) (a : α) :
    (t.insert k a).find? k' = if k' = k then some a else t.find? k' := by
  by_cases h : k' = k <;> simp [insert, h]

/-- What is put under a new key comes last. -/
theorem insert_of_new {t : Table κ α} {k : κ} (h : k ∉ t.keys) (a : α) :
    t.insert k a = ⟨t.entries ++ [(k, a)]⟩ := by
  have hfree : ¬ t.contains k = true := fun hcontains => h (contains_iff.1 hcontains)
  have hkept (entry : κ × α) (hentry : entry ∈ t.entries) :
      (if entry.1 = k then (k, a) else entry) = entry :=
    if_neg fun heq : entry.1 = k => h (heq ▸ List.mem_map_of_mem hentry)
  rw [insert, update, insertNew, if_neg hfree, modify, List.map_append, List.map_singleton,
    if_pos rfl, List.map_congr_left hkept, List.map_id']

@[simp] theorem find?_map (t : Table κ α) (k : κ) (f : α → α) :
    (t.map f).find? k = (t.find? k).map f := by
  obtain ⟨entries⟩ := t
  simp only [map, find?]
  induction entries with
  | nil => rfl
  | cons entry rest ih =>
    obtain ⟨key, a⟩ := entry
    simp only [List.map_cons, List.lookup_cons]
    cases k == key <;> simp [ih]

omit [DecidableEq κ] in
@[simp] theorem keys_map (t : Table κ α) (f : α → α) : (t.map f).keys = t.keys := by
  simp [map, keys]

end Table

end MissionScript

import MissionScript.Table
import MissionScript.Name
import Mathlib.Data.List.Forall2
import Mathlib.Data.List.Nodup
import Mathlib.Tactic.Common

/-!
Tables with a record for every item of a row: events and goals are kept in a row, and the ledger has
a record of each under its folded name.
-/

namespace MissionScript.Table

variable {α ρ : Type} {name : α → String} {fits : α → ρ → Prop} {table : Table String ρ}
  {items : List α}

/-- Whether every item has a record of its own, and one that fits it. -/
structure Books (table : Table String ρ) (name : α → String) (fits : α → ρ → Prop)
    (items : List α) : Prop where
  distinct : (items.map fun a => foldName (name a)).Nodup
  records : ∀ a ∈ items, ∃ r, table.find? (foldName (name a)) = some r ∧ fits a r

/-- There is a record under every spelling of the name of an item. -/
theorem Books.exists_find? (h : table.Books name fits items) {key : String}
    (hkey : (items.find? fun a => sameName (name a) key).isSome) :
    ∃ r, table.find? (foldName key) = some r := by
  obtain ⟨a, ha, hsame⟩ := List.find?_isSome.1 hkey
  obtain ⟨r, hr, -⟩ := h.records a ha
  rw [sameName_iff] at hsame
  exact ⟨r, hsame ▸ hr⟩

/-- Replacing an item and its record concerns no other item, as long as what fits the others
    stays. -/
theorem Books.replaceFitting {fits' : α → ρ → Prop} {table' : Table String ρ}
    {before after : List α} {a a' : α} (h : table.Books name fits (before ++ a :: after))
    (hname : name a' = name a)
    (hothers : ∀ key, key ≠ foldName (name a) → table'.find? key = table.find? key)
    (hfits : ∀ b r, foldName (name b) ≠ foldName (name a) → fits b r → fits' b r)
    (hrecord : ∃ r, table'.find? (foldName (name a)) = some r ∧ fits' a' r) :
    table'.Books name fits' (before ++ a' :: after) := by
  have hkeys : (before ++ a' :: after).map (fun b => foldName (name b)) =
      (before ++ a :: after).map fun b => foldName (name b) := by
    simp [hname]
  refine ⟨hkeys ▸ h.distinct, fun b hb => ?_⟩
  have hdistinct := h.distinct
  rw [List.map_append, List.map_cons, List.nodup_middle, List.nodup_cons, ← List.map_append]
    at hdistinct
  have hother (hb : b ∈ before ++ after) :
      ∃ r, table'.find? (foldName (name b)) = some r ∧ fits' b r := by
    have hne : foldName (name b) ≠ foldName (name a) := by
      intro heq
      apply hdistinct.1
      rw [← heq]
      exact List.mem_map_of_mem hb
    rw [hothers _ hne]
    have hmem : b ∈ before ++ a :: after := by
      rw [List.mem_append, List.mem_cons]
      exact (List.mem_append.1 hb).imp_right Or.inr
    obtain ⟨r, hr, hfitting⟩ := h.records b hmem
    exact ⟨r, hr, hfits b r hne hfitting⟩
  rw [List.mem_append, List.mem_cons] at hb
  rcases hb with hb | rfl | hb
  · exact hother (List.mem_append_left _ hb)
  · rw [hname]
    exact hrecord
  · exact hother (List.mem_append_right _ hb)

/-- Replacing an item and its record concerns no other item. -/
theorem Books.replace {table' : Table String ρ} {before after : List α} {a a' : α}
    (h : table.Books name fits (before ++ a :: after)) (hname : name a' = name a)
    (hothers : ∀ key, key ≠ foldName (name a) → table'.find? key = table.find? key)
    (hrecord : ∃ r, table'.find? (foldName (name a)) = some r ∧ fits a' r) :
    table'.Books name fits (before ++ a' :: after) :=
  h.replaceFitting hname hothers (fun _ _ _ hfitting => hfitting) hrecord

/-- Items may change as long as their names and what fits them stay. -/
theorem Books.congr {items' : List α} (h : table.Books name fits items)
    (hitems : List.Forall₂ (fun a a' => name a' = name a ∧ ∀ r, fits a r → fits a' r) items items') :
    table.Books name fits items' := by
  obtain ⟨hdistinct, hrecords⟩ := h
  have hkeys : (items'.map fun a => foldName (name a)) = items.map fun a => foldName (name a) := by
    clear hdistinct hrecords
    induction hitems with
    | nil => rfl
    | cons ha _ ih => rw [List.map_cons, List.map_cons, ih, ha.1]
  refine ⟨hkeys ▸ hdistinct, ?_⟩
  clear hkeys hdistinct
  induction hitems with
  | nil => exact fun a ha => absurd ha List.not_mem_nil
  | cons ha _ ih =>
    obtain ⟨⟨r, hr, hfits⟩, hrest⟩ := List.forall_mem_cons.1 hrecords
    refine List.forall_mem_cons.2 ⟨⟨r, ?_, ha.2 r hfits⟩, ih hrest⟩
    rw [ha.1]
    exact hr

/-- Opening a first record for one item after the other gives each of them one. -/
theorem books_insertNew {first : ρ} (hdistinct : (items.map fun a => foldName (name a)).Nodup)
    (hfirst : ∀ a ∈ items, fits a first) :
    (items.foldl (fun t a => t.insertNew (foldName (name a)) first) empty).Books name fits items := by
  -- all records are first ones, those that were there and those that are opened
  have hopen (items : List α) (t : Table String ρ) (ht : ∀ key r, t.find? key = some r → r = first) :
      (∀ a ∈ items, (items.foldl (fun t a => t.insertNew (foldName (name a)) first) t).find?
        (foldName (name a)) = some first) ∧
      ∀ key, t.find? key = some first →
        (items.foldl (fun t a => t.insertNew (foldName (name a)) first) t).find? key =
          some first := by
    induction items generalizing t with
    | nil => exact ⟨fun a ha => absurd ha List.not_mem_nil, fun _ h => h⟩
    | cons a rest ih =>
      have hgetD : (t.find? (foldName (name a))).getD first = first := by
        cases hfind : t.find? (foldName (name a)) with
        | none => rfl
        | some r => exact ht _ r hfind
      have hnew (key : String) (r : ρ)
          (hr : (t.insertNew (foldName (name a)) first).find? key = some r) : r = first := by
        rw [find?_insertNew, hgetD] at hr
        split at hr
        · exact (Option.some.inj hr).symm
        · exact ht key r hr
      obtain ⟨hrest, hkept⟩ := ih _ hnew
      rw [List.foldl_cons]
      refine ⟨List.forall_mem_cons.2 ⟨hkept _ ?_, hrest⟩, fun key hkey => hkept key ?_⟩
      · rw [find?_insertNew, if_pos rfl, hgetD]
      · rw [find?_insertNew]
        split
        · rw [hgetD]
        · exact hkey
  refine ⟨hdistinct, fun a ha => ⟨first, ?_, hfirst a ha⟩⟩
  exact (hopen items empty (by simp)).1 a ha

end MissionScript.Table

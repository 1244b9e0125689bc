import MissionScript.Proofs.Variable.Overlay
import MissionScript.Save.Record

/-!
Merging saved values. What is merged under a name takes the place of what was there under it, and
what is there under another name stays.
-/

namespace MissionScript

variable {old updates : List Saved} {update : Saved} {name : String}

theorem ofName_mergeOne_of_ne (h : sameName update.name name = false) (old : List Saved) :
    Saved.ofName name (mergeOne update old) = Saved.ofName name old := by
  unfold Saved.ofName
  induction old with
  | nil => simp [mergeOne, h]
  | cons first rest ih =>
    rw [mergeOne]
    split
    · next hsame =>
      -- the value that is replaced has the name of the update, so it has another name as well
      have hfirst : sameName first.name name = false := by
        rw [← Bool.not_eq_true, sameName_iff] at h ⊢
        rwa [sameName_iff.1 hsame]
      simp [h, hfirst]
    · rw [List.filter_cons, List.filter_cons, ih]

theorem ofName_mergeOne (h : sameName update.name name = true) (old : List Saved) :
    Saved.ofName name (mergeOne update old) = update :: (Saved.ofName name old).tail := by
  unfold Saved.ofName
  induction old with
  | nil => simp [mergeOne, h]
  | cons first rest ih =>
    rw [sameName_iff] at h
    have hfirst : sameName first.name update.name = sameName first.name name := by
      rw [sameName, sameName, h]
    rw [mergeOne, hfirst]
    cases hsame : sameName first.name name with
    | true => simp [sameName_iff.2 h, hsame]
    | false => simp [hsame, ih]

theorem ofName_mergeSaved_of_nil (h : Saved.ofName name updates = []) (old : List Saved) :
    Saved.ofName name (mergeSaved old updates) = Saved.ofName name old :=
  view_foldl_of_nil (fun old _ hother => ofName_mergeOne_of_ne hother old) h old

/-- If there is one value to merge under a name, it takes the place of what was there first. -/
theorem ofName_mergeSaved (h : Saved.ofName name updates = [update]) (old : List Saved) :
    Saved.ofName name (mergeSaved old updates) = update :: (Saved.ofName name old).tail := by
  obtain ⟨hsame, before, hbefore, hafter⟩ :=
    view_foldl_of_singleton (fun old _ hother => ofName_mergeOne_of_ne hother old) h old
  rw [mergeSaved, hafter, ofName_mergeOne hsame, hbefore]

end MissionScript

import MissionScript.Proofs.Save.Record

/-!
What the records of a pilot and of a campaign tell of the missions that were entered into them: how
many these were, which ones succeeded, and what was saved last under each name.
-/

namespace MissionScript

namespace Saved

variable {saved updates : List Saved} {lists : List (List Saved)} {name : String}

/-- Whether saved values have different names. -/
def AreDistinct (saved : List Saved) : Prop :=
  (saved.map fun s => foldName s.name).Nodup

instance : DecidablePred AreDistinct :=
  fun saved => inferInstanceAs (Decidable (saved.map fun s => foldName s.name).Nodup)

theorem count_foldName (saved : List Saved) (name : String) :
    (saved.map fun s => foldName s.name).count (foldName name) = (ofName name saved).length := by
  rw [List.count, List.countP_map, List.countP_eq_length_filter]
  rfl

/-- Values have different names if there is at most one of each name. -/
theorem areDistinct_iff : AreDistinct saved ↔ ∀ name, (ofName name saved).length ≤ 1 := by
  rw [AreDistinct, List.nodup_iff_count_le_one]
  constructor
  · intro h name
    rw [← count_foldName]
    exact h (foldName name)
  · intro h key
    by_cases hkey : key ∈ saved.map fun s => foldName s.name
    · obtain ⟨s, -, rfl⟩ := List.mem_map.1 hkey
      rw [count_foldName]
      exact h s.name
    · rw [List.count_eq_zero.2 hkey]
      exact Nat.zero_le 1

/-- What is found under a name in the latest of some lists that has something under it. -/
def latest? (name : String) (lists : List (List Saved)) : Option Saved :=
  lists.reverse.findSome? fun saved => (ofName name saved).head?

theorem latest?_append (name : String) (lists : List (List Saved)) (saved : List Saved) :
    latest? name (lists ++ [saved]) = (ofName name saved).head?.or (latest? name lists) := by
  rw [latest?, List.reverse_append, List.reverse_singleton, List.singleton_append,
    List.findSome?_cons]
  cases (ofName name saved).head? <;> rfl

/-- Whether values are those of some lists that were saved last, each under its name. -/
structure AreLatest (saved : List Saved) (lists : List (List Saved)) : Prop where
  distinct : AreDistinct saved
  ofName_eq : ∀ name, ofName name saved = (latest? name lists).toList

theorem areLatest_nil : AreLatest [] [] :=
  ⟨List.nodup_nil, fun _ => rfl⟩

/-- Merging saved values into the latest ones makes them the latest. -/
theorem AreLatest.merge (h : AreLatest saved lists) (hupdates : AreDistinct updates) :
    AreLatest (mergeSaved saved updates) (lists ++ [updates]) := by
  have hofName (name : String) :
      ofName name (mergeSaved saved updates) = (latest? name (lists ++ [updates])).toList := by
    rw [latest?_append]
    match hnew : ofName name updates with
    | [] =>
      rw [ofName_mergeSaved_of_nil hnew, h.ofName_eq]
      rfl
    | [update] =>
      rw [ofName_mergeSaved hnew, h.ofName_eq]
      cases latest? name lists <;> rfl
    | _ :: _ :: _ =>
      have hone := areDistinct_iff.1 hupdates name
      rw [hnew] at hone
      exact absurd hone (by simp)
  refine ⟨areDistinct_iff.2 fun name => ?_, hofName⟩
  rw [hofName]
  exact Option.length_toList_le

end Saved

theorem eraseDupsBy_append_singleton {α : Type} (r : α → α → Bool) (items : List α) (a : α) :
    (items ++ [a]).eraseDupsBy r =
      if (items.eraseDupsBy r).any (r a) then items.eraseDupsBy r
      else items.eraseDupsBy r ++ [a] := by
  -- the loop keeps what it has seen the other way round
  have hloop (items seen : List α) : List.eraseDupsBy.loop r (items ++ [a]) seen =
      if (List.eraseDupsBy.loop r items seen).any (r a) then List.eraseDupsBy.loop r items seen
      else List.eraseDupsBy.loop r items seen ++ [a] := by
    induction items generalizing seen with
    | nil =>
      rw [List.nil_append, List.eraseDupsBy.loop, List.eraseDupsBy.loop, List.any_reverse]
      cases seen.any (r a) <;> simp [List.eraseDupsBy.loop]
    | cons first rest ih =>
      rw [List.cons_append, List.eraseDupsBy.loop, List.eraseDupsBy.loop]
      cases seen.any (r first) with
      | true => exact ih seen
      | false => exact ih (first :: seen)
  exact hloop items []

/-- Names, each of them where it comes up first. -/
def firstNames (names : List String) : List String :=
  names.eraseDupsBy sameName

section

variable {names : List String} {name : String}

theorem firstNames_append (names : List String) (name : String) :
    firstNames (names ++ [name]) =
      if (firstNames names).any (sameName · name) then firstNames names
      else firstNames names ++ [name] := by
  have hcomm : sameName name = (sameName · name) := funext (sameName_comm name)
  rw [firstNames, eraseDupsBy_append_singleton, hcomm]
  rfl

theorem any_sameName_iff :
    names.any (sameName · name) = true ↔ foldName name ∈ names.map foldName := by
  simp only [List.any_eq_true, List.mem_map, sameName_iff]

/-- No name is left out. -/
theorem mem_firstNames_iff :
    foldName name ∈ (firstNames names).map foldName ↔ foldName name ∈ names.map foldName := by
  induction names using List.reverseRecOn generalizing name with
  | nil => rfl
  | append_singleton names last ih =>
    rw [firstNames_append, List.map_append, List.mem_append, ← ih]
    split
    · next hold =>
      rw [any_sameName_iff] at hold
      refine (or_iff_left_of_imp fun hlast => ?_).symm
      rwa [List.mem_singleton.1 hlast]
    · rw [List.map_append, List.mem_append]

/-- No name is there twice. -/
theorem nodup_firstNames (names : List String) : ((firstNames names).map foldName).Nodup := by
  induction names using List.reverseRecOn with
  | nil => exact List.nodup_nil
  | append_singleton names last ih =>
    rw [firstNames_append]
    split
    · exact ih
    · next hnew =>
      rw [any_sameName_iff] at hnew
      rw [List.map_append]
      exact ih.append (List.nodup_singleton _) (List.disjoint_singleton.2 hnew)

end

/-- The names of the missions that succeeded. -/
def Summary.succeeded (missions : List Summary) : List String :=
  (missions.filter (·.outcome = .success)).map (·.mission)

theorem Summary.succeeded_append (missions : List Summary) (summary : Summary) :
    succeeded (missions ++ [summary]) =
      if summary.outcome = .success then succeeded missions ++ [summary.mission]
      else succeeded missions := by
  unfold succeeded
  rw [List.filter_append, List.map_append, List.filter_singleton]
  by_cases hsuccess : summary.outcome = .success <;> simp [hsuccess]

/-- Whether the record of a pilot tells of some missions, and of no others. -/
structure PilotSave.Recounts (p : PilotSave) (missions : List Summary) : Prop where
  flown : p.missionsFlown = UInt32.ofNat missions.length
  vars : Saved.AreLatest p.vars (missions.map (·.saved.player))

/-- Whether the record of a campaign tells of some missions, and of no others. -/
structure CampaignSave.Recounts (c : CampaignSave) (missions : List Summary) : Prop where
  /-- the missions that succeeded are there in the order in which they did so first -/
  completed : c.completed = firstNames (Summary.succeeded missions)
  once : (c.completed.map foldName).Nodup
  mem_completed_iff : ∀ mission, (∃ done ∈ c.completed, sameName done mission = true) ↔
    ∃ t ∈ missions, t.outcome = .success ∧ sameName t.mission mission = true
  vars : Saved.AreLatest c.vars (missions.map (·.saved.campaign))

section

variable {p : PilotSave} {c : CampaignSave} {missions : List Summary} {summary : Summary}

theorem PilotSave.recounts_fresh (pilot : String) : (fresh pilot).Recounts [] :=
  ⟨rfl, Saved.areLatest_nil⟩

/-- What the record of a campaign holds follows from the order in which its missions succeeded. -/
theorem CampaignSave.recounts_of_completed
    (hcompleted : c.completed = firstNames (Summary.succeeded missions))
    (hvars : Saved.AreLatest c.vars (missions.map (·.saved.campaign))) : c.Recounts missions where
  completed := hcompleted
  once := hcompleted ▸ nodup_firstNames _
  mem_completed_iff mission := by
    rw [hcompleted, ← List.any_eq_true, any_sameName_iff, mem_firstNames_iff, ← any_sameName_iff]
    simp [Summary.succeeded]
  vars := hvars

theorem CampaignSave.recounts_fresh (campaign : String) : (fresh campaign).Recounts [] :=
  recounts_of_completed rfl Saved.areLatest_nil

theorem PilotSave.Recounts.enter (h : p.Recounts missions)
    (hdistinct : Saved.AreDistinct summary.saved.player) :
    (p.enter summary).Recounts (missions ++ [summary]) where
  flown := by
    change p.missionsFlown + 1 = _
    rw [h.flown, List.length_append, List.length_singleton, UInt32.ofNat_add]
    rfl
  vars := by
    rw [List.map_append]
    exact h.vars.merge hdistinct

theorem CampaignSave.Recounts.enter (h : c.Recounts missions)
    (hdistinct : Saved.AreDistinct summary.saved.campaign) :
    (c.enter summary).Recounts (missions ++ [summary]) := by
  refine recounts_of_completed ?_ ?_
  · change completedAfter c.completed summary = _
    rw [completedAfter, h.completed, Summary.succeeded_append]
    by_cases hsuccess : summary.outcome = .success
    · rw [if_pos hsuccess, firstNames_append]
      cases (firstNames (Summary.succeeded missions)).any (sameName · summary.mission) <;>
        simp [hsuccess]
    · rw [if_neg hsuccess]
      simp [hsuccess]
  · rw [List.map_append]
    exact h.vars.merge hdistinct

end

end MissionScript

import MissionScript.Proofs.Disk.Faulty
import MissionScript.Proofs.Save.Store

/-!
Commits on disks that fail. Both files are written beside their places before either is put there, so
that a commit that fails leaves both as they were, unless it fails in its very last step: then the
record of the pilot is in its place already, and that of the campaign is not.
-/

namespace MissionScript

/-- The record of a pilot is another one after every mission. -/
theorem PilotSave.enter_ne (p : PilotSave) (summary : Summary) : p.enter summary ≠ p := by
  intro h
  have hflown : p.missionsFlown + 1 = p.missionsFlown := congrArg PilotSave.missionsFlown h
  have hnext := UInt32.add_right_inj p.missionsFlown |>.1 (hflown.trans (UInt32.add_zero _).symm)
  exact absurd hnext (by decide)

namespace SaveStore

section Replacing

variable {first second : String} {firstBytes secondBytes : Bytes} {d d' : FaultyDisk} {done : Bool}

/-- What writing two files beside their paths comes to. -/
structure Staged (first second : String) (firstBytes secondBytes : Bytes) (d : FaultyDisk)
    (done : Bool) (d' : FaultyDisk) : Prop where
  done_iff : done = true ↔ ∀ n < 2, d.fates n = .succeeds
  fates_eq : done = true → ∀ n, d'.fates n = d.fates (n + 2)
  besideFirst : done = true → staging first ≠ staging second →
    d'.files (staging first) = .contents firstBytes
  besideSecond : done = true → d'.files (staging second) = .contents secondBytes
  /-- whatever fails, nothing is touched but what is beside the paths -/
  kept : ∀ path, path ≠ staging first → path ≠ staging second → d'.files path = d.files path

theorem staged_stage (first second : String) (firstBytes secondBytes : Bytes) (d : FaultyDisk) :
    ∃ done d', (stage first second firstBytes secondBytes : StateM FaultyDisk Bool).run d =
      (done, d') ∧ Staged first second firstBytes secondBytes d done d' := by
  -- what was written is removed again if not everything was
  have hundone {d₁ : FaultyDisk} (hfails : ¬ ∀ n < 2, d.fates n = .succeeds)
      (hkept : ∀ path, path ≠ staging first → path ≠ staging second →
        d₁.files path = d.files path) :
      Staged first second firstBytes secondBytes d false
        ((d₁.remove (staging first)).2.remove (staging second)).2 := by
    refine ⟨iff_of_false Bool.false_ne_true hfails, nofun, nofun, nofun,
      fun path hfirst hsecond => ?_⟩
    rw [FaultyDisk.files_remove_of_ne hsecond, FaultyDisk.files_remove_of_ne hfirst,
      hkept path hfirst hsecond]
  by_cases hfate₁ : d.fates 0 = .succeeds
  · rw [stage, run_bind_eq (FaultyDisk.run_write_of_succeeds hfate₁ _ _), if_pos rfl]
    by_cases hfate₂ : (d.after (Function.update d.files (staging first)
        (.contents firstBytes))).fates 0 = .succeeds
    · refine ⟨true, _, run_bind_eq (FaultyDisk.run_write_of_succeeds hfate₂ _ _), ?_⟩
      refine ⟨iff_of_true rfl ?_, fun _ n => rfl, fun _ hne => ?_,
        fun _ => Function.update_self _ _ _, fun path hfirst hsecond => ?_⟩
      · rintro (_ | _ | n) hn
        · exact hfate₁
        · exact hfate₂
        · omega
      · exact (Function.update_of_ne hne _ _).trans (Function.update_self _ _ _)
      · exact (Function.update_of_ne hsecond _ _).trans (Function.update_of_ne hfirst _ _)
    · obtain ⟨left, hwrite⟩ := FaultyDisk.run_write_of_fails hfate₂ (staging second) secondBytes
      refine ⟨false, _, run_bind_eq hwrite, hundone (fun h => hfate₂ (h 1 (by decide))) ?_⟩
      intro path hfirst hsecond
      exact (Function.update_of_ne hsecond _ _).trans (Function.update_of_ne hfirst _ _)
  · obtain ⟨left, hwrite⟩ := FaultyDisk.run_write_of_fails hfate₁ (staging first) firstBytes
    rw [stage, run_bind_eq hwrite]
    refine ⟨false, _, rfl, hundone (fun h => hfate₁ (h 0 (by decide))) fun path hfirst _ => ?_⟩
    exact Function.update_of_ne hfirst _ _

/-- What putting two files in place comes to, if so many operations come before the last one. Only if
    the last one is the first to fail, one file is put there and the other is not. -/
inductive Replaced (first second : String) (firstBytes secondBytes : Bytes) (d : FaultyDisk)
    (count : Nat) : Bool → FaultyDisk → Prop where
  | both {d' : FaultyDisk} (hfates : ¬ d.FailsFirstAt count)
      (hfirst : d'.files first = .contents firstBytes)
      (hsecond : d'.files second = .contents secondBytes) :
      Replaced first second firstBytes secondBytes d count true d'
  | neither {d' : FaultyDisk} (hfates : ¬ d.FailsFirstAt count)
      (hfirst : d'.files first = d.files first) (hsecond : d'.files second = d.files second) :
      Replaced first second firstBytes secondBytes d count false d'
  | torn {d' : FaultyDisk} (hfates : d.FailsFirstAt count)
      (hfirst : d'.files first = .contents firstBytes)
      (hsecond : d'.files second = d.files second) :
      Replaced first second firstBytes secondBytes d count false d'

/-- Operations before that succeed and leave the two files alone change nothing. -/
theorem Replaced.preceded {d₁ : FaultyDisk} {count k : Nat}
    (h : Replaced first second firstBytes secondBytes d₁ count done d')
    (hfates : d.FailsFirstAt (count + k) ↔ d₁.FailsFirstAt count)
    (hfirst : d₁.files first = d.files first) (hsecond : d₁.files second = d.files second) :
    Replaced first second firstBytes secondBytes d (count + k) done d' := by
  cases h with
  | both h h₁ h₂ => exact .both (mt hfates.1 h) h₁ h₂
  | neither h h₁ h₂ => exact .neither (mt hfates.1 h) (h₁.trans hfirst) (h₂.trans hsecond)
  | torn h h₁ h₂ => exact .torn (hfates.2 h) h₁ (h₂.trans hsecond)

/-- Two files that are beside their places are put there one after the other. -/
theorem replaced_rename (hdistinct : [first, second, staging first, staging second].Nodup)
    (hfirst : d.files (staging first) = .contents firstBytes)
    (hsecond : d.files (staging second) = .contents secondBytes) :
    ∃ done d', (do
        if ← Disk.rename (staging first) first then Disk.rename (staging second) second
        else return false : StateM FaultyDisk Bool).run d = (done, d') ∧
      Replaced first second firstBytes secondBytes d 1 done d' := by
  simp only [List.nodup_cons, List.mem_cons, List.not_mem_nil, or_false, not_or, not_false_eq_true,
    List.nodup_nil, and_true] at hdistinct
  obtain ⟨⟨hplaces, -, hcross⟩, ⟨hbesideFirst, hbesideSecond⟩, hbeside⟩ := hdistinct
  by_cases hfate₁ : d.fates 0 = .succeeds
  · rw [run_bind_eq (FaultyDisk.run_rename_of_succeeds hfate₁ hfirst _), if_pos rfl]
    generalize hfiles : Function.update (Function.update d.files (staging first) .missing) first
      (.contents firstBytes) = files
    have hput : files first = .contents firstBytes := by rw [← hfiles, Function.update_self]
    have hrest (path : String) (hfirst : path ≠ first) (hstaging : path ≠ staging first) :
        files path = d.files path := by
      rw [← hfiles, Function.update_of_ne hfirst, Function.update_of_ne hstaging]
    by_cases hfate₂ : (d.after files).fates 0 = .succeeds
    · have hsource := (hrest (staging second) (Ne.symm hcross) (Ne.symm hbeside)).trans hsecond
      refine ⟨true, _, FaultyDisk.run_rename_of_succeeds hfate₂ hsource second, .both ?_ ?_ ?_⟩
      · exact fun hfates => hfates.fails hfate₂
      · exact (Function.update_of_ne hplaces _ _).trans ((Function.update_of_ne hcross _ _).trans hput)
      · exact Function.update_self _ _ _
    · refine ⟨false, _, FaultyDisk.run_rename_of_fails hfate₂ _ _, .torn ⟨?_, hfate₂⟩ hput ?_⟩
      · intro n hn
        rwa [Nat.lt_one_iff.1 hn]
      · exact hrest second (Ne.symm hplaces) hbesideFirst
  · refine ⟨false, _, run_bind_eq (FaultyDisk.run_rename_of_fails hfate₁ _ _),
      .neither (fun hfates => ?_) rfl rfl⟩
    exact hfate₁ (hfates.before 0 (by decide))

theorem replaced_replaceBoth (hdistinct : [first, second, staging first, staging second].Nodup)
    (firstBytes secondBytes : Bytes) (d : FaultyDisk) :
    ∃ done d', (replaceBoth first second firstBytes secondBytes : StateM FaultyDisk Bool).run d =
      (done, d') ∧ Replaced first second firstBytes secondBytes d 3 done d' := by
  obtain ⟨staged, d₂, hstage, h⟩ := staged_stage first second firstBytes secondBytes d
  have hkept (path : String) (hpath : path ∈ [first, second]) : d₂.files path = d.files path := by
    simp only [List.nodup_cons, List.mem_cons, List.not_mem_nil, or_false, not_or] at hdistinct hpath
    rcases hpath with rfl | rfl
    · exact h.kept _ hdistinct.1.2.1 hdistinct.1.2.2
    · exact h.kept _ hdistinct.2.1.1 hdistinct.2.1.2
  have hfirst := hkept first (by simp)
  have hsecond := hkept second (by simp)
  rw [replaceBoth, run_bind_eq hstage]
  cases staged with
  | false =>
    refine ⟨false, d₂, rfl, .neither (fun hfates => ?_) hfirst hsecond⟩
    exact Bool.false_ne_true (h.done_iff.2 fun n hn => hfates.before n (Nat.lt_succ_of_lt hn))
  | true =>
    have hbeside : staging first ≠ staging second := by
      simp only [List.nodup_cons, List.mem_cons, List.not_mem_nil, or_false, not_or] at hdistinct
      exact hdistinct.2.2.1
    obtain ⟨done, d', hrun, hreplaced⟩ :=
      replaced_rename hdistinct (h.besideFirst rfl hbeside) (h.besideSecond rfl)
    refine ⟨done, d', hrun, hreplaced.preceded (k := 2) ?_ hfirst hsecond⟩
    exact FaultyDisk.failsFirstAt_add_iff (h.done_iff.1 rfl) (h.fates_eq rfl) 1

end Replacing

/-- What comes of reading at a path of a disk. -/
def fetched {σ : Type} [Disk (StateM σ)] (path : String) (d : σ) : Fetched :=
  ((Disk.read path : StateM σ Fetched).run d).1

/-- Whether a commit that succeeds leaves both records that it returns, and one that fails leaves both
    files as they were. -/
structure IsAllOrNothing {σ : Type} [Disk (StateM σ)] (s : SaveStore) (pilot campaign : String)
    (summary : Summary) (d : σ) : Prop where
  all : ∀ p c d', (s.commit pilot campaign summary : StateM σ _).run d = (.ok (p, c), d') →
    (∃ bytes, fetched (s.path .pilot pilot) d' = .contents bytes ∧
      s.codec.pilot.decode bytes = some p) ∧
    ∃ bytes, fetched (s.path .campaign campaign) d' = .contents bytes ∧
      s.codec.campaign.decode bytes = some c
  nothing : ∀ e d', (s.commit pilot campaign summary : StateM σ _).run d = (.error e, d') →
    fetched (s.path .pilot pilot) d' = fetched (s.path .pilot pilot) d ∧
      fetched (s.path .campaign campaign) d' = fetched (s.path .campaign campaign) d

section Committing

variable {s : SaveStore} {pilot campaign : String} {summary : Summary}

theorem isAllOrNothing_iff_of_ok {σ : Type} [Disk (StateM σ)] {d d' : σ} {p : PilotSave}
    {c : CampaignSave}
    (h : (s.commit pilot campaign summary : StateM σ _).run d = (.ok (p, c), d')) :
    s.IsAllOrNothing pilot campaign summary d ↔
      (∃ bytes, fetched (s.path .pilot pilot) d' = .contents bytes ∧
        s.codec.pilot.decode bytes = some p) ∧
      ∃ bytes, fetched (s.path .campaign campaign) d' = .contents bytes ∧
        s.codec.campaign.decode bytes = some c := by
  refine ⟨fun hwhole => hwhole.all p c d' h, fun hboth => ⟨fun p' c' d₁ h₁ => ?_, fun e d₁ h₁ => ?_⟩⟩
  · cases h.symm.trans h₁
    exact hboth
  · cases h.symm.trans h₁

theorem isAllOrNothing_iff_of_error {σ : Type} [Disk (StateM σ)] {d d' : σ} {e : SaveError}
    (h : (s.commit pilot campaign summary : StateM σ _).run d = (.error e, d')) :
    s.IsAllOrNothing pilot campaign summary d ↔
      fetched (s.path .pilot pilot) d' = fetched (s.path .pilot pilot) d ∧
        fetched (s.path .campaign campaign) d' = fetched (s.path .campaign campaign) d := by
  refine ⟨fun hwhole => hwhole.nothing e d' h,
    fun hnone => ⟨fun p c d₁ h₁ => ?_, fun e' d₁ h₁ => ?_⟩⟩
  · cases h.symm.trans h₁
  · cases h.symm.trans h₁
    exact hnone

variable {d : FaultyDisk}

/-- The records that are on a disk, if both can be loaded. -/
def records? (s : SaveStore) (pilot campaign : String) (d : FaultyDisk) :
    Option (PilotSave × CampaignSave) :=
  match ((s.loadPilot pilot : StateM FaultyDisk _).run d).1,
    ((s.loadCampaign campaign : StateM FaultyDisk _).run d).1 with
  | .ok p, .ok c => some (p, c)
  | _, _ => none

/-- Loading changes nothing. -/
theorem snd_run_load {α : Type} (codec : Codec α) (fresh : α) (path : String) (d : FaultyDisk) :
    ((load codec fresh path : StateM FaultyDisk _).run d).2 = d := by
  rw [run_load codec fresh (d := d) rfl]

theorem records?_eq_some_iff {p : PilotSave} {c : CampaignSave} :
    s.records? pilot campaign d = some (p, c) ↔
      (s.loadPilot pilot : StateM FaultyDisk _).run d = (.ok p, d) ∧
        (s.loadCampaign campaign : StateM FaultyDisk _).run d = (.ok c, d) := by
  unfold records?
  constructor
  · intro h
    split at h
    · next hpilot hcampaign =>
      cases h
      exact ⟨Prod.ext hpilot (snd_run_load _ _ _ d), Prod.ext hcampaign (snd_run_load _ _ _ d)⟩
    · cases h
  · rintro ⟨hpilot, hcampaign⟩
    rw [hpilot, hcampaign]

theorem run_commit_of_records? {p : PilotSave} {c : CampaignSave}
    (h : s.records? pilot campaign d = some (p, c)) :
    (s.commit pilot campaign summary : StateM FaultyDisk _).run d =
      (s.writeBoth pilot campaign (p.enter summary) (c.enter summary) : StateM FaultyDisk _).run d := by
  obtain ⟨hpilot, hcampaign⟩ := records?_eq_some_iff.1 h
  rw [commit, run_bind_eq hpilot]
  dsimp only
  rw [run_bind_eq hcampaign]

theorem run_commit_of_no_records (h : s.records? pilot campaign d = none) (summary : Summary) :
    ∃ e, (s.commit pilot campaign summary : StateM FaultyDisk _).run d = (.error e, d) := by
  obtain ⟨pilotFound, hpilot⟩ : ∃ found, (s.loadPilot pilot : StateM FaultyDisk _).run d = (found, d) :=
    ⟨_, Prod.ext rfl (snd_run_load _ _ _ d)⟩
  obtain ⟨campaignFound, hcampaign⟩ :
      ∃ found, (s.loadCampaign campaign : StateM FaultyDisk _).run d = (found, d) :=
    ⟨_, Prod.ext rfl (snd_run_load _ _ _ d)⟩
  rw [commit, run_bind_eq hpilot]
  cases pilotFound with
  | error e => exact ⟨e, rfl⟩
  | ok p =>
    dsimp only
    rw [run_bind_eq hcampaign]
    cases campaignFound with
    | error e => exact ⟨e, rfl⟩
    | ok c =>
      rw [records?, hpilot, hcampaign] at h
      cases h

/-- The files of a pilot and of a campaign, and those beside them, have different paths. -/
theorem nodup_paths (s : SaveStore) (pilot campaign : String) :
    [s.path .pilot pilot, s.path .campaign campaign, staging (s.path .pilot pilot),
      staging (s.path .campaign campaign)].Nodup := by
  rw [staging_path, staging_path]
  have hinjective : Function.Injective (pathIn s.folder) := by
    intro file file' h
    unfold pathIn at h
    split at h <;> exact String.append_right_inj _ |>.1 h
  exact (s.nodup_fileNames pilot campaign).map hinjective

theorem replaced_writeBoth (s : SaveStore) (pilot campaign : String) (p : PilotSave)
    (c : CampaignSave) (d : FaultyDisk) :
    ∃ done d', (s.writeBoth pilot campaign p c : StateM FaultyDisk _).run d =
      (if done then .ok (p, c) else .error .disk, d') ∧
      Replaced (s.path .pilot pilot) (s.path .campaign campaign) (s.codec.pilot.encode p)
        (s.codec.campaign.encode c) d 4 done d' := by
  rw [writeBoth, run_bind_eq (FaultyDisk.run_createFolders _ _)]
  by_cases hfate : d.fates 0 = .succeeds
  · rw [if_pos (decide_eq_true hfate)]
    obtain ⟨done, d', hrun, hreplaced⟩ := replaced_replaceBoth (s.nodup_paths pilot campaign)
      (s.codec.pilot.encode p) (s.codec.campaign.encode c) (d.after d.files)
    refine ⟨done, d', ?_, hreplaced.preceded (k := 1) ?_ rfl rfl⟩
    · rw [run_bind_eq hrun]
      rfl
    · refine FaultyDisk.failsFirstAt_add_iff (fun n hn => ?_) (fun _ => rfl) 3
      rwa [Nat.lt_one_iff.1 hn]
  · refine ⟨false, d.after d.files, ?_, .neither (fun hfates => ?_) rfl rfl⟩
    · rw [if_neg (by simpa using hfate)]
      rfl
    · exact hfate (hfates.before 0 (by decide))

/-- A commit is all or nothing unless its last step is the first to fail: then it fails although the
    record of the pilot has been put in its place. -/
theorem isAllOrNothing_iff (hback : ∀ p c, s.records? pilot campaign d = some (p, c) →
      s.ReadsBack (p.enter summary) (c.enter summary)) :
    s.IsAllOrNothing pilot campaign summary d ↔
      (s.records? pilot campaign d).isSome → ¬ d.FailsFirstAt 4 := by
  cases hrecords : s.records? pilot campaign d with
  | none =>
    obtain ⟨e, hrun⟩ := run_commit_of_no_records hrecords summary
    exact iff_of_true ((isAllOrNothing_iff_of_error hrun).2 ⟨rfl, rfl⟩) nofun
  | some records =>
    obtain ⟨p, c⟩ := records
    obtain ⟨hpilot, hcampaign⟩ := hback p c hrecords
    obtain ⟨done, d', hwrite, hreplaced⟩ :=
      replaced_writeBoth s pilot campaign (p.enter summary) (c.enter summary) d
    have hrun := (run_commit_of_records? hrecords).trans hwrite
    cases hreplaced with
    | both hfates hfirst hsecond =>
      refine iff_of_true ((isAllOrNothing_iff_of_ok hrun).2 ?_) fun _ => hfates
      exact ⟨⟨_, hfirst, hpilot⟩, _, hsecond, hcampaign⟩
    | neither hfates hfirst hsecond =>
      exact iff_of_true ((isAllOrNothing_iff_of_error hrun).2 ⟨hfirst, hsecond⟩) fun _ => hfates
    | torn hfates hfirst hsecond =>
      refine iff_of_false (fun h => ?_) fun h => h rfl hfates
      -- the file of the pilot would have held the new record before
      have hold := ((isAllOrNothing_iff_of_error hrun).1 h).1.symm.trans hfirst
      have hload : (s.loadPilot pilot : StateM FaultyDisk _).run d = (.ok (p.enter summary), d) := by
        rw [loadPilot, run_load _ _ (congrArg (·, d) hold), loaded_contents hpilot]
      have hsame := hload.symm.trans (records?_eq_some_iff.1 hrecords).1
      exact p.enter_ne summary (Except.ok.inj (Prod.mk.inj hsame).1)

end Committing

namespace Debrief

/-- A mission that has added to what is saved of the pilot. -/
def patrol : Summary :=
  ⟨"Patrol", .success, 0, 0, 1, [], [], [], ⟨[⟨"kills", .number, "1"⟩], []⟩, 0⟩

def store : SaveStore :=
  ⟨"saves", SaveFormat.json.codec⟩

/-- Where there is a folder in the place of the record of the campaign, once the folders are made. -/
def blockedStore : SaveStore :=
  ⟨"saves/campaign_x.json/..", SaveFormat.json.codec⟩

/-- An empty disk where nothing fails but one operation. -/
def disk (failing : Nat) : FaultyDisk :=
  ⟨fun _ => .missing, fun n => if n = failing then .fails (.contents []) else .succeeds⟩

end Debrief

open Debrief

/-- The record of the campaign cannot be written. -/
theorem isAllOrNothing_failedWrite : store.IsAllOrNothing "P" "X" patrol (disk 2) := by
  have hrecords : store.records? "P" "X" (disk 2) = some (.fresh "P", .fresh "X") := by
    decide +kernel
  refine (isAllOrNothing_iff fun p c h => ?_).2 fun _ hfates => ?_
  · cases hrecords.symm.trans h
    exact ⟨by decide +kernel, by decide +kernel⟩
  · exact absurd (hfates.before 2 (by decide)) (by decide)

/-- The record of the campaign cannot be put in its place. -/
theorem not_isAllOrNothing_blocked :
    ¬ blockedStore.IsAllOrNothing "P" "X" patrol MemoryDisk.empty := by
  intro h
  have hfails : ((blockedStore.commit "P" "X" patrol : StateM MemoryDisk _).run .empty).1 =
      .error .disk := by
    decide +kernel
  have hwritten : fetched (blockedStore.path .pilot "P")
      ((blockedStore.commit "P" "X" patrol : StateM MemoryDisk _).run .empty).2 ≠
        fetched (blockedStore.path .pilot "P") MemoryDisk.empty := by
    decide +kernel
  exact hwritten ((isAllOrNothing_iff_of_error (Prod.ext hfails rfl)).1 h).1

end SaveStore

end MissionScript

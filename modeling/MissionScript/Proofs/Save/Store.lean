import MissionScript.Proofs.Disk.Folders
import MissionScript.Proofs.Save.Record
import MissionScript.Save.Store

/-!
The folder of saves on a disk in memory. What a finished mission has been entered into is what is
loaded afterwards, if the format of the saves reads back what it has written.
-/

namespace MissionScript

namespace Text

theorem slash_notMem_stemByte (b : UInt8) : '/' ∉ stemByte b := by
  have hall : ∀ n < 256, '/' ∉ stemByte (UInt8.ofNat n) := by decide +kernel
  have hb := hall b.toNat b.toNat_lt
  rwa [UInt8.ofNat_toNat] at hb

theorem slash_notMem_fileStem (name : String) : '/' ∉ (fileStem name).toList := by
  rw [fileStem, String.toList_ofList]
  intro hslash
  obtain ⟨b, -, hb⟩ := List.mem_flatMap.1 hslash
  exact slash_notMem_stemByte b hb

end Text

namespace SaveStore

variable {s : SaveStore}

/-- A record is staged in the folder of the store, under a name of its own. -/
theorem staging_path (s : SaveStore) (kind : SaveKind) (name : String) :
    staging (s.path kind name) = pathIn s.folder (s.fileName kind name ++ ".tmp") := by
  unfold staging path pathIn
  split <;> simp only [String.append_assoc]

theorem run_bind_eq {σ α β : Type} {x : StateM σ α} {f : α → StateM σ β} {a : α} {t t' : σ}
    (h : x.run t = (a, t')) : (x >>= f).run t = (f a).run t' := by
  rw [StateT.run_bind, h]
  rfl

theorem run_stage {first second : String} {firstBytes secondBytes : Bytes} {d d₂ : MemoryDisk}
    (h : (stage first second firstBytes secondBytes : StateM MemoryDisk Bool).run d = (true, d₂)) :
    ∃ d₁, d.write (staging first) firstBytes = (true, d₁) ∧
      d₁.write (staging second) secondBytes = (true, d₂) := by
  cases hfirst : (Disk.write (staging first) firstBytes : StateM MemoryDisk Bool).run d with
  | mk done d₁ =>
    rw [stage, run_bind_eq hfirst] at h
    cases done with
    | false => cases h
    | true =>
      refine ⟨d₁, hfirst, ?_⟩
      cases hsecond : (Disk.write (staging second) secondBytes : StateM MemoryDisk Bool).run d₁ with
      | mk done d₂' =>
        rw [if_pos rfl, run_bind_eq hsecond] at h
        cases done with
        | false => cases h
        | true =>
          cases h
          exact hsecond

theorem run_replaceBoth {first second : String} {firstBytes secondBytes : Bytes} {d d₄ : MemoryDisk}
    (h : (replaceBoth first second firstBytes secondBytes : StateM MemoryDisk Bool).run d =
      (true, d₄)) :
    ∃ d₁ d₂ d₃, d.write (staging first) firstBytes = (true, d₁) ∧
      d₁.write (staging second) secondBytes = (true, d₂) ∧
      d₂.rename (staging first) first = (true, d₃) ∧
      d₃.rename (staging second) second = (true, d₄) := by
  cases hstage : (stage first second firstBytes secondBytes : StateM MemoryDisk Bool).run d with
  | mk done d₂ =>
    rw [replaceBoth, run_bind_eq hstage] at h
    cases done with
    | false => cases h
    | true =>
      obtain ⟨d₁, hfirst, hsecond⟩ := run_stage hstage
      cases hrename : (Disk.rename (staging first) first : StateM MemoryDisk Bool).run d₂ with
      | mk done d₃ =>
        rw [if_pos rfl, run_bind_eq hrename] at h
        cases done with
        | false => cases h
        | true => exact ⟨d₁, d₂, d₃, hfirst, hsecond, hrename, h⟩

section Loading

variable {α : Type} {codec : Codec α} {fresh a : α} {path : String}

/-- What comes of loading a record, given what comes of reading its file. -/
def loaded (codec : Codec α) (fresh : α) : Fetched → Except SaveError α
  | .missing => .ok fresh
  | .failed => .error .disk
  | .contents bytes =>
    match codec.decode bytes with
    | some a => .ok a
    | none => .error .contents

theorem loaded_contents {bytes : Bytes} (h : codec.decode bytes = some a) :
    loaded codec fresh (.contents bytes) = .ok a := by
  rw [loaded, h]

theorem run_load {σ : Type} [Disk (StateM σ)] {d : σ} {file : Fetched} (codec : Codec α) (fresh : α)
    (h : (Disk.read path : StateM σ Fetched).run d = (file, d)) :
    (load codec fresh path : StateM σ _).run d = (loaded codec fresh file, d) := by
  rw [load, run_bind_eq h]
  cases file with
  | missing | failed => rfl
  | contents bytes =>
    dsimp only [loaded]
    cases codec.decode bytes <;> rfl

theorem run_read {d : MemoryDisk} {file : Fetched} (h : d.read path = file) :
    (Disk.read path : StateM MemoryDisk Fetched).run d = (file, d) :=
  congrArg (·, d) h

end Loading

variable {pilot campaign : String} {d d' : MemoryDisk} {p p' : PilotSave} {c c' : CampaignSave}

/-- Whether these are the records that are loaded from a disk. -/
structure Holds (s : SaveStore) (pilot campaign : String) (d : MemoryDisk) (p : PilotSave)
    (c : CampaignSave) : Prop where
  loadPilot : (s.loadPilot pilot : StateM MemoryDisk _).run d = (.ok p, d)
  loadCampaign : (s.loadCampaign campaign : StateM MemoryDisk _).run d = (.ok c, d)

theorem holds_fresh (hpilot : d.read (s.path .pilot pilot) = .missing)
    (hcampaign : d.read (s.path .campaign campaign) = .missing) :
    s.Holds pilot campaign d (.fresh pilot) (.fresh campaign) :=
  ⟨run_load _ _ (run_read hpilot), run_load _ _ (run_read hcampaign)⟩

theorem Holds.snapshot (h : s.Holds pilot campaign d p c) :
    (s.snapshot pilot campaign : StateM MemoryDisk _).run d = (.ok ⟨p.vars, c.vars⟩, d) := by
  rw [SaveStore.snapshot, run_bind_eq h.loadPilot]
  dsimp only
  rw [run_bind_eq h.loadCampaign]
  rfl

theorem head?_fileName (s : SaveStore) (kind : SaveKind) (name ending : String) :
    (s.fileName kind name ++ ending).toList.head? = kind.word.toList.head? := by
  cases kind <;> simp [fileName, SaveKind.word]

theorem isFileName_fileName {format : SaveFormat} (hcodec : s.codec = format.codec) (kind : SaveKind)
    (name : String) {ending : String} (hending : '/' ∉ ending.toList) :
    MemoryDisk.IsFileName (s.fileName kind name ++ ending) := by
  have hhead := s.head?_fileName kind name ending
  have hword : kind.word.toList.head? ≠ none ∧ kind.word.toList.head? ≠ some '.' ∧
      '/' ∉ kind.word.toList := by
    cases kind <;> decide
  have hextension : '/' ∉ s.codec.extension.toList := by
    rw [hcodec]
    cases format <;> decide
  refine ⟨fun hnil => hword.1 ?_, ?_, fun hpoint => hword.2.1 ?_, fun hpoints => hword.2.1 ?_⟩
  · rw [← hhead, hnil]
    rfl
  · simp only [fileName, String.toList_append, List.mem_append, not_or]
    exact ⟨⟨⟨⟨⟨hword.2.2, by decide⟩, Text.slash_notMem_fileStem name⟩, by decide⟩, hextension⟩, hending⟩
  · rw [← hhead, hpoint]
    rfl
  · rw [← hhead, hpoints]
    rfl

/-- The files of a pilot and of a campaign, and those beside them, have different names. -/
theorem nodup_fileNames (s : SaveStore) (pilot campaign : String) :
    [s.fileName .pilot pilot, s.fileName .campaign campaign, s.fileName .pilot pilot ++ ".tmp",
      s.fileName .campaign campaign ++ ".tmp"].Nodup := by
  have hkinds (ending ending' : String) :
      s.fileName .pilot pilot ++ ending ≠ s.fileName .campaign campaign ++ ending' := by
    intro heq
    have hheads := congrArg List.head? (congrArg String.toList heq)
    rw [head?_fileName, head?_fileName] at hheads
    exact absurd hheads (by decide)
  have hstaging (name : String) : name ≠ name ++ ".tmp" := by
    intro heq
    have hlength := congrArg String.length heq
    rw [String.length_append] at hlength
    exact absurd hlength (Nat.ne_of_lt (Nat.lt_add_of_pos_right (by decide)))
  have hplain := hkinds "" ""
  have hfirst := hkinds "" ".tmp"
  have hsecond := hkinds ".tmp" ""
  rw [String.append_empty] at hplain hfirst hsecond
  rw [String.append_empty] at hplain
  simp [hplain, hfirst, hsecond.symm, hkinds ".tmp" ".tmp", hstaging]

/-- Whether a format reads back what it writes for these records. -/
structure ReadsBack (s : SaveStore) (p : PilotSave) (c : CampaignSave) : Prop where
  pilot : s.codec.pilot.decode (s.codec.pilot.encode p) = some p
  campaign : s.codec.campaign.decode (s.codec.campaign.encode c) = some c

/-- The disk when the folder of the saves has been made. -/
def opened (s : SaveStore) (d : MemoryDisk) : MemoryDisk :=
  ((Disk.createFolders s.folder : StateM MemoryDisk Bool).run d).2

/-- What writing two records comes to. -/
structure Written (s : SaveStore) (pilot campaign : String) (p : PilotSave) (c : CampaignSave)
    (d d' : MemoryDisk) : Prop where
  folder : (Disk.createFolders s.folder : StateM MemoryDisk Bool).run d = (true, s.opened d)
  sameFolders : (s.opened d).SameFolders d'
  readPilot : d'.read (s.path .pilot pilot) = .contents (s.codec.pilot.encode p)
  readCampaign : d'.read (s.path .campaign campaign) = .contents (s.codec.campaign.encode c)
  /-- the files of other names are as they were -/
  others : ∀ file, MemoryDisk.IsFileName file →
    file ∉ [s.fileName .pilot pilot, s.fileName .campaign campaign,
      s.fileName .pilot pilot ++ ".tmp", s.fileName .campaign campaign ++ ".tmp"] →
    ∀ bytes, d'.read (pathIn s.folder file) = .contents bytes ↔
      (s.opened d).read (pathIn s.folder file) = .contents bytes

theorem isFileName {format : SaveFormat} (hcodec : s.codec = format.codec) (kind : SaveKind)
    (name : String) : MemoryDisk.IsFileName (s.fileName kind name) := by
  have hname := isFileName_fileName hcodec kind name (show '/' ∉ ("").toList by decide)
  rwa [String.append_empty] at hname

theorem written_writeBoth {format : SaveFormat} (hcodec : s.codec = format.codec)
    {saved : PilotSave × CampaignSave}
    (h : (s.writeBoth pilot campaign p c : StateM MemoryDisk _).run d = (.ok saved, d')) :
    saved = (p, c) ∧ s.Written pilot campaign p c d d' := by
  rcases hfolder : (Disk.createFolders s.folder : StateM MemoryDisk Bool).run d with ⟨done, d₀⟩
  rw [writeBoth, run_bind_eq hfolder] at h
  cases done with
  | false => cases h
  | true =>
    rcases hreplace : (replaceBoth (s.path .pilot pilot) (s.path .campaign campaign)
      (s.codec.pilot.encode p) (s.codec.campaign.encode c) : StateM MemoryDisk Bool).run d₀ with ⟨done, d₄⟩
    rw [if_pos rfl, run_bind_eq hreplace] at h
    cases done with
    | false => cases h
    | true =>
      cases h
      obtain ⟨d₁, d₂, d₃, h₁, h₂, h₃, h₄⟩ := run_replaceBoth hreplace
      simp only [staging_path] at h₁ h₂ h₃ h₄
      have hopened : s.opened d = d₀ := congrArg Prod.snd hfolder
      have hstaged (kind : SaveKind) (name : String) :=
        isFileName_fileName hcodec kind name (show '/' ∉ (".tmp").toList by decide)
      have hnames : ∀ name ∈ [s.fileName .pilot pilot, s.fileName .campaign campaign,
          s.fileName .pilot pilot ++ ".tmp", s.fileName .campaign campaign ++ ".tmp"],
          MemoryDisk.IsFileName name := by
        simp [isFileName hcodec, hstaged]
      have hread := MemoryDisk.read_renamed hnames (s.nodup_fileNames pilot campaign) h₁ h₂ h₃ h₄
      refine ⟨rfl, ?_, ?_, hread.1, hread.2, fun file hfile hother => ?_⟩
      · rw [hopened, hfolder]
      · rw [hopened]
        exact ((MemoryDisk.sameFolders_of_write h₁).trans (MemoryDisk.sameFolders_of_write h₂)).trans
          ((MemoryDisk.sameFolders_of_rename h₃).trans (MemoryDisk.sameFolders_of_rename h₄))
      · rw [hopened]
        exact MemoryDisk.contents_renamed_iff hnames hfile hother h₁ h₂ h₃ h₄

/-- What is written is loaded afterwards. -/
theorem Written.holds (h : s.Written pilot campaign p c d d') (hback : s.ReadsBack p c) :
    s.Holds pilot campaign d' p c where
  loadPilot := by
    rw [SaveStore.loadPilot, run_load _ _ (run_read h.readPilot), loaded_contents hback.pilot]
  loadCampaign := by
    rw [SaveStore.loadCampaign, run_load _ _ (run_read h.readCampaign), loaded_contents hback.campaign]

/-- A commit writes the records that were loaded before, with the mission entered into them. -/
theorem Holds.written (h : s.Holds pilot campaign d p c) {format : SaveFormat}
    (hcodec : s.codec = format.codec) {summary : Summary}
    (hcommit : (s.commit pilot campaign summary : StateM MemoryDisk _).run d = (.ok (p', c'), d')) :
    p' = p.enter summary ∧ c' = c.enter summary ∧ s.Written pilot campaign p' c' d d' := by
  rw [SaveStore.commit, run_bind_eq h.loadPilot] at hcommit
  dsimp only at hcommit
  rw [run_bind_eq h.loadCampaign] at hcommit
  obtain ⟨hsaved, hwritten⟩ := written_writeBoth hcodec hcommit
  obtain ⟨rfl, rfl⟩ := Prod.mk.inj hsaved
  exact ⟨rfl, rfl, hwritten⟩

/-- A mission is entered into the records that were loaded before. -/
theorem Holds.commit (h : s.Holds pilot campaign d p c) {format : SaveFormat}
    (hcodec : s.codec = format.codec) {summary : Summary}
    (hcommit : (s.commit pilot campaign summary : StateM MemoryDisk _).run d = (.ok (p', c'), d'))
    (hback : s.ReadsBack p' c') :
    p' = p.enter summary ∧ c' = c.enter summary ∧ s.Holds pilot campaign d' p' c' := by
  obtain ⟨hp, hc, hwritten⟩ := h.written hcodec hcommit
  exact ⟨hp, hc, hwritten.holds hback⟩

end SaveStore

end MissionScript

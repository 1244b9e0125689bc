import MissionScript.Proofs.Save.FileName
import MissionScript.Proofs.Save.Recounting

/-!
Logbooks: the missions of any pilots in any campaigns, entered into the saves one after the other.
After each of them, the record of every pilot and of every campaign tells of just the missions that
were entered for it.
-/

namespace MissionScript

/-- A mission as it is entered into the saves. -/
structure LogEntry where
  pilot : String
  campaign : String
  summary : Summary

namespace LogEntry

/-- Whose record a mission is entered into. -/
def name (e : LogEntry) : SaveKind → String
  | .pilot => e.pilot
  | .campaign => e.campaign

/-- The missions of a pilot or of a campaign, in order. -/
def missions (kind : SaveKind) (name : String) (entries : List LogEntry) : List Summary :=
  (entries.filter fun e => sameName (e.name kind) name).map (·.summary)

section

variable {kind : SaveKind} {name name' : String} {entries : List LogEntry} {e : LogEntry}

theorem missions_append_of_same (h : sameName (e.name kind) name = true) (entries : List LogEntry) :
    missions kind name (entries ++ [e]) = missions kind name entries ++ [e.summary] := by
  simp [missions, h]

theorem missions_append_of_other (h : sameName (e.name kind) name = false)
    (entries : List LogEntry) : missions kind name (entries ++ [e]) = missions kind name entries := by
  simp [missions, h]

theorem missions_congr (h : foldName name = foldName name') :
    missions kind name entries = missions kind name' entries := by
  unfold missions sameName
  rw [h]

end

end LogEntry

/-- What there is in the place of a record that tells of some missions. There is a file if there are
    any, and only then. -/
inductive IsKept {α : Type} (codec : Codec α) (recounts : α → List Summary → Prop)
    (missions : List Summary) (file : Fetched) : Prop where
  | nothing (hmissions : missions = []) (hfile : ∀ bytes, file ≠ .contents bytes)
  | record {bytes : Bytes} {a : α} (hmissions : missions ≠ []) (hfile : file = .contents bytes)
    (hdecode : codec.decode bytes = some a) (hrecounts : recounts a missions)

/-- Whether what is loaded is a record of some missions. Only if there are none, the disk may fail. -/
inductive TellsOf {α : Type} (recounts : α → List Summary → Prop) (missions : List Summary) :
    Except SaveError α → Prop where
  | record {a : α} (hrecounts : recounts a missions) : TellsOf recounts missions (.ok a)
  | failure (hmissions : missions = []) : TellsOf recounts missions (.error .disk)

section

variable {α : Type} {codec : Codec α} {recounts : α → List Summary → Prop} {missions : List Summary}
  {file file' : Fetched} {fresh : α}

/-- If there are missions, what is loaded is a record of them. -/
theorem TellsOf.exists_ok {found : Except SaveError α} (h : TellsOf recounts missions found)
    (hmissions : missions ≠ []) : ∃ a, found = .ok a ∧ recounts a missions := by
  cases h with
  | record hrecounts => exact ⟨_, rfl, hrecounts⟩
  | failure hnone => exact absurd hnone hmissions

theorem IsKept.congr (h : IsKept codec recounts missions file)
    (hsame : ∀ bytes, file' = .contents bytes ↔ file = .contents bytes) :
    IsKept codec recounts missions file' := by
  cases h with
  | nothing hmissions hfile =>
    exact .nothing hmissions fun bytes hbytes => hfile bytes ((hsame bytes).1 hbytes)
  | record hmissions hfile hdecode hrecounts =>
    exact .record hmissions ((hsame _).2 hfile) hdecode hrecounts

theorem IsKept.tellsOf (h : IsKept codec recounts missions file) (hfresh : recounts fresh []) :
    TellsOf recounts missions (SaveStore.loaded codec fresh file) := by
  cases h with
  | nothing hmissions hfile =>
    subst hmissions
    cases file with
    | missing => exact .record hfresh
    | failed => exact .failure rfl
    | contents bytes => exact absurd rfl (hfile bytes)
  | record hmissions hfile hdecode hrecounts =>
    rw [hfile, SaveStore.loaded_contents hdecode]
    exact .record hrecounts

/-- Records that are loaded are the same if what is in their files is the same. -/
theorem eq_of_loaded (hsame : ∀ bytes, file' = .contents bytes ↔ file = .contents bytes) {a a' : α}
    (h : SaveStore.loaded codec fresh file = .ok a)
    (h' : SaveStore.loaded codec fresh file' = .ok a') : a' = a := by
  cases file with
  | failed => cases h
  | contents bytes =>
    rw [(hsame bytes).2 rfl] at h'
    exact Except.ok.inj (h'.symm.trans h)
  | missing =>
    cases file' with
    | failed => cases h'
    | contents bytes => cases (hsame bytes).1 rfl
    | missing => exact Except.ok.inj (h'.symm.trans h)

end

namespace SaveStore

variable {s : SaveStore} {entries : List LogEntry} {e : LogEntry} {d d' : MemoryDisk}
  {p : PilotSave} {c : CampaignSave} {kind : SaveKind} {name : String}

/-- What is loaded of a pilot. -/
def loadedPilot (s : SaveStore) (pilot : String) (d : MemoryDisk) : Except SaveError PilotSave :=
  ((s.loadPilot pilot : StateM MemoryDisk _).run d).1

/-- What is loaded of a campaign. -/
def loadedCampaign (s : SaveStore) (campaign : String) (d : MemoryDisk) :
    Except SaveError CampaignSave :=
  ((s.loadCampaign campaign : StateM MemoryDisk _).run d).1

/-- Whether a mission is entered into the saves, with this result. The values that it leaves have
    different names, and the records can be read back. -/
structure Enters (s : SaveStore) (e : LogEntry) (d : MemoryDisk) (p : PilotSave) (c : CampaignSave)
    (d' : MemoryDisk) : Prop where
  run : (s.commit e.pilot e.campaign e.summary : StateM MemoryDisk _).run d = (.ok (p, c), d')
  player : Saved.AreDistinct e.summary.saved.player
  campaign : Saved.AreDistinct e.summary.saved.campaign
  back : s.ReadsBack p c

/-- Whether a store has no files, also when its folder has been made. -/
def IsEmpty (s : SaveStore) (d : MemoryDisk) : Prop :=
  ∀ kind name bytes, (s.opened d).read (s.path kind name) ≠ .contents bytes

/-- A disk without files has none of saves. -/
theorem isEmpty_of_no_files (h : ∀ place bytes, d.entry? place ≠ some (.file bytes))
    (s : SaveStore) : s.IsEmpty d := by
  intro kind name bytes hread
  obtain ⟨place, -, hplace⟩ := MemoryDisk.read_eq_contents_iff.1 hread
  exact h place bytes ((MemoryDisk.gainsFolders_createFolders d s.folder).entry?_eq_file hplace)

/-- Whether the files of a store are the records of what has been entered. -/
structure IsUpToDate (s : SaveStore) (entries : List LogEntry) (d : MemoryDisk) : Prop where
  pilot : ∀ name, IsKept s.codec.pilot PilotSave.Recounts (LogEntry.missions .pilot name entries)
    (d.read (s.path .pilot name))
  campaign : ∀ name, IsKept s.codec.campaign CampaignSave.Recounts
    (LogEntry.missions .campaign name entries) (d.read (s.path .campaign name))
  /-- no save comes to be when the folder is made -/
  opened : ∀ kind name bytes, (s.opened d).read (s.path kind name) = .contents bytes ↔
    d.read (s.path kind name) = .contents bytes

theorem IsEmpty.isUpToDate (h : s.IsEmpty d) : s.IsUpToDate [] d := by
  have hnone (kind : SaveKind) (name : String) (bytes : Bytes) :
      d.read (s.path kind name) ≠ .contents bytes := fun hread =>
    h kind name bytes ((MemoryDisk.gainsFolders_createFolders d s.folder).contents hread)
  exact ⟨fun name => .nothing rfl (hnone .pilot name), fun name => .nothing rfl (hnone .campaign name),
    fun kind name bytes => iff_of_false (h kind name bytes) (hnone kind name bytes)⟩

theorem run_loadPilot (s : SaveStore) (pilot : String) (d : MemoryDisk) :
    (s.loadPilot pilot : StateM MemoryDisk _).run d = (s.loadedPilot pilot d, d) := by
  rw [loadedPilot, SaveStore.loadPilot, run_load _ _ (run_read rfl)]

theorem run_loadCampaign (s : SaveStore) (campaign : String) (d : MemoryDisk) :
    (s.loadCampaign campaign : StateM MemoryDisk _).run d = (s.loadedCampaign campaign d, d) := by
  rw [loadedCampaign, SaveStore.loadCampaign, run_load _ _ (run_read rfl)]

theorem loadedPilot_eq (s : SaveStore) (pilot : String) (d : MemoryDisk) : s.loadedPilot pilot d =
    loaded s.codec.pilot (.fresh pilot) (d.read (s.path .pilot pilot)) := by
  rw [loadedPilot, SaveStore.loadPilot, run_load _ _ (run_read rfl)]

theorem loadedCampaign_eq (s : SaveStore) (campaign : String) (d : MemoryDisk) :
    s.loadedCampaign campaign d =
      loaded s.codec.campaign (.fresh campaign) (d.read (s.path .campaign campaign)) := by
  rw [loadedCampaign, SaveStore.loadCampaign, run_load _ _ (run_read rfl)]

theorem IsUpToDate.tellsOfPilot (h : s.IsUpToDate entries d) (pilot : String) :
    TellsOf PilotSave.Recounts (LogEntry.missions .pilot pilot entries) (s.loadedPilot pilot d) := by
  rw [loadedPilot_eq]
  exact (h.pilot pilot).tellsOf (PilotSave.recounts_fresh pilot)

theorem IsUpToDate.tellsOfCampaign (h : s.IsUpToDate entries d) (campaign : String) :
    TellsOf CampaignSave.Recounts (LogEntry.missions .campaign campaign entries)
      (s.loadedCampaign campaign d) := by
  rw [loadedCampaign_eq]
  exact (h.campaign campaign).tellsOf (CampaignSave.recounts_fresh campaign)

/-- What a mission is entered into can be loaded before. -/
theorem IsUpToDate.exists_holds (h : s.IsUpToDate entries d) (he : s.Enters e d p c d') :
    ∃ p₀ c₀, s.Holds e.pilot e.campaign d p₀ c₀ ∧
      p₀.Recounts (LogEntry.missions .pilot e.pilot entries) ∧
      c₀.Recounts (LogEntry.missions .campaign e.campaign entries) := by
  have hrun := he.run
  have hloadPilot := s.run_loadPilot e.pilot d
  have hloadCampaign := s.run_loadCampaign e.campaign d
  have hpilot := h.tellsOfPilot e.pilot
  have hcampaign := h.tellsOfCampaign e.campaign
  generalize s.loadedPilot e.pilot d = foundPilot at hloadPilot hpilot
  generalize s.loadedCampaign e.campaign d = foundCampaign at hloadCampaign hcampaign
  rw [commit, run_bind_eq hloadPilot] at hrun
  cases hpilot with
  | failure => cases hrun
  | record hp =>
    dsimp only at hrun
    rw [run_bind_eq hloadCampaign] at hrun
    cases hcampaign with
    | failure => cases hrun
    | record hc => exact ⟨_, _, ⟨hloadPilot, hloadCampaign⟩, hp, hc⟩

/-- Files of others are not among those that are written. -/
theorem Written.read_iff (h : s.Written e.pilot e.campaign p c d d') {format : SaveFormat}
    (hcodec : s.codec = format.codec) (hother : sameName (e.name kind) name = false) (bytes : Bytes) :
    d'.read (s.path kind name) = .contents bytes ↔
      (s.opened d).read (s.path kind name) = .contents bytes := by
  refine h.others (s.fileName kind name) (isFileName hcodec kind name) ?_ bytes
  have hname : foldName name ≠ foldName (e.name kind) := by
    intro hsame
    rw [sameName_iff.2 hsame.symm] at hother
    cases hother
  simp only [List.mem_cons, List.not_mem_nil, or_false, not_or, fileName_eq_iff]
  refine ⟨?_, ?_, fileName_ne_staged hcodec kind _ name _, fileName_ne_staged hcodec kind _ name _⟩
  · rintro ⟨rfl, hsame⟩
    exact hname hsame
  · rintro ⟨rfl, hsame⟩
    exact hname hsame

theorem path_congr {name' : String} (h : foldName name = foldName name') (kind : SaveKind) :
    s.path kind name = s.path kind name' := by
  rw [path, fileName_eq_iff.2 ⟨rfl, h⟩, path]

theorem Written.loadedPilot (h : s.Written e.pilot e.campaign p c d d') (hback : s.ReadsBack p c)
    {pilot : String} (hsame : sameName e.pilot pilot = true) : s.loadedPilot pilot d' = .ok p := by
  have hread := h.readPilot
  rw [path_congr (sameName_iff.1 hsame)] at hread
  rw [loadedPilot_eq, hread, loaded_contents hback.pilot]

theorem Written.loadedCampaign (h : s.Written e.pilot e.campaign p c d d') (hback : s.ReadsBack p c)
    {campaign : String} (hsame : sameName e.campaign campaign = true) :
    s.loadedCampaign campaign d' = .ok c := by
  have hread := h.readCampaign
  rw [path_congr (sameName_iff.1 hsame)] at hread
  rw [loadedCampaign_eq, hread, loaded_contents hback.campaign]

/-- If a record is written for a mission and other files stay as they are, all files are what they
    should be. -/
theorem isKept_append {α : Type} {codec : Codec α} {recounts : α → List Summary → Prop} {a : α}
    (h : ∀ name, IsKept codec recounts (LogEntry.missions kind name entries)
      (d.read (s.path kind name)))
    (hread : d'.read (s.path kind (e.name kind)) = .contents (codec.encode a))
    (hback : codec.decode (codec.encode a) = some a)
    (hrecounts : recounts a (LogEntry.missions kind (e.name kind) entries ++ [e.summary]))
    (hothers : ∀ name, sameName (e.name kind) name = false → ∀ bytes,
      d'.read (s.path kind name) = .contents bytes ↔ d.read (s.path kind name) = .contents bytes)
    (name : String) :
    IsKept codec recounts (LogEntry.missions kind name (entries ++ [e]))
      (d'.read (s.path kind name)) := by
  cases hsame : sameName (e.name kind) name with
  | true =>
    rw [LogEntry.missions_append_of_same hsame, ← path_congr (sameName_iff.1 hsame) kind,
      ← LogEntry.missions_congr (sameName_iff.1 hsame)]
    exact .record (List.concat_ne_nil _ _) hread hback hrecounts
  | false =>
    rw [LogEntry.missions_append_of_other hsame]
    exact (h name).congr (hothers name hsame)

/-- What is written when a mission is entered tells of this mission as well. -/
theorem IsUpToDate.written (h : s.IsUpToDate entries d) {format : SaveFormat}
    (hcodec : s.codec = format.codec) (he : s.Enters e d p c d') :
    p.Recounts (LogEntry.missions .pilot e.pilot entries ++ [e.summary]) ∧
      c.Recounts (LogEntry.missions .campaign e.campaign entries ++ [e.summary]) ∧
      s.Written e.pilot e.campaign p c d d' := by
  obtain ⟨p₀, c₀, hholds, hp, hc⟩ := h.exists_holds he
  obtain ⟨rfl, rfl, hwritten⟩ := hholds.written hcodec he.run
  exact ⟨hp.enter he.player, hc.enter he.campaign, hwritten⟩

theorem IsUpToDate.read_iff (h : s.IsUpToDate entries d) {format : SaveFormat}
    (hcodec : s.codec = format.codec) (he : s.Enters e d p c d') (kind : SaveKind)
    (hother : sameName (e.name kind) name = false) (bytes : Bytes) :
    d'.read (s.path kind name) = .contents bytes ↔ d.read (s.path kind name) = .contents bytes := by
  obtain ⟨-, -, hwritten⟩ := h.written hcodec he
  rw [hwritten.read_iff hcodec hother, h.opened]

/-- Entering a mission keeps a store up to date. -/
theorem IsUpToDate.enter (h : s.IsUpToDate entries d) {format : SaveFormat}
    (hcodec : s.codec = format.codec) (he : s.Enters e d p c d') :
    s.IsUpToDate (entries ++ [e]) d' := by
  obtain ⟨hp, hc, hwritten⟩ := h.written hcodec he
  refine ⟨?_, ?_, fun kind name bytes => ?_⟩
  · exact isKept_append h.pilot hwritten.readPilot he.back.pilot hp fun _ =>
      h.read_iff hcodec he .pilot
  · exact isKept_append h.campaign hwritten.readCampaign he.back.campaign hc fun _ =>
      h.read_iff hcodec he .campaign
  · -- the folder has been made already
    have hopened : s.opened d' = d' := congrArg Prod.snd
      (MemoryDisk.run_createFolders_again hwritten.folder hwritten.sameFolders.keeps)
    rw [hopened]

end SaveStore

/-- What has been entered into a store that had no files, and the disk with its saves. -/
inductive Logbook (s : SaveStore) : List LogEntry → MemoryDisk → Prop where
  | start {d : MemoryDisk} (h : s.IsEmpty d) : Logbook s [] d
  | enter {entries : List LogEntry} {e : LogEntry} {d d' : MemoryDisk} {p : PilotSave}
    {c : CampaignSave} (h : Logbook s entries d) (he : s.Enters e d p c d') :
    Logbook s (entries ++ [e]) d'

namespace Logbook

variable {s : SaveStore} {entries : List LogEntry} {d : MemoryDisk}

theorem isUpToDate (h : Logbook s entries d) {format : SaveFormat} (hcodec : s.codec = format.codec) :
    s.IsUpToDate entries d := by
  induction h with
  | start h => exact h.isUpToDate
  | enter _ he ih => exact ih.enter hcodec he

/-- Whatever is entered into the saves, the record of every pilot and of every campaign tells of just
    the missions that were entered for it: how many they were or which ones succeeded, and what was
    saved last under each name. When one more is entered, the records of its pilot and its campaign are
    loaded afterwards as they were returned, and those of others as they were before. -/
theorem told_exactly (h : Logbook s entries d) {format : SaveFormat} (hcodec : s.codec = format.codec) :
    (∀ pilot, TellsOf PilotSave.Recounts (LogEntry.missions .pilot pilot entries)
      (s.loadedPilot pilot d)) ∧
    (∀ campaign, TellsOf CampaignSave.Recounts (LogEntry.missions .campaign campaign entries)
      (s.loadedCampaign campaign d)) ∧
    ∀ e p c d', s.Enters e d p c d' →
      (∀ pilot, sameName e.pilot pilot = true → s.loadedPilot pilot d' = .ok p) ∧
      (∀ campaign, sameName e.campaign campaign = true → s.loadedCampaign campaign d' = .ok c) ∧
      (∀ pilot, sameName e.pilot pilot = false → ∀ q q', s.loadedPilot pilot d = .ok q →
        s.loadedPilot pilot d' = .ok q' → q' = q) ∧
      (∀ campaign, sameName e.campaign campaign = false → ∀ q q', s.loadedCampaign campaign d = .ok q →
        s.loadedCampaign campaign d' = .ok q' → q' = q) := by
  have hd := h.isUpToDate hcodec
  refine ⟨hd.tellsOfPilot, hd.tellsOfCampaign, fun e p c d' he => ?_⟩
  obtain ⟨-, -, hwritten⟩ := hd.written hcodec he
  refine ⟨fun pilot hsame => hwritten.loadedPilot he.back hsame,
    fun campaign hsame => hwritten.loadedCampaign he.back hsame,
    fun pilot hother q q' hbefore hafter => ?_, fun campaign hother q q' hbefore hafter => ?_⟩
  · rw [SaveStore.loadedPilot_eq] at hbefore hafter
    exact eq_of_loaded (hd.read_iff hcodec he .pilot hother) hbefore hafter
  · rw [SaveStore.loadedCampaign_eq] at hbefore hafter
    exact eq_of_loaded (hd.read_iff hcodec he .campaign hother) hbefore hafter

end Logbook

namespace SaveStore

variable {s : SaveStore} {entries rest : List LogEntry} {e : LogEntry} {d d' : MemoryDisk}

instance (s : SaveStore) (p : PilotSave) (c : CampaignSave) : Decidable (s.ReadsBack p c) :=
  decidable_of_iff (s.codec.pilot.decode (s.codec.pilot.encode p) = some p ∧
    s.codec.campaign.decode (s.codec.campaign.encode c) = some c)
    ⟨fun h => ⟨h.1, h.2⟩, fun h => ⟨h.pilot, h.campaign⟩⟩

/-- Enters missions into the saves, as long as it goes well. -/
def enterAll (s : SaveStore) : List LogEntry → MemoryDisk → Option MemoryDisk
  | [], d => some d
  | e :: rest, d =>
    match (s.commit e.pilot e.campaign e.summary : StateM MemoryDisk _).run d with
    | (.ok (p, c), d') =>
      if Saved.AreDistinct e.summary.saved.player ∧ Saved.AreDistinct e.summary.saved.campaign ∧
        s.ReadsBack p c then s.enterAll rest d' else none
    | (.error _, _) => none

theorem exists_enters (h : s.enterAll (e :: rest) d = some d') :
    ∃ p c d₁, s.Enters e d p c d₁ ∧ s.enterAll rest d₁ = some d' := by
  rw [enterAll] at h
  split at h
  · next p c d₁ hrun =>
    split at h
    · next hgood => exact ⟨p, c, d₁, ⟨hrun, hgood.1, hgood.2.1, hgood.2.2⟩, h⟩
    · cases h
  · cases h

end SaveStore

theorem Logbook.enterAll {s : SaveStore} {entries rest : List LogEntry} {d d' : MemoryDisk}
    (h : Logbook s entries d) (hall : s.enterAll rest d = some d') : Logbook s (entries ++ rest) d' := by
  induction rest generalizing entries d with
  | nil =>
    cases hall
    rwa [List.append_nil]
  | cons e rest ih =>
    obtain ⟨p, c, d₁, he, hrest⟩ := SaveStore.exists_enters hall
    have hbook := ih (h.enter he) hrest
    rwa [List.append_assoc, List.singleton_append] at hbook

namespace Rivals

def store : SaveStore :=
  ⟨"saves", SaveFormat.binary.codec⟩

/-- A mission that leaves a number to its pilot and a text to its campaign. -/
def flown (mission : String) (outcome : Outcome) (name kills front : String) : Summary :=
  ⟨mission, outcome, 0, 0, 1, [], [], [],
    ⟨[⟨name, .number, kills⟩], [⟨"front", .string, front⟩]⟩, 0⟩

/-- Two pilots in one campaign, who spell it differently. -/
def entries : List LogEntry :=
  [⟨"Ace", "War", flown "Patrol" .success "kills" "1" "held"⟩,
    ⟨"Bo", "WAR", flown "PATROL" .success "kills" "7" "lost"⟩,
    ⟨"ACE", "war", flown "Raid" .failure "KILLS" "2" "open"⟩]

/-- One of them goes on in another campaign. -/
def last : LogEntry :=
  ⟨"ace", "Peace", flown "Parade" .success "Kills" "3" "closed"⟩

end Rivals

open Rivals in
/-- The kills of a pilot are those of his latest mission, and another campaign changes nothing in what
    the first one is about. -/
theorem Logbook.told_exactly_rivals : ∃ d q c₀ p c d', Logbook store entries d ∧
    store.loadedPilot "ace" d = .ok q ∧ q.missionsFlown = 2 ∧
    Saved.ofName "kills" q.vars = [⟨"KILLS", .number, "2"⟩] ∧
    store.loadedCampaign "WAR" d = .ok c₀ ∧ c₀.completed = ["Patrol"] ∧
    Saved.ofName "front" c₀.vars = [⟨"front", .string, "open"⟩] ∧
    store.Enters last d p c d' ∧ store.loadedPilot "ACE" d' = .ok p ∧
    store.loadedCampaign "peace" d' = .ok c ∧
    ∀ c₁, store.loadedCampaign "WAR" d' = .ok c₁ → c₁ = c₀ := by
  have hempty : store.IsEmpty .empty := SaveStore.isEmpty_of_no_files (fun place bytes => by
    unfold MemoryDisk.entry?
    split <;> simp [MemoryDisk.empty]) store
  obtain ⟨d, hd⟩ : ∃ d, store.enterAll entries .empty = some d :=
    Option.isSome_iff_exists.1 (by decide +kernel)
  obtain ⟨d', hlast⟩ : ∃ d', store.enterAll [last] d = some d' := by
    have hall : ((store.enterAll entries .empty).bind (store.enterAll [last])).isSome = true := by
      decide +kernel
    rw [hd] at hall
    exact Option.isSome_iff_exists.1 hall
  obtain ⟨p, c, d', he, -⟩ := SaveStore.exists_enters hlast
  have hbook := (Logbook.start hempty).enterAll hd
  rw [List.nil_append] at hbook
  have hcodec : store.codec = SaveFormat.binary.codec := rfl
  obtain ⟨hpilots, hcampaigns, hnext⟩ := told_exactly hbook hcodec
  obtain ⟨hpilot, hcampaign, -, hothers⟩ := hnext last p c d' he
  obtain ⟨q, hq, hace⟩ := (hpilots "ace").exists_ok (by decide +kernel)
  obtain ⟨c₀, hc₀, hwar⟩ := (hcampaigns "WAR").exists_ok (by decide +kernel)
  refine ⟨d, q, c₀, p, c, d', hbook, hq, ?_, ?_, hc₀, ?_, ?_, he, ?_, ?_, ?_⟩
  · rw [hace.flown]
    decide +kernel
  · rw [hace.vars.ofName_eq]
    decide +kernel
  · rw [hwar.completed]
    decide +kernel
  · rw [hwar.vars.ofName_eq]
    decide +kernel
  · exact hpilot "ACE" (by decide +kernel)
  · exact hcampaign "peace" (by decide +kernel)
  · exact fun c₁ => hothers "WAR" (by decide +kernel) c₀ c₁ hc₀

end MissionScript

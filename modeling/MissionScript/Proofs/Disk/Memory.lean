import MissionScript.Disk.Memory
import Mathlib.Tactic.Common

/-!
Files on a disk in memory. Where a path leads depends on the folders only, so it leads to the same
place as long as no folder comes or goes; and paths to files of different names lead to different
places.
-/

namespace MissionScript

theorem Table.find?_without {κ α : Type} [DecidableEq κ] (t : Table κ α) (k k' : κ) :
    find? ⟨t.entries.filter fun entry => entry.1 ≠ k⟩ k' = if k' = k then none else t.find? k' := by
  obtain ⟨entries⟩ := t
  simp only [find?]
  induction entries with
  | nil => simp
  | cons entry rest ih =>
    obtain ⟨key, a⟩ := entry
    by_cases hkey : key = k
    · by_cases hk : k' = k
      · simpa [hkey, hk] using ih
      · rw [List.filter_cons_of_neg (by simp [hkey]), ih, List.lookup_cons, hkey, beq_false_of_ne hk]
    · rw [List.filter_cons_of_pos (by simp [hkey]), List.lookup_cons, List.lookup_cons, ih]
      by_cases hk : k' = k
      · rw [hk, beq_false_of_ne (Ne.symm hkey), if_pos rfl]
      · rw [if_neg hk, if_neg hk]

namespace MemoryDisk

variable {d d' : MemoryDisk}

/-- Whether a name can be that of a file. -/
structure IsFileName (name : String) : Prop where
  ne_nil : name.toList ≠ []
  no_slash : '/' ∉ name.toList
  ne_point : name ≠ "."
  ne_points : name ≠ ".."

/-- The parts of the path of a file are those of the folder, without the empty one after a slash at its
    end, and the file. -/
theorem parts_pathIn (folder : String) {file : String} (h : '/' ∉ file.toList) :
    ∃ before, (parts folder = before ∨ parts folder = before ++ [""]) ∧
      parts (pathIn folder file) = before ++ [file] := by
  have hsplit (before : List Char) {name : List Char} (hname : '/' ∉ name) :
      (before ++ '/' :: name).splitOn '/' = before.splitOn '/' ++ [name] := by
    rw [List.splitOn_append_cons_self, List.splitOn_eq_singleton hname]
  have hparts {path : String} (before : List Char)
      (hpath : path.toList = before ++ '/' :: file.toList) :
      parts path = (before.splitOn '/').map String.ofList ++ [file] := by
    rw [parts, hpath, hsplit before h, List.map_append, List.map_singleton, String.ofList_toList]
  unfold pathIn
  split
  · next hfolder =>
    rw [Bool.or_eq_true, beq_iff_eq] at hfolder
    rcases hfolder with hempty | hlast
    · refine ⟨[], Or.inr ?_, ?_⟩
      · rw [String.isEmpty_iff.1 hempty]
        rfl
      · rw [String.isEmpty_iff.1 hempty, String.empty_append, parts, List.splitOn_eq_singleton h]
        simp
    · obtain ⟨before, hbefore⟩ := List.getLast?_eq_some_iff.1 hlast
      refine ⟨(before.splitOn '/').map String.ofList, Or.inr ?_, hparts before ?_⟩
      · rw [parts, hbefore, hsplit before List.not_mem_nil, List.map_append]
        rfl
      · rw [String.toList_append, hbefore, List.append_assoc, List.singleton_append]
  · refine ⟨parts folder, Or.inl rfl, hparts folder.toList ?_⟩
    rw [String.toList_append, String.toList_append, List.append_assoc]
    rfl

/-- Where a name leads from a folder. A name that is too long leads nowhere. -/
def follow? (place : List String) (name : String) : Option (List String) :=
  if name = "" ∨ name = "." then some place
  else if name = ".." then some (outward place)
  else if maxNameBytes < name.utf8ByteSize then none
  else some (place ++ [name])

theorem walk_cons_eq_place_iff {place target : List String} {name : String} {rest : List String} :
    d.walk place (name :: rest) = .place target ↔
      d.entry? place = some .folder ∧ ∃ next, follow? place name = some next ∧
        d.walk next rest = .place target := by
  rw [walk, follow?]
  split
  · next hentry => simp [hentry]
  · next hentry => simp [hentry]
  · next hentry =>
    rw [hentry]
    split
    · simp
    · split
      · simp
      · split
        · simp
        · simp

theorem getLast?_of_walk {name : String} (h : IsFileName name) {before place target : List String}
    (hwalk : d.walk place (before ++ [name]) = .place target) : target.getLast? = some name := by
  induction before generalizing place with
  | nil =>
    obtain ⟨-, next, hnext, hwalk⟩ := walk_cons_eq_place_iff.1 hwalk
    cases hwalk
    have hne : ¬ (name = "" ∨ name = ".") := by
      rintro (rfl | rfl)
      · exact h.ne_nil rfl
      · exact h.ne_point rfl
    rw [follow?, if_neg hne, if_neg h.ne_points] at hnext
    split at hnext
    · cases hnext
    · cases hnext
      exact List.getLast?_concat
  | cons first rest ih =>
    obtain ⟨-, next, -, hwalk⟩ := walk_cons_eq_place_iff.1 hwalk
    exact ih hwalk

/-- The path of a file leads to a place of its name. -/
theorem getLast?_of_locate {folder file : String} (h : IsFileName file) {place : List String}
    (hlocate : d.locate (pathIn folder file) = .place place) : place.getLast? = some file := by
  obtain ⟨before, -, hparts⟩ := parts_pathIn folder h.no_slash
  unfold locate at hlocate
  split at hlocate
  · cases hlocate
  · split at hlocate
    · cases hlocate
    · rw [hparts] at hlocate
      exact getLast?_of_walk h hlocate

/-- Whether two disks have the same folders. -/
def SameFolders (d d' : MemoryDisk) : Prop :=
  ∀ place, d'.entry? place = some .folder ↔ d.entry? place = some .folder

theorem SameFolders.symm (h : d.SameFolders d') : d'.SameFolders d :=
  fun place => (h place).symm

theorem SameFolders.trans {d'' : MemoryDisk} (h : d.SameFolders d') (h' : d'.SameFolders d'') :
    d.SameFolders d'' :=
  fun place => (h' place).trans (h place)

/-- Whether the folders of one disk are folders of another. -/
def KeepsFolders (d d' : MemoryDisk) : Prop :=
  ∀ place, d.entry? place = some .folder → d'.entry? place = some .folder

theorem SameFolders.keeps (h : d.SameFolders d') : d.KeepsFolders d' :=
  fun place => (h place).2

theorem KeepsFolders.walk (h : d.KeepsFolders d') {names place target : List String}
    (hwalk : d.walk place names = .place target) : d'.walk place names = .place target := by
  induction names generalizing place with
  | nil => exact hwalk
  | cons first rest ih =>
    rw [walk_cons_eq_place_iff] at hwalk ⊢
    obtain ⟨hfolder, next, hnext, hwalk⟩ := hwalk
    exact ⟨h place hfolder, next, hnext, ih hwalk⟩

theorem KeepsFolders.locate (h : d.KeepsFolders d') {path : String} {place : List String}
    (hlocate : d.locate path = .place place) : d'.locate path = .place place := by
  unfold MemoryDisk.locate at hlocate ⊢
  split at hlocate
  · cases hlocate
  · next hpath =>
    rw [if_neg hpath]
    split at hlocate
    · cases hlocate
    · next husable =>
      rw [if_neg husable]
      exact h.walk hlocate

theorem SameFolders.locate (h : d.SameFolders d') {path : String} {place : List String}
    (hlocate : d.locate path = .place place) : d'.locate path = .place place :=
  h.keeps.locate hlocate

theorem isBase_of_entry? {place : List String} (h : d.entry? place ≠ some .folder) :
    isBase place = false := by
  rw [← Bool.not_eq_true]
  intro hbase
  unfold entry? at h
  rw [if_pos hbase] at h
  exact h rfl

theorem entry?_insert {place : List String} (h : d.entry? place ≠ some .folder) (entry : DiskEntry)
    (other : List String) : entry? ⟨d.entries.insert place entry⟩ other =
      if other = place then some entry else d.entry? other := by
  unfold entry?
  by_cases hother : other = place
  · simp [hother, isBase_of_entry? h]
  · simp [hother]

theorem entry?_erase {place : List String} (h : d.entry? place ≠ some .folder) (other : List String) :
    entry? (d.erase place) other = if other = place then none else d.entry? other := by
  unfold entry?
  rw [erase, Table.find?_without]
  by_cases hother : other = place
  · simp [hother, isBase_of_entry? h]
  · simp [hother]

/-- A written file is where its path leads, and nothing else has changed. -/
theorem entry?_write {path : String} {bytes : Bytes} (h : d.write path bytes = (true, d')) :
    ∃ place, d.locate path = .place place ∧ d.entry? place ≠ some .folder ∧
      ∀ other, d'.entry? other = if other = place then some (.file bytes) else d.entry? other := by
  unfold write at h
  split at h
  · next place hlocate =>
    unfold put at h
    split at h
    · cases h
    · next hplace =>
      cases h
      exact ⟨place, hlocate, hplace, entry?_insert hplace _⟩
  · cases h
  · cases h

/-- A renamed file is where its new path leads and not any more where the old one does, and nothing
    else has changed. -/
theorem entry?_rename {source target : String} (h : d.rename source target = (true, d')) :
    ∃ old new bytes, d.locate source = .place old ∧ d.locate target = .place new ∧
      d.entry? old = some (.file bytes) ∧ d.entry? new ≠ some .folder ∧
      ∀ other, d'.entry? other = if other = new then some (.file bytes)
        else if other = old then none else d.entry? other := by
  unfold rename at h
  split at h
  · next old new hsource htarget =>
    have hmoved {bytes : Bytes} (hold : d.entry? old = some (.file bytes))
        (hnew : d.entry? new ≠ some .folder)
        (h : (if old = new then (true, d) else (d.erase old).put new bytes) = (true, d')) :
        ∀ other, d'.entry? other = if other = new then some (.file bytes)
          else if other = old then none else d.entry? other := by
      intro other
      by_cases hsame : old = new
      · rw [if_pos hsame] at h
        cases h
        subst hsame
        by_cases hother : other = old
        · rw [if_pos hother, hother, hold]
        · rw [if_neg hother, if_neg hother]
      · have hold' : d.entry? old ≠ some .folder := by simp [hold]
        have hnew' : entry? (d.erase old) new ≠ some .folder := by
          rw [entry?_erase hold', if_neg (Ne.symm hsame)]
          exact hnew
        rw [if_neg hsame, put] at h
        split at h
        · cases h
        · cases h
          rw [entry?_insert hnew', entry?_erase hold']
    split at h
    · next bytes hold hnew =>
      exact ⟨old, new, bytes, hsource, htarget, hold, by simp [hnew], hmoved hold (by simp [hnew]) h⟩
    · next bytes _ hold hnew =>
      exact ⟨old, new, bytes, hsource, htarget, hold, by simp [hnew], hmoved hold (by simp [hnew]) h⟩
    · cases h
  · cases h

theorem sameFolders_of_write {path : String} {bytes : Bytes} (h : d.write path bytes = (true, d')) :
    d.SameFolders d' := by
  obtain ⟨place, -, hplace, hentry⟩ := entry?_write h
  intro other
  rw [hentry]
  split
  · next hother => simp [hother, hplace]
  · rfl

theorem sameFolders_of_rename {source target : String} (h : d.rename source target = (true, d')) :
    d.SameFolders d' := by
  obtain ⟨old, new, bytes, -, -, hold, hnew, hentry⟩ := entry?_rename h
  intro other
  rw [hentry]
  split
  · next hother => simp [hother, hnew]
  · split
    · next hother => simp [hother, hold]
    · rfl

theorem read_eq_contents_iff {path : String} {bytes : Bytes} :
    d.read path = .contents bytes ↔
      ∃ place, d.locate path = .place place ∧ d.entry? place = some (.file bytes) := by
  rw [read]
  cases hlocate : d.locate path with
  | missing => simp
  | blocked => simp
  | place place =>
    cases hentry : d.entry? place with
    | none => simp [hentry]
    | some entry => cases entry <;> simp [hentry]

/-- A file is as it was if nothing has changed in the places of its name. -/
theorem SameFolders.contents_iff (h : d.SameFolders d') {folder file : String}
    (hfile : IsFileName file)
    (hentry : ∀ place, place.getLast? = some file → d'.entry? place = d.entry? place)
    (bytes : Bytes) :
    d'.read (pathIn folder file) = .contents bytes ↔ d.read (pathIn folder file) = .contents bytes := by
  simp only [read_eq_contents_iff]
  constructor
  · rintro ⟨place, hlocate, hplace⟩
    rw [hentry place (getLast?_of_locate hfile hlocate)] at hplace
    exact ⟨place, h.symm.locate hlocate, hplace⟩
  · rintro ⟨place, hlocate, hplace⟩
    rw [← hentry place (getLast?_of_locate hfile hlocate)] at hplace
    exact ⟨place, h.locate hlocate, hplace⟩

/-- A written file leaves those of other names as they are. -/
theorem contents_write_iff {folder file other : String} {bytes : Bytes} (hfile : IsFileName file)
    (hother : IsFileName other) (hne : other ≠ file)
    (h : d.write (pathIn folder file) bytes = (true, d')) (found : Bytes) :
    d'.read (pathIn folder other) = .contents found ↔
      d.read (pathIn folder other) = .contents found := by
  obtain ⟨target, hlocate, -, hentry⟩ := entry?_write h
  refine (sameFolders_of_write h).contents_iff hother (fun place hplace => ?_) found
  rw [hentry, if_neg]
  rintro rfl
  exact hne (Option.some.inj (hplace.symm.trans (getLast?_of_locate hfile hlocate)))

/-- A renamed file leaves those of other names than its old and its new one as they are. -/
theorem contents_rename_iff {folder source target other : String} (hsource : IsFileName source)
    (htarget : IsFileName target) (hother : IsFileName other) (hneSource : other ≠ source)
    (hneTarget : other ≠ target)
    (h : d.rename (pathIn folder source) (pathIn folder target) = (true, d')) (found : Bytes) :
    d'.read (pathIn folder other) = .contents found ↔
      d.read (pathIn folder other) = .contents found := by
  obtain ⟨old, new, bytes, hold, hnew, -, -, hentry⟩ := entry?_rename h
  refine (sameFolders_of_rename h).contents_iff hother (fun place hplace => ?_) found
  rw [hentry, if_neg, if_neg]
  · rintro rfl
    exact hneSource (Option.some.inj (hplace.symm.trans (getLast?_of_locate hsource hold)))
  · rintro rfl
    exact hneTarget (Option.some.inj (hplace.symm.trans (getLast?_of_locate htarget hnew)))

theorem read_write {path : String} {bytes : Bytes} (h : d.write path bytes = (true, d')) :
    d'.read path = .contents bytes := by
  obtain ⟨place, hlocate, -, hentry⟩ := entry?_write h
  refine read_eq_contents_iff.2 ⟨place, (sameFolders_of_write h).locate hlocate, ?_⟩
  rw [hentry, if_pos rfl]

theorem read_rename {source target : String} {bytes : Bytes} (hread : d.read source = .contents bytes)
    (h : d.rename source target = (true, d')) : d'.read target = .contents bytes := by
  obtain ⟨old, new, moved, hold, hnew, hmoved, -, hentry⟩ := entry?_rename h
  obtain ⟨place, hlocate, hplace⟩ := read_eq_contents_iff.1 hread
  cases hlocate.symm.trans hold
  cases hplace.symm.trans hmoved
  refine read_eq_contents_iff.2 ⟨new, (sameFolders_of_rename h).locate hnew, ?_⟩
  rw [hentry, if_pos rfl]

section Replacing

variable {folder first second firstStaged secondStaged : String} {firstBytes secondBytes : Bytes}
  {d₁ d₂ d₃ d₄ : MemoryDisk}

/-- Two files that are written beside their places and then put there can be read there. -/
theorem read_renamed
    (hnames : ∀ name ∈ [first, second, firstStaged, secondStaged], IsFileName name)
    (hdistinct : [first, second, firstStaged, secondStaged].Nodup)
    (h₁ : d.write (pathIn folder firstStaged) firstBytes = (true, d₁))
    (h₂ : d₁.write (pathIn folder secondStaged) secondBytes = (true, d₂))
    (h₃ : d₂.rename (pathIn folder firstStaged) (pathIn folder first) = (true, d₃))
    (h₄ : d₃.rename (pathIn folder secondStaged) (pathIn folder second) = (true, d₄)) :
    d₄.read (pathIn folder first) = .contents firstBytes ∧
      d₄.read (pathIn folder second) = .contents secondBytes := by
  obtain ⟨hfirst, hsecond, hfirstStaged, hsecondStaged⟩ : IsFileName first ∧ IsFileName second ∧
      IsFileName firstStaged ∧ IsFileName secondStaged := by simpa using hnames
  simp only [List.nodup_cons, List.mem_cons, List.not_mem_nil, or_false, not_or, not_false_eq_true,
    List.nodup_nil, and_true] at hdistinct
  obtain ⟨⟨hplaces, -, hfirstBeside⟩, -, hbeside⟩ := hdistinct
  constructor
  · rw [contents_rename_iff hsecondStaged hsecond hfirst hfirstBeside hplaces h₄]
    refine read_rename ?_ h₃
    rw [contents_write_iff hsecondStaged hfirstStaged hbeside h₂]
    exact read_write h₁
  · refine read_rename ?_ h₄
    rw [contents_rename_iff hfirstStaged hfirst hsecondStaged (Ne.symm hbeside)
      (Ne.symm hfirstBeside) h₃]
    exact read_write h₂

/-- Two files that are written beside their places and then put there leave those of other names as
    they are. -/
theorem contents_renamed_iff {other : String}
    (hnames : ∀ name ∈ [first, second, firstStaged, secondStaged], IsFileName name)
    (hother : IsFileName other) (hne : other ∉ [first, second, firstStaged, secondStaged])
    (h₁ : d.write (pathIn folder firstStaged) firstBytes = (true, d₁))
    (h₂ : d₁.write (pathIn folder secondStaged) secondBytes = (true, d₂))
    (h₃ : d₂.rename (pathIn folder firstStaged) (pathIn folder first) = (true, d₃))
    (h₄ : d₃.rename (pathIn folder secondStaged) (pathIn folder second) = (true, d₄)) (found : Bytes) :
    d₄.read (pathIn folder other) = .contents found ↔
      d.read (pathIn folder other) = .contents found := by
  obtain ⟨hfirst, hsecond, hfirstStaged, hsecondStaged⟩ : IsFileName first ∧ IsFileName second ∧
      IsFileName firstStaged ∧ IsFileName secondStaged := by simpa using hnames
  simp only [List.mem_cons, List.not_mem_nil, or_false, not_or] at hne
  obtain ⟨hneFirst, hneSecond, hneFirstStaged, hneSecondStaged⟩ := hne
  rw [contents_rename_iff hsecondStaged hsecond hother hneSecondStaged hneSecond h₄,
    contents_rename_iff hfirstStaged hfirst hother hneFirstStaged hneFirst h₃,
    contents_write_iff hsecondStaged hother hneSecondStaged h₂,
    contents_write_iff hfirstStaged hother hneFirstStaged h₁]

end Replacing

end MemoryDisk

end MissionScript

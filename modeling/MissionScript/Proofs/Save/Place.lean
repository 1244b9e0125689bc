import MissionScript.Proofs.Save.FileName

/-!
Where saves are. Each of them is a file directly in the folder of the store, and what is written beside
it is another one. No two of these files are the same, unless they are about names that are the same up
to folding.
-/

namespace MissionScript

namespace DiskPath

/-- The names that a path goes through. Empty names and single points lead nowhere. -/
def names (path : String) : List String :=
  (MemoryDisk.parts path).filter fun part => part ≠ "" ∧ part ≠ "."

/-- A path with another ending in the place of the one that its last name has, if it has one. A path
    that does not end with a name stays as it is. -/
def withEnding (path ending : String) : String :=
  let last := name path.toList
  if last = [] ∨ last = ['.', '.'] then path
  else
    let above := ((trimEnd path.toList.reverse).dropWhile (· != '/')).reverse
    String.ofList (above ++ stem last) ++ "." ++ ending

/-- Whether a path leads to a file directly in a folder. -/
def IsIn (folder path : String) : Prop :=
  ∃ file, MemoryDisk.IsFileName file ∧ path = pathIn folder file ∧ names path = names folder ++ [file]

theorem names_pathIn (folder : String) {file : String} (h : MemoryDisk.IsFileName file) :
    names (pathIn folder file) = names folder ++ [file] := by
  obtain ⟨before, hfolder, hpath⟩ := MemoryDisk.parts_pathIn folder h.no_slash
  have hfile : file ≠ "" ∧ file ≠ "." :=
    ⟨fun hempty => h.ne_nil (String.toList_eq_nil_iff.2 hempty), h.ne_point⟩
  have habove : names folder = before.filter fun part => part ≠ "" ∧ part ≠ "." := by
    rcases hfolder with hfolder | hfolder
    · rw [names, hfolder]
    · rw [names, hfolder, List.filter_append]
      exact List.append_nil _
  rw [names, hpath, List.filter_append, habove, List.filter_cons_of_pos (by simpa using hfile),
    List.filter_nil]

theorem isIn_pathIn (folder : String) {file : String} (h : MemoryDisk.IsFileName file) :
    IsIn folder (pathIn folder file) :=
  ⟨file, h, rfl, names_pathIn folder h⟩

/-- At the end of a path, which comes first here, there is nothing to take away from a name. -/
theorem trimEnd_append {last : List Char} (hne : last ≠ []) (hslash : '/' ∉ last)
    (hpoint : last ≠ ['.']) (above : List Char) : trimEnd (last ++ above) = last ++ above := by
  cases last with
  | nil => exact absurd rfl hne
  | cons c rest =>
    rw [List.mem_cons, not_or] at hslash
    rw [List.cons_append]
    unfold trimEnd
    split
    · next heq => exact absurd (List.cons.inj heq).1.symm hslash.1
    · next heq => exact absurd (List.cons.inj heq).1.symm hslash.1
    · next heq =>
      obtain ⟨rfl, hrest⟩ := List.cons.inj heq
      cases rest with
      | nil => exact absurd rfl hpoint
      | cons d rest =>
        obtain rfl := (List.cons.inj hrest).1
        exact absurd List.mem_cons_self hslash.2
    · rfl

/-- The last name of a path, and what comes before it. -/
theorem name_append {above last : List Char} (habove : above = [] ∨ above.getLast? = some '/')
    (hne : last ≠ []) (hslash : '/' ∉ last) (hpoint : last ≠ ['.']) :
    name (above ++ last) = last ∧
      ((trimEnd (above ++ last).reverse).dropWhile (· != '/')).reverse = above := by
  have hkept (c : Char) (hc : c ∈ last.reverse) : (c != '/') = true :=
    bne_iff_ne.2 fun heq => hslash (List.mem_reverse.1 (heq ▸ hc))
  have htrim : trimEnd (above ++ last).reverse = last.reverse ++ above.reverse := by
    rw [List.reverse_append]
    refine trimEnd_append (mt List.reverse_eq_nil_iff.1 hne) (mt List.mem_reverse.1 hslash) ?_ _
    exact fun heq => hpoint (by simpa using congrArg List.reverse heq)
  have hbefore : above.reverse.takeWhile (· != '/') = [] ∧
      above.reverse.dropWhile (· != '/') = above.reverse := by
    rcases habove with rfl | habove
    · exact ⟨rfl, rfl⟩
    · obtain ⟨before, rfl⟩ := List.getLast?_eq_some_iff.1 habove
      rw [List.reverse_append]
      exact ⟨rfl, rfl⟩
  rw [name, htrim, List.takeWhile_append_of_pos hkept, List.dropWhile_append_of_pos hkept, hbefore.1,
    hbefore.2, List.append_nil, List.reverse_reverse, List.reverse_reverse]
  exact ⟨rfl, rfl⟩

/-- The path of a file in a folder ends with the file, after a slash if there is anything before it. -/
theorem toList_pathIn (folder : String) : ∃ above : List Char,
    (above = [] ∨ above.getLast? = some '/') ∧
      ∀ file, (pathIn folder file).toList = above ++ file.toList := by
  unfold pathIn
  by_cases hfolder : (folder.isEmpty || folder.toList.getLast? == some '/') = true
  · simp only [if_pos hfolder]
    rw [Bool.or_eq_true, beq_iff_eq, String.isEmpty_iff] at hfolder
    exact ⟨folder.toList, hfolder.imp_left String.toList_eq_nil_iff.2, fun _ => String.toList_append⟩
  · simp only [if_neg hfolder]
    refine ⟨folder.toList ++ ['/'], Or.inr List.getLast?_concat, fun file => ?_⟩
    rw [String.toList_append, String.toList_append]
    rfl

/-- What comes before the last point of a name is its stem. -/
theorem stem_append_point {base ending : List Char} (hbase : base ≠ []) (hending : '.' ∉ ending) :
    stem (base ++ '.' :: ending) = base := by
  have hdrop : (base ++ '.' :: ending).reverse.dropWhile (· != '.') = '.' :: base.reverse := by
    rw [List.reverse_append, List.reverse_cons, List.append_assoc, List.singleton_append,
      List.dropWhile_append_of_pos fun c hc => ?_]
    · rfl
    · exact bne_iff_ne.2 fun hpoint => hending (List.mem_reverse.1 (hpoint ▸ hc))
  rw [stem, hdrop]
  split
  · next heq => cases heq
  · next heq => exact absurd (List.reverse_eq_nil_iff.1 (List.cons.inj heq).2) hbase
  · next heq =>
    obtain ⟨-, rfl⟩ := List.cons.inj heq
    exact List.reverse_reverse base

/-- A file in a folder gets another ending after the last point of its name. -/
theorem withEnding_pathIn (folder : String) {base ending : String} (ending' : String)
    (h : MemoryDisk.IsFileName (base ++ "." ++ ending)) (hbase : base ≠ "")
    (hending : '.' ∉ ending.toList) :
    withEnding (pathIn folder (base ++ "." ++ ending)) ending' =
      pathIn folder (base ++ "." ++ ending') := by
  obtain ⟨above, habove, hpath⟩ := toList_pathIn folder
  have hpoint : (base ++ "." ++ ending).toList ≠ ['.'] := fun heq =>
    h.ne_point (String.toList_injective heq)
  have hpoints : ¬ ((base ++ "." ++ ending).toList = [] ∨
      (base ++ "." ++ ending).toList = ['.', '.']) := by
    rintro (heq | heq)
    · exact h.ne_nil heq
    · exact h.ne_points (String.toList_injective heq)
  obtain ⟨hname, hbefore⟩ := name_append habove h.ne_nil h.no_slash hpoint
  have hstem : stem (base ++ "." ++ ending).toList = base.toList := by
    rw [String.toList_append, String.toList_append, List.append_assoc]
    exact stem_append_point (mt String.toList_eq_nil_iff.1 hbase) hending
  refine String.toList_injective ?_
  rw [withEnding, hpath, hname, if_neg hpoints, hbefore, hstem, hpath]
  simp only [String.toList_append, String.toList_ofList, List.append_assoc]

end DiskPath

namespace SaveStore

variable {s : SaveStore}

/-- What is written beside its place has another ending. -/
theorem staging_eq_withEnding {format : SaveFormat} (hcodec : s.codec = format.codec) (kind : SaveKind)
    (name : String) : staging (s.path kind name) =
      DiskPath.withEnding (s.path kind name) (s.codec.extension ++ ".tmp") := by
  have hextension : '.' ∉ s.codec.extension.toList := by
    rw [hcodec]
    cases format <;> decide
  have hbase : kind.word ++ "_" ++ Text.fileStem name ≠ "" := by
    intro hempty
    have hlist := String.toList_eq_nil_iff.2 hempty
    cases kind <;> simp [SaveKind.word] at hlist
  rw [staging_path, path, fileName]
  rw [DiskPath.withEnding_pathIn s.folder (s.codec.extension ++ ".tmp") (isFileName hcodec kind name) hbase
    hextension]
  simp only [String.append_assoc]

theorem isIn_path {format : SaveFormat} (hcodec : s.codec = format.codec) (kind : SaveKind)
    (name : String) : DiskPath.IsIn s.folder (s.path kind name) :=
  DiskPath.isIn_pathIn s.folder (isFileName hcodec kind name)

theorem isIn_staging {format : SaveFormat} (hcodec : s.codec = format.codec) (kind : SaveKind)
    (name : String) : DiskPath.IsIn s.folder (staging (s.path kind name)) := by
  rw [staging_path]
  exact DiskPath.isIn_pathIn s.folder (isFileName_fileName hcodec kind name (by decide))

theorem names_path {format : SaveFormat} (hcodec : s.codec = format.codec) (kind : SaveKind)
    (name : String) : DiskPath.names (s.path kind name) = DiskPath.names s.folder ++ [s.fileName kind name] :=
  DiskPath.names_pathIn s.folder (isFileName hcodec kind name)

theorem names_staging {format : SaveFormat} (hcodec : s.codec = format.codec) (kind : SaveKind)
    (name : String) : DiskPath.names (staging (s.path kind name)) =
      DiskPath.names s.folder ++ [s.fileName kind name ++ ".tmp"] := by
  rw [staging_path]
  exact DiskPath.names_pathIn s.folder (isFileName_fileName hcodec kind name (by decide))

/-- Paths of saves are the same if their files are. -/
theorem path_eq_iff {format : SaveFormat} (hcodec : s.codec = format.codec) {kind kind' : SaveKind}
    {name name' : String} :
    s.path kind name = s.path kind' name' ↔ s.fileName kind name = s.fileName kind' name' := by
  refine ⟨fun h => ?_, congrArg (pathIn s.folder)⟩
  have hnames := congrArg DiskPath.names h
  rw [names_path hcodec, names_path hcodec, List.append_right_inj] at hnames
  exact List.head_eq_of_cons_eq hnames

end SaveStore

/-- Where saves are, for stores in any folder and with any format. Saves of one kind have one path if
    their names are the same up to folding, and otherwise their paths go through different names; saves
    of different kinds never have one path. What is written beside a save has its path with another
    ending; it is in the place of no save, and beside one save only. All these paths lead to files
    directly in the folder. -/
theorem saves_apart (folder : String) (format : SaveFormat) :
    let s : SaveStore := ⟨folder, format.codec⟩
    (∀ kind kind' name name', s.path kind name = s.path kind' name' ↔
      kind = kind' ∧ foldName name = foldName name') ∧
    (∀ kind kind' name name',
      DiskPath.names (s.path kind name) = DiskPath.names (s.path kind' name') ↔
        s.path kind name = s.path kind' name') ∧
    (∀ kind kind' name name', DiskPath.names (SaveStore.staging (s.path kind name)) ≠
      DiskPath.names (s.path kind' name')) ∧
    (∀ kind kind' name name', DiskPath.names (SaveStore.staging (s.path kind name)) =
      DiskPath.names (SaveStore.staging (s.path kind' name')) ↔ s.path kind name = s.path kind' name') ∧
    ∀ kind name, DiskPath.IsIn folder (s.path kind name) ∧
      DiskPath.IsIn folder (SaveStore.staging (s.path kind name)) ∧
      SaveStore.staging (s.path kind name) =
        DiskPath.withEnding (s.path kind name) (format.extension ++ ".tmp") := by
  intro s
  have hcodec : s.codec = format.codec := rfl
  refine ⟨fun kind kind' name name' => ?_, fun kind kind' name name' => ?_,
    fun kind kind' name name' => ?_, fun kind kind' name name' => ?_, fun kind name => ?_⟩
  · rw [SaveStore.path_eq_iff hcodec, SaveStore.fileName_eq_iff]
  · rw [SaveStore.names_path hcodec, SaveStore.names_path hcodec, List.append_right_inj,
      List.singleton_inj, SaveStore.path_eq_iff hcodec]
  · rw [SaveStore.names_path hcodec, SaveStore.names_staging hcodec, ne_eq, List.append_right_inj,
      List.singleton_inj]
    exact fun heq => SaveStore.fileName_ne_staged hcodec kind' kind name' name heq.symm
  · rw [SaveStore.names_staging hcodec, SaveStore.names_staging hcodec, List.append_right_inj,
      List.singleton_inj, String.append_left_inj, SaveStore.path_eq_iff hcodec]
  · refine ⟨SaveStore.isIn_path hcodec kind name, SaveStore.isIn_staging hcodec kind name, ?_⟩
    have hextension : s.codec.extension = format.extension := by cases format <;> rfl
    rw [SaveStore.staging_eq_withEnding hcodec, hextension]

example : (⟨"saves/", SaveFormat.json.codec⟩ : SaveStore).path .pilot "../Ice%20" =
    "saves/pilot_%2e%2e%2fice%2520.json" := by decide +kernel

end MissionScript

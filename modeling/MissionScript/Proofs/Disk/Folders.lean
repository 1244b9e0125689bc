import MissionScript.Proofs.Disk.Memory

/-!
Making folders on a disk in memory. Whatever comes of it, nothing changes but that there are more
folders; and once a folder has been made, making it again changes nothing.
-/

namespace MissionScript.MemoryDisk

variable {d d₀ d' : MemoryDisk}

/-- Whether one disk is as another, but for new folders. -/
def GainsFolders (d d' : MemoryDisk) : Prop :=
  ∀ place, d'.entry? place = d.entry? place ∨
    d.entry? place = none ∧ d'.entry? place = some .folder

theorem GainsFolders.refl (d : MemoryDisk) : d.GainsFolders d :=
  fun _ => Or.inl rfl

theorem GainsFolders.trans {d'' : MemoryDisk} (h : d.GainsFolders d') (h' : d'.GainsFolders d'') :
    d.GainsFolders d'' := by
  intro place
  rcases h' place with hsame | ⟨hnone, hfolder⟩
  · rw [hsame]
    exact h place
  · rcases h place with hbefore | ⟨hbefore, -⟩
    · exact Or.inr ⟨hbefore.symm.trans hnone, hfolder⟩
    · exact Or.inr ⟨hbefore, hfolder⟩

theorem GainsFolders.keeps (h : d.GainsFolders d') : d.KeepsFolders d' := by
  intro place hplace
  rcases h place with hsame | ⟨hnone, -⟩
  · exact hsame.trans hplace
  · cases hnone.symm.trans hplace

/-- What is in a file stays there. -/
theorem GainsFolders.contents (h : d.GainsFolders d') {path : String} {bytes : Bytes}
    (hread : d.read path = .contents bytes) : d'.read path = .contents bytes := by
  obtain ⟨place, hlocate, hplace⟩ := read_eq_contents_iff.1 hread
  refine read_eq_contents_iff.2 ⟨place, h.keeps.locate hlocate, ?_⟩
  rcases h place with hsame | ⟨hnone, -⟩
  · exact hsame.trans hplace
  · cases hnone.symm.trans hplace

/-- No file comes to be. -/
theorem GainsFolders.entry?_eq_file (h : d.GainsFolders d') {place : List String} {bytes : Bytes}
    (hplace : d'.entry? place = some (.file bytes)) : d.entry? place = some (.file bytes) := by
  rcases h place with hsame | ⟨-, hfolder⟩
  · exact hsame.symm.trans hplace
  · cases hfolder.symm.trans hplace

section Making

variable {m : Made} {path name : String} {place : List String}

theorem gainsFolders_makeIn (d : MemoryDisk) (place : List String) (name : String) :
    d.GainsFolders (d.makeIn place name).2 := by
  unfold makeIn
  split
  · exact .refl d
  · exact .refl d
  · split
    · exact .refl d
    · split
      · exact .refl d
      · split
        · exact .refl d
        · exact .refl d
        · next hnone =>
          intro other
          rw [entry?_insert (by simp [hnone])]
          split
          · next hother => exact Or.inr ⟨hother ▸ hnone, rfl⟩
          · exact Or.inl rfl

theorem gainsFolders_makeFolder (d : MemoryDisk) (path : String) :
    d.GainsFolders (d.makeFolder path).2 := by
  unfold makeFolder
  split
  · exact .refl d
  · split
    · split <;> exact .refl d
    · split
      · exact gainsFolders_makeIn d _ _
      · exact .refl d
      · exact .refl d

/-- A folder that has been made in another one is there, as long as no folder goes. -/
theorem makeIn_again (h : d.makeIn place name = (m, d₀)) (hdone : m.isDone = true)
    (hkeeps : d₀.KeepsFolders d') : d'.makeIn place name = (.there, d') := by
  have hbefore : d.KeepsFolders d₀ := by
    have hgains := gainsFolders_makeIn d place name
    rw [h] at hgains
    exact hgains.keeps
  unfold makeIn at h
  split at h
  · cases h
    cases hdone
  · cases h
    cases hdone
  · next hplace =>
    rw [makeIn, hkeeps place (hbefore place hplace)]
    dsimp only
    split at h
    · next hpoints => rw [if_pos hpoints]
    · next hpoints =>
      rw [if_neg hpoints]
      split at h
      · cases h
        cases hdone
      · next hshort =>
        have hfolder : d₀.entry? (place ++ [name]) = some .folder := by
          split at h
          · next hthere =>
            cases h
            exact hthere
          · cases h
            cases hdone
          · next hnone =>
            cases h
            rw [entry?_insert (by simp [hnone]), if_pos rfl]
        rw [if_neg hshort, hkeeps _ hfolder]

/-- A folder that has been made is there, as long as no folder goes. -/
theorem makeFolder_again (h : d.makeFolder path = (m, d₀)) (hdone : m.isDone = true)
    (hkeeps : d₀.KeepsFolders d') : d'.makeFolder path = (.there, d') := by
  have hbefore : d.KeepsFolders d₀ := by
    have hgains := gainsFolders_makeFolder d path
    rw [h] at hgains
    exact hgains.keeps
  unfold makeFolder at h ⊢
  split at h
  · cases h
    cases hdone
  · next husable =>
    rw [if_neg husable]
    split at h
    · split at h
      · cases h
        cases hdone
      · next hpath => exact if_neg hpath
    · split at h
      · next place hwalk =>
        rw [hkeeps.walk (hbefore.walk hwalk)]
        exact makeIn_again h hdone hkeeps
      · cases h
        cases hdone
      · cases h
        cases hdone

end Making

/-- Makes a folder that is given by its characters. -/
def makeNamed (folder : List Char) : StateM MemoryDisk Made :=
  modifyGet (·.makeFolder (String.ofList folder))

theorem run_makeAround_cons (folder : List Char) (around : List (List Char)) (d : MemoryDisk) :
    (makeAround makeNamed (folder :: around)).run d =
      match d.makeFolder (String.ofList folder) with
      | (.missing, d₁) =>
        match (makeAround makeNamed around).run d₁ with
        | (true, d₂) =>
          let (attempt, d₃) := d₂.makeFolder (String.ofList folder)
          (attempt.isDone, d₃)
        | (false, d₂) => (false, d₂)
      | (attempt, d₁) => (attempt.isDone, d₁) := by
  have hrun : (makeNamed folder).run d = d.makeFolder (String.ofList folder) := rfl
  rw [makeAround, StateT.run_bind, hrun]
  rcases d.makeFolder (String.ofList folder) with ⟨attempt, d₁⟩
  cases attempt with
  | made | there | failed => rfl
  | missing =>
    change (makeAround makeNamed around >>= _ : StateM MemoryDisk Bool).run d₁ = _
    rw [StateT.run_bind]
    dsimp only
    rcases (makeAround makeNamed around).run d₁ with ⟨done, d₂⟩
    cases done <;> rfl

theorem gainsFolders_makeAround (folders : List (List Char)) (d : MemoryDisk) :
    d.GainsFolders ((makeAround makeNamed folders).run d).2 := by
  induction folders generalizing d with
  | nil => exact .refl d
  | cons folder around ih =>
    have hfirst := gainsFolders_makeFolder d (String.ofList folder)
    rw [run_makeAround_cons]
    rcases hfolder : d.makeFolder (String.ofList folder) with ⟨attempt, d₁⟩
    rw [hfolder] at hfirst
    cases attempt with
    | made | there | failed => exact hfirst
    | missing =>
      have haround := ih d₁
      dsimp only
      rcases hrun : (makeAround makeNamed around).run d₁ with ⟨done, d₂⟩
      rw [hrun] at haround
      cases done with
      | false => exact hfirst.trans haround
      | true => exact (hfirst.trans haround).trans (gainsFolders_makeFolder d₂ _)

/-- Folders that have been made are not made again, as long as no folder goes. -/
theorem run_makeAround_again {folders : List (List Char)}
    (h : (makeAround makeNamed folders).run d = (true, d₀)) (hkeeps : d₀.KeepsFolders d') :
    (makeAround makeNamed folders).run d' = (true, d') := by
  cases folders with
  | nil => rfl
  | cons folder around =>
    -- the last attempt at the folder itself has succeeded, whatever came before it
    have hmade : ∃ (attempt : Made) (d₁ : MemoryDisk),
        d₁.makeFolder (String.ofList folder) = (attempt, d₀) ∧ attempt.isDone = true := by
      rw [run_makeAround_cons] at h
      rcases hfirst : d.makeFolder (String.ofList folder) with ⟨attempt, d₁⟩
      rw [hfirst] at h
      cases attempt with
      | made | there =>
        cases h
        exact ⟨_, d, hfirst, rfl⟩
      | failed => cases h
      | missing =>
        dsimp only at h
        rcases hrun : (makeAround makeNamed around).run d₁ with ⟨done, d₂⟩
        rw [hrun] at h
        cases done with
        | false => cases h
        | true =>
          obtain ⟨hdone, hlast⟩ := Prod.mk.inj h
          exact ⟨_, d₂, Prod.ext rfl hlast, hdone⟩
    obtain ⟨attempt, d₁, hfolder, hdone⟩ := hmade
    rw [run_makeAround_cons, makeFolder_again hfolder hdone hkeeps]
    rfl

theorem gainsFolders_createFolders (d : MemoryDisk) (path : String) :
    d.GainsFolders ((Disk.createFolders path : StateM MemoryDisk Bool).run d).2 :=
  gainsFolders_makeAround (DiskPath.around path.toList) d

theorem run_createFolders_again {path : String}
    (h : (Disk.createFolders path : StateM MemoryDisk Bool).run d = (true, d₀))
    (hkeeps : d₀.KeepsFolders d') :
    (Disk.createFolders path : StateM MemoryDisk Bool).run d' = (true, d') :=
  run_makeAround_again h hkeeps

end MissionScript.MemoryDisk

import MissionScript.Disk.Basic
import Mathlib.Logic.Function.Basic

/-!
Disks that fail. Whether an operation succeeds is settled beforehand, for each of those that change
something. A failed operation changes nothing, but for a failed write, which may leave anything where
it was writing. What cannot be read from the beginning is as it is.
-/

namespace MissionScript

/-- What becomes of an operation. -/
inductive Fate where
  | succeeds
  /-- if it is a write, this is what it leaves behind -/
  | fails (left : Fetched)
  deriving DecidableEq

/-- A disk whose operations can fail. -/
structure FaultyDisk where
  /-- what comes of reading at a path -/
  files : String → Fetched
  /-- what becomes of the operations to come, from the next one on -/
  fates : Nat → Fate

namespace FaultyDisk

/-- The disk with other files, after one more operation. -/
def after (d : FaultyDisk) (files : String → Fetched) : FaultyDisk :=
  ⟨files, fun n => d.fates (n + 1)⟩

/-- Whether these many operations succeed and the next one fails. -/
structure FailsFirstAt (d : FaultyDisk) (count : Nat) : Prop where
  before : ∀ n < count, d.fates n = .succeeds
  fails : d.fates count ≠ .succeeds

/-- Makes folders. They hold no files. -/
def createFolders (d : FaultyDisk) : Bool × FaultyDisk :=
  (d.fates 0 = .succeeds, d.after d.files)

/-- Writes a file. -/
def write (d : FaultyDisk) (path : String) (bytes : Bytes) : Bool × FaultyDisk :=
  match d.fates 0 with
  | .succeeds => (true, d.after (Function.update d.files path (.contents bytes)))
  | .fails left => (false, d.after (Function.update d.files path left))

/-- Gives a file another name. -/
def rename (d : FaultyDisk) (source target : String) : Bool × FaultyDisk :=
  match d.fates 0, d.files source with
  | .succeeds, .contents bytes =>
    let left := Function.update d.files source .missing
    (true, d.after (Function.update left target (.contents bytes)))
  | _, _ => (false, d.after d.files)

/-- Removes a file. -/
def remove (d : FaultyDisk) (path : String) : Bool × FaultyDisk :=
  match d.fates 0, d.files path with
  | .succeeds, .contents _ => (true, d.after (Function.update d.files path .missing))
  | _, _ => (false, d.after d.files)

instance : Disk (StateM FaultyDisk) where
  read path := return (← get).files path
  isThere path := return (← get).files path ≠ .missing
  createFolders _ := modifyGet createFolders
  write path bytes := modifyGet (·.write path bytes)
  rename source target := modifyGet (·.rename source target)
  remove path := modifyGet (·.remove path)

variable {d : FaultyDisk} {path other source target : String} {bytes : Bytes}

/-- Operations that succeed move the first failure back. -/
theorem failsFirstAt_add_iff {d' : FaultyDisk} {k : Nat} (hbefore : ∀ n < k, d.fates n = .succeeds)
    (hfates : ∀ n, d'.fates n = d.fates (n + k)) (count : Nat) :
    d.FailsFirstAt (count + k) ↔ d'.FailsFirstAt count := by
  constructor
  · intro h
    refine ⟨fun n hn => ?_, ?_⟩
    · rw [hfates, h.before (n + k) (Nat.add_lt_add_right hn k)]
    · rw [hfates]
      exact h.fails
  · intro h
    refine ⟨fun n hn => ?_, ?_⟩
    · by_cases hk : n < k
      · exact hbefore n hk
      · rw [← h.before (n - k) (by omega), hfates, Nat.sub_add_cancel (Nat.le_of_not_lt hk)]
    · rw [← hfates]
      exact h.fails

theorem run_createFolders (path : String) (d : FaultyDisk) :
    (Disk.createFolders path : StateM FaultyDisk Bool).run d =
      (decide (d.fates 0 = .succeeds), d.after d.files) :=
  rfl

theorem run_write_of_succeeds (h : d.fates 0 = .succeeds) (path : String) (bytes : Bytes) :
    (Disk.write path bytes : StateM FaultyDisk Bool).run d =
      (true, d.after (Function.update d.files path (.contents bytes))) := by
  change d.write path bytes = _
  rw [write, h]

/-- A write that fails still leaves all other files as they are. -/
theorem run_write_of_fails (h : d.fates 0 ≠ .succeeds) (path : String) (bytes : Bytes) :
    ∃ left, (Disk.write path bytes : StateM FaultyDisk Bool).run d =
      (false, d.after (Function.update d.files path left)) := by
  change ∃ left, d.write path bytes = _
  cases hfate : d.fates 0 with
  | succeeds => exact absurd hfate h
  | fails left => exact ⟨left, by rw [write, hfate]⟩

theorem run_rename_of_succeeds (h : d.fates 0 = .succeeds)
    (hsource : d.files source = .contents bytes) (target : String) :
    (Disk.rename source target : StateM FaultyDisk Bool).run d = (true, d.after
      (Function.update (Function.update d.files source .missing) target (.contents bytes))) := by
  change d.rename source target = _
  rw [rename, h, hsource]

theorem run_rename_of_fails (h : d.fates 0 ≠ .succeeds) (source target : String) :
    (Disk.rename source target : StateM FaultyDisk Bool).run d = (false, d.after d.files) := by
  change d.rename source target = _
  unfold rename
  split
  · next hfate _ => exact absurd hfate h
  · rfl

theorem files_remove_of_ne (h : other ≠ path) : (d.remove path).2.files other = d.files other := by
  unfold remove
  split
  · exact Function.update_of_ne h _ _
  · rfl

end FaultyDisk

end MissionScript

import MissionScript.Disk.Path
import MissionScript.Text.Utf8

/-!
Disks: the files that missions are read from and saves are kept in. Any operation can fail.
-/

namespace MissionScript

/-- What comes of reading a file. -/
inductive Fetched where
  /-- there is no such file -/
  | missing
  | failed
  | contents (bytes : Bytes)
  deriving DecidableEq

/-- The operations of a disk. Those that give a truth value tell whether they succeeded. -/
class Disk (m : Type → Type) where
  read : (path : String) → m Fetched
  /-- whether there is a file or a folder at a path -/
  isThere : (path : String) → m Bool
  /-- makes a folder and those around it, as far as they are not there -/
  createFolders : (path : String) → m Bool
  write : (path : String) → Bytes → m Bool
  /-- gives a file another name, in place of the file of that name -/
  rename : (source target : String) → m Bool
  remove : (path : String) → m Bool

/-- The text of a file, if it can be read. -/
def readText {m : Type → Type} [Monad m] [Disk m] (path : String) : m (Option String) := do
  match ← Disk.read path with
  | .contents bytes => return textOfBytes? bytes
  | .missing | .failed => return none

/-- What comes of making a folder. -/
inductive Made where
  | made
  /-- there is such a folder already -/
  | there
  /-- the folder around it is missing -/
  | missing
  | failed
  deriving DecidableEq

/-- Whether there is a folder after an attempt to make it. -/
def Made.isDone : Made → Bool
  | .made | .there => true
  | .missing | .failed => false

/-- Makes a folder, given the folders around it, nearest first. Those around it are made only if it
    cannot be made without them. -/
def makeAround {m : Type → Type} [Monad m] (make : List Char → m Made) : List (List Char) → m Bool
  | [] => return true
  | folder :: around => do
    match ← make folder with
    | .missing => if ← makeAround make around then return (← make folder).isDone else return false
    | attempt => return attempt.isDone

end MissionScript

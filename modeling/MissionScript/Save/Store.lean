import MissionScript.Save.Codec
import MissionScript.Text.FileStem

/-!
The folder of saves. A finished mission is entered into the record of the pilot and of the campaign:
both are written beside the old files first, and then put in their place.
-/

namespace MissionScript

/-- A folder of saves. -/
structure SaveStore where
  folder : String
  codec : SaveCodec

/-- Why saves cannot be read or written. -/
inductive SaveError where
  /-- the disk failed -/
  | disk
  /-- a file holds no save -/
  | contents
  deriving DecidableEq

/-- What a save is about. -/
inductive SaveKind where
  | pilot
  | campaign
  deriving DecidableEq

def SaveKind.word : SaveKind → String
  | .pilot => "pilot"
  | .campaign => "campaign"

namespace SaveStore

/-- The file of a name. -/
def fileName (s : SaveStore) (kind : SaveKind) (name : String) : String :=
  kind.word ++ "_" ++ Text.fileStem name ++ "." ++ s.codec.extension

/-- The path of a name. -/
def path (s : SaveStore) (kind : SaveKind) (name : String) : String :=
  pathIn s.folder (s.fileName kind name)

/-- Where a file is written before it is put at its path. -/
def staging (path : String) : String :=
  path ++ ".tmp"

variable {m : Type → Type} [Monad m] [Disk m]

/-- The record at a path; a fresh one if there is no file. -/
def load {α : Type} (codec : Codec α) (fresh : α) (path : String) : m (Except SaveError α) := do
  match ← Disk.read path with
  | .missing => return .ok fresh
  | .failed => return .error .disk
  | .contents bytes =>
    match codec.decode bytes with
    | some a => return .ok a
    | none => return .error .contents

/-- The record of a pilot. -/
def loadPilot (s : SaveStore) (pilot : String) : m (Except SaveError PilotSave) :=
  load s.codec.pilot (.fresh pilot) (s.path .pilot pilot)

/-- The record of a campaign. -/
def loadCampaign (s : SaveStore) (campaign : String) : m (Except SaveError CampaignSave) :=
  load s.codec.campaign (.fresh campaign) (s.path .campaign campaign)

/-- The saved values that a mission starts from. -/
def snapshot (s : SaveStore) (pilot campaign : String) : m (Except SaveError Snapshot) := do
  match ← s.loadPilot pilot with
  | .error e => return .error e
  | .ok p =>
    match ← s.loadCampaign campaign with
    | .error e => return .error e
    | .ok c => return .ok ⟨p.vars, c.vars⟩

/-- Writes two files beside their paths. If one of them cannot be written, neither is left. -/
def stage (first second : String) (firstBytes secondBytes : Bytes) : m Bool := do
  let firstDone ← Disk.write (staging first) firstBytes
  let done ← if firstDone then Disk.write (staging second) secondBytes else pure false
  if done then return true
  else
    let _ ← Disk.remove (staging first)
    let _ ← Disk.remove (staging second)
    return false

/-- Puts two files in place of the old ones. -/
def replaceBoth (first second : String) (firstBytes secondBytes : Bytes) : m Bool := do
  if ← stage first second firstBytes secondBytes then
    if ← Disk.rename (staging first) first then Disk.rename (staging second) second
    else return false
  else return false

/-- Writes the records of a pilot and of a campaign. -/
def writeBoth (s : SaveStore) (pilot campaign : String) (p : PilotSave) (c : CampaignSave) :
    m (Except SaveError (PilotSave × CampaignSave)) := do
  if ← Disk.createFolders s.folder then
    let done ← replaceBoth (s.path .pilot pilot) (s.path .campaign campaign)
      (s.codec.pilot.encode p) (s.codec.campaign.encode c)
    return if done then .ok (p, c) else .error .disk
  else return .error .disk

/-- Enters a finished mission into the records of its pilot and its campaign. -/
def commit (s : SaveStore) (pilot campaign : String) (summary : Summary) :
    m (Except SaveError (PilotSave × CampaignSave)) := do
  match ← s.loadPilot pilot with
  | .error e => return .error e
  | .ok p =>
    match ← s.loadCampaign campaign with
    | .error e => return .error e
    | .ok c => s.writeBoth pilot campaign (p.enter summary) (c.enter summary)

end SaveStore

end MissionScript

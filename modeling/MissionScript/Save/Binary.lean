import MissionScript.Disk.Basic
import MissionScript.Save.Record

/-!
Saves as bytes: the fields of a record one after the other, without names. Numbers have a fixed
width and begin with their lowest byte; texts and lists begin with their length. A reader takes a
value off the front of the bytes and returns the rest.
-/

namespace MissionScript.Binary

/-- A number in so many bytes. -/
def putNat : (width : Nat) → Nat → Bytes
  | 0, _ => []
  | width + 1, n => UInt8.ofNat n :: putNat width (n / 256)

/-- The number in so many bytes. -/
def takeNat : (width : Nat) → Bytes → Option (Nat × Bytes)
  | 0, bytes => some (0, bytes)
  | _ + 1, [] => none
  | width + 1, b :: rest => (takeNat width rest).map fun (n, rest) => (b.toNat + 256 * n, rest)

/-- A text. -/
def putText (s : String) : Bytes :=
  putNat 8 s.utf8ByteSize ++ bytesOfText s

/-- Takes a text. -/
def takeText (bytes : Bytes) : Option (String × Bytes) := do
  let (length, rest) ← takeNat 8 bytes
  if rest.length < length then none
  else
    let s ← textOfBytes? (rest.take length)
    return (s, rest.drop length)

/-- A list. -/
def putList {α : Type} (put : α → Bytes) (items : List α) : Bytes :=
  putNat 8 items.length ++ items.flatMap put

/-- Takes so many items. -/
def takeItems {α : Type} (take : Bytes → Option (α × Bytes)) :
    (count : Nat) → Bytes → Option (List α × Bytes)
  | 0, bytes => some ([], bytes)
  | count + 1, bytes => do
    let (item, rest) ← take bytes
    let (items, rest) ← takeItems take count rest
    return (item :: items, rest)

/-- Takes a list. -/
def takeList {α : Type} (take : Bytes → Option (α × Bytes)) (bytes : Bytes) :
    Option (List α × Bytes) := do
  let (count, rest) ← takeNat 8 bytes
  takeItems take count rest

/-- The number of a type. -/
def typeIndex : VariableType → Nat
  | .number => 0
  | .string => 1

/-- Takes a type. -/
def takeType (bytes : Bytes) : Option (VariableType × Bytes) := do
  let (index, rest) ← takeNat 4 bytes
  let type ← VariableType.all[index]?
  return (type, rest)

/-- A saved value. -/
def putSaved (s : Saved) : Bytes :=
  putText s.name ++ putNat 4 (typeIndex s.type) ++ putText s.text

/-- Takes a saved value. -/
def takeSaved (bytes : Bytes) : Option (Saved × Bytes) := do
  let (name, rest) ← takeText bytes
  let (type, rest) ← takeType rest
  let (text, rest) ← takeText rest
  return (⟨name, type, text⟩, rest)

/-- The record of a pilot. -/
def putPilot (s : PilotSave) : Bytes :=
  putText s.pilot ++ putNat 4 s.missionsFlown.toNat ++ putList putSaved s.vars

/-- Takes the record of a pilot. -/
def takePilot (bytes : Bytes) : Option (PilotSave × Bytes) := do
  let (pilot, rest) ← takeText bytes
  let (missionsFlown, rest) ← takeNat 4 rest
  let (vars, rest) ← takeList takeSaved rest
  return (⟨pilot, UInt32.ofNat missionsFlown, vars⟩, rest)

/-- The record of a campaign. -/
def putCampaign (s : CampaignSave) : Bytes :=
  putText s.campaign ++ putList putText s.completed ++ putList putSaved s.vars

/-- Takes the record of a campaign. -/
def takeCampaign (bytes : Bytes) : Option (CampaignSave × Bytes) := do
  let (campaign, rest) ← takeText bytes
  let (completed, rest) ← takeList takeText rest
  let (vars, rest) ← takeList takeSaved rest
  return (⟨campaign, completed, vars⟩, rest)

end MissionScript.Binary

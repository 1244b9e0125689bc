import MissionScript.Json.Writing
import MissionScript.Save.Binary
import MissionScript.Settings

/-!
The formats of saves.
-/

namespace MissionScript

/-- How values are written as bytes and read back. -/
structure Codec (α : Type) where
  encode : α → Bytes
  decode : Bytes → Option α

/-- Whether every value is read back. -/
def Codec.IsFaithful {α : Type} (c : Codec α) : Prop :=
  ∀ a, c.decode (c.encode a) = some a

/-- How saves are written, and how the names of their files end. -/
structure SaveCodec where
  extension : String
  pilot : Codec PilotSave
  campaign : Codec CampaignSave

/-- Values as JSON on many lines. -/
def Codec.json {α : Type} (toJson : α → Json) (ofJson? : Json → Option α) : Codec α :=
  ⟨fun a => bytesOfText (toJson a).pretty,
    fun bytes => (Json.readBytes? bytes).bind ofJson?⟩

/-- Values as bytes; what follows them is skipped. -/
def Codec.binary {α : Type} (put : α → Bytes) (take : Bytes → Option (α × Bytes)) : Codec α :=
  ⟨put, fun bytes => (take bytes).map (·.1)⟩

/-- How saves are written in a format. -/
def SaveFormat.codec (format : SaveFormat) : SaveCodec :=
  match format with
  | .json =>
    ⟨format.extension, .json PilotSave.toJson PilotSave.ofJson?,
      .json CampaignSave.toJson CampaignSave.ofJson?⟩
  | .binary =>
    ⟨format.extension, .binary Binary.putPilot Binary.takePilot,
      .binary Binary.putCampaign Binary.takeCampaign⟩

end MissionScript

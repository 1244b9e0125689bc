import MissionScript.Formula.Parsing
import MissionScript.Json.Reading
import MissionScript.Json.Fields

/-!
Settings: how missions are loaded and run. They are read from a file; a file that cannot be used is
as good as none, and the built-in settings hold.
-/

namespace MissionScript

/-- How saves are written. -/
inductive SaveFormat where
  /-- as JSON on many lines -/
  | json
  /-- as bytes without any names -/
  | binary
  deriving DecidableEq

namespace SaveFormat

def word : SaveFormat → String
  | .json => "json"
  | .binary => "bincode"

/-- The ending of the names of files in a format. -/
def extension : SaveFormat → String
  | .json => "json"
  | .binary => "bin"

def all : List SaveFormat :=
  [.json, .binary]

end SaveFormat

/-- How missions are loaded and run. -/
structure Settings where
  /-- whether formulas may use operators that are not registered -/
  allowUnknown : Bool
  maxDepth : Nat
  /-- whether a mission is refused if anything is wrong with a formula -/
  strict : Bool
  /-- whether the first failed goal that counts ends the mission -/
  failsEarly : Bool
  /-- whether goals that are still open fail when the mission ends -/
  failsOpen : Bool
  seed : UInt64
  saveFormat : SaveFormat
  saveFolder : String
  /-- the seconds between two ticks -/
  tickSeconds : Float
  deriving DecidableEq

/-- Why settings cannot be used. -/
inductive SettingsError where
  /-- there is no file to read -/
  | unreadable
  /-- the file holds no settings -/
  | malformed
  | noDepth
  | noStep
  deriving DecidableEq

namespace Settings

/-- The settings that hold where a file says nothing. -/
def default : Settings :=
  ⟨false, defaultMaxDepth, false, true, true, 0, .json, "saves", 1⟩

/-- The settings that hold without a file. -/
def builtin : Settings :=
  { default with seed := 1701 }

def ofJson? (value : Json) : Option Settings := do
  let f ← value.fields? ["allow_unknown_operators", "max_depth", "strict_validation",
    "primary_failure_fails_mission", "fail_incomplete_at_end", "rng_seed", "save_format",
    "save_dir", "tick_seconds"]
  let allowUnknown ← f.optional "allow_unknown_operators" default.allowUnknown Json.bool?
  let maxDepth ← f.optional "max_depth" default.maxDepth (Json.nat? 64)
  let strict ← f.optional "strict_validation" default.strict Json.bool?
  let failsEarly ← f.optional "primary_failure_fails_mission" default.failsEarly Json.bool?
  let failsOpen ← f.optional "fail_incomplete_at_end" default.failsOpen Json.bool?
  let seed ← f.optional "rng_seed" default.seed fun v => (v.nat? 64).map UInt64.ofNat
  let saveFormat ← f.optional "save_format" default.saveFormat
    (Json.choice? SaveFormat.word SaveFormat.all)
  let saveFolder ← f.optional "save_dir" default.saveFolder Json.str?
  let tickSeconds ← f.optional "tick_seconds" default.tickSeconds Json.float?
  return ⟨allowUnknown, maxDepth, strict, failsEarly, failsOpen, seed, saveFormat, saveFolder,
    tickSeconds⟩

def toJson (s : Settings) : Json :=
  .obj [("allow_unknown_operators", .bool s.allowUnknown), ("max_depth", .int s.maxDepth),
    ("strict_validation", .bool s.strict), ("primary_failure_fails_mission", .bool s.failsEarly),
    ("fail_incomplete_at_end", .bool s.failsOpen), ("rng_seed", .int s.seed.toNat),
    ("save_format", .str s.saveFormat.word), ("save_dir", .str s.saveFolder),
    ("tick_seconds", .float s.tickSeconds)]

/-- Reads a text as settings. -/
def ofText? (text : String) : Option Settings :=
  (Json.read? text).bind ofJson?

/-- Whether formulas can be read and the clock can advance. -/
def check (s : Settings) : Except SettingsError Settings :=
  if s.maxDepth = 0 then .error .noDepth
  else if s.tickSeconds.isFinite && 0 < s.tickSeconds then .ok s
  else .error .noStep

/-- The settings of a file, given its text if it could be read. -/
def ofFile (text : Option String) : Except SettingsError Settings :=
  match text with
  | none => .error .unreadable
  | some text =>
    match ofText? text with
    | none => .error .malformed
    | some s => s.check

/-- The settings of a file if it can be used, and otherwise the built-in ones. -/
def ofFileOrBuiltin (text : Option String) : Settings :=
  match ofFile text with
  | .ok s => s
  | .error _ => builtin

/-- What the reader of a formula lets through. -/
def parseOptions (s : Settings) : ParseOptions :=
  ⟨s.allowUnknown, s.maxDepth⟩

end Settings

def SettingsError.message? : SettingsError → Option String
  | .noDepth => some "invalid runtime config: max_depth must be positive"
  | .noStep => some "invalid runtime config: tick_seconds must be a positive number"
  | .unreadable | .malformed => none

end MissionScript

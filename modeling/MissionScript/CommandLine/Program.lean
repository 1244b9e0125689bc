import MissionScript.CommandLine.Arguments
import MissionScript.Game.Simulation
import MissionScript.Mission.Checking
import MissionScript.Mission.Run
import MissionScript.Save.Store

/-!
The program: it checks a mission, or runs it against a scenario and prints what happens.
-/

namespace MissionScript.CommandLine

/-- How the program ends. -/
structure Exit where
  code : UInt32
  output : String
  /-- what is wrong -/
  error : Option String

/-- The program does what it was asked for. -/
def Exit.done (output : String) : Exit :=
  ⟨0, output, none⟩

/-- The program fails after some output. -/
def Exit.failed (output error : String) : Exit :=
  ⟨1, output, some error⟩

/-- The program was called in a wrong way. -/
def Exit.misused : Exit :=
  ⟨2, "", none⟩

/-- A line of output. -/
def line (s : String) : String :=
  s ++ "\n"

/-- A value under a heading. -/
def headed (heading : String) (value : Json) : String :=
  line s!"=== {heading} ===" ++ line value.pretty

/-- What is printed of a tick: nothing if it raised no notification. -/
def tickText (index : Nat) (report : TickReport) : String :=
  if report.notifications.isEmpty then ""
  else
    let time := showNumber report.time
    headed s!"tick {index} (t={time})" (.arr (report.notifications.map Notification.toJson))

/-- Runs ticks from an index on, until so many are run or the outcome is settled. -/
def runTicks (step : Float) : (left index : Nat) → Run → Simulation → String × Run
  | 0, _, run, _ => ("", run)
  | left + 1, index, run, game =>
    let t := run.tick (game.setTime (Float.ofNat index * step))
    let text := tickText index t.report
    if t.report.outcome = .inProgress then
      let (others, run) := runTicks step left (index + 1) t.run t.host
      (text ++ others, run)
    else (text, t.run)

/-- Checks a mission. -/
def check (definition : Definition) (registry : Registry) (settings : Settings) : Exit :=
  match definition.check registry settings with
  | .error (.variable name _) => .failed "" s!"Invalid variable '{name}'"
  | .error e => .failed "" e.message
  | .ok [] => .done (line s!"mission '{definition.name}' is clean")
  | .ok problems =>
    .failed (String.join (problems.map fun p => line p.message))
      s!"{problems.length} problem(s) in mission '{definition.name}'"

/-- Where the scenario of a mission is if it is not given: beside the mission. -/
def siblingPath (mission : String) : String :=
  let path := mission.toList
  pathIn (String.ofList ((DiskPath.folder? path).getD []))
    (String.ofList (DiskPath.stem (DiskPath.name path)) ++ ".host.json")

variable {m : Type → Type} [Monad m] [Disk m]

/-- The path of the scenario, if there is one. -/
def hostPath? (a : Arguments) : m (Option String) := do
  match a.host with
  | some path => return some path
  | none =>
    let path := siblingPath a.mission
    return if ← Disk.isThere path then some path else none

/-- The scenario, or the path where there is none. -/
def loadScenario (a : Arguments) : m (Except String Scenario) := do
  match ← hostPath? a with
  | none => return .ok .empty
  | some path =>
    match (← readText path).bind Scenario.ofText? with
    | some scenario => return .ok scenario
    | none => return .error path

/-- The pilot and the campaign that a mission is flown for. -/
def Arguments.fliers (a : Arguments) : Option (String × String) :=
  match a.pilot, a.campaign with
  | some pilot, some campaign => some (pilot, campaign)
  | _, _ => none

/-- The saved values that a mission starts from. -/
def loadSaved (store : SaveStore) : Option (String × String) → m (Except SaveError Snapshot)
  | some (pilot, campaign) => store.snapshot pilot campaign
  | none => return .ok .empty

/-- Saves what a mission leaves, if it is flown for somebody. -/
def save (store : SaveStore) (summary : Summary) : Option (String × String) → m Bool
  | none => return true
  | some (pilot, campaign) => do
    match ← store.commit pilot campaign summary with
    | .ok _ => return true
    | .error _ => return false

/-- Finishes a mission, saves what it leaves and prints what became of it, after some output. -/
def conclude (store : SaveStore) (fliers : Option (String × String)) (output : String) (run : Run) :
    m Exit := do
  let summary := run.finish
  if ← save store summary fliers then return .done (output ++ headed "summary" summary.toJson)
  else return .failed output "Failed to commit persistent variables"

/-- Runs a mission. -/
def fly (a : Arguments) (settings : Settings) (definition : Definition) : m Exit := do
  let store : SaveStore := ⟨settings.saveFolder, settings.saveFormat.codec⟩
  match ← loadSaved store a.fliers with
  | .error _ =>
    let pilot := a.pilot.getD ""
    return .failed "" s!"Failed to read saves for pilot '{pilot}'"
  | .ok saved =>
    match Mission.load definition .builtin settings saved with
    | .error _ => return .failed "" s!"Mission '{definition.name}' failed to load"
    | .ok mission =>
      match ← loadScenario a with
      | .error path => return .failed "" s!"Failed to load host scenario at {path}"
      | .ok scenario =>
        let game := Simulation.start scenario (.generator (.ofSeed settings.seed))
        let step := a.step.getD settings.tickSeconds
        let (output, run) := runTicks step a.ticks 0 (.start mission .builtin settings) game
        conclude store a.fliers output run

/-- Does what the arguments ask for. -/
def execute (settings : Settings) (a : Arguments) : m Exit := do
  let settings := { settings with saveFolder := a.saveFolder.getD settings.saveFolder }
  match (← readText a.mission).bind Definition.ofText? with
  | none => return .failed "" s!"Failed to load mission at {a.mission}"
  | some definition =>
    if a.check then return check definition .builtin settings else fly a settings definition

/-- The settings: those of a file, or the built-in ones if no path is given. -/
def loadSettings : (path : Option String) → m Settings
  | none => return .builtin
  | some path => do return .ofFileOrBuiltin (← readText path)

/-- The program as it is built in a package. -/
def run (package : String) (settingsPath : Option String) (args : List String) : m Exit := do
  match Request.ofArguments args with
  | .misuse => return .misused
  | .help => return .done helpText
  | .version => return .done (versionText package)
  | .run a => execute (← loadSettings settingsPath) a

end MissionScript.CommandLine

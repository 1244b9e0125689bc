import MissionScript.Event.Schedule
import MissionScript.Goal.Tracker
import MissionScript.Mission.Definition
import MissionScript.Settings

/-!
Loading a mission from its definition. Variables are declared and start from the saved values; then
events and goals are read, events are made to wait for each other, and all formulas are validated.
The first error ends the loading.
-/

namespace MissionScript

/-- Why a mission cannot be loaded. -/
inductive LoadError where
  /-- the formula of an event or a goal cannot be read -/
  | malformed (formula : String) (error : SyntaxError)
  | variable (name : String) (error : VariableError)
  | schedule (error : ScheduleError)
  | duplicateGoal (name : String)
  /-- something is wrong with a formula, and the settings are strict -/
  | invalid (issues : List Issue)
  deriving DecidableEq

def LoadError.message : LoadError → String
  | .malformed formula error => s!"formula '{formula}': {error.message}"
  | .variable name error => s!"variable '{name}': {error.message}"
  | .schedule error => error.message
  | .duplicateGoal name => s!"goal '{name}' is defined more than once"
  | .invalid issues =>
    let first := (issues.head?.map Issue.message).getD ""
    s!"{issues.length} validation issue(s), first: {first}"

/-- A loaded mission. -/
structure Mission where
  name : String
  schedule : Schedule
  tracker : Tracker
  vars : Variables
  ledger : Ledger
  /-- what is wrong with its formulas -/
  issues : List Issue

namespace Mission

/-- Declares a variable. -/
def declare (vs : Variables) (entry : VariableEntry) : Except LoadError Variables :=
  (vs.declare entry.name entry.type entry.initial entry.scope).mapError (.variable entry.name)

/-- Declares variables in order. -/
def declareAll (entries : List VariableEntry) : Except LoadError Variables :=
  entries.foldlM declare .empty

/-- Starts variables from saved values, first the pilot's and then the campaign's. -/
def overlay (vs : Variables) (saved : Snapshot) : Variables × List OverlayFault :=
  let (vs, _, first) := vs.applySaved saved.player
  let (vs, _, second) := vs.applySaved saved.campaign
  (vs, first ++ second)

/-- Reads the formula of an event or a goal. -/
def parse (registry : Registry) (options : ParseOptions) (formula text : String) :
    Except LoadError Formula :=
  (parseChars registry.has options text.toList).mapError (.malformed formula)

/-- Reads an event and adds it at the end. -/
def addEvent (registry : Registry) (options : ParseOptions) (s : Schedule) (entry : EventEntry) :
    Except LoadError Schedule := do
  let formula ← parse registry options entry.name entry.formula
  let event : Event :=
    { Event.simple entry.name formula with
      repeats := entry.repeats
      interval := entry.interval
      chainDelay := entry.chainDelay
      score := entry.score
      objective := entry.objective }
  (s.add event).mapError .schedule

/-- Makes an event wait for the one that it names. -/
def chainEvent (s : Schedule) (entry : EventEntry) : Except LoadError Schedule :=
  match entry.chainAfter with
  | none => .ok s
  | some predecessor => (s.chainAfter entry.name predecessor).mapError .schedule

/-- Reads all events, and then makes them wait for each other. -/
def scheduleAll (registry : Registry) (options : ParseOptions) (entries : List EventEntry) :
    Except LoadError Schedule := do
  let s ← entries.foldlM (addEvent registry options) .empty
  entries.foldlM chainEvent s

/-- Reads a goal and adds it at the end. -/
def addGoal (registry : Registry) (options : ParseOptions) (t : Tracker) (entry : GoalEntry) :
    Except LoadError Tracker :=
  if (t.goal? entry.name).isSome then .error (.duplicateGoal entry.name)
  else
    (parse registry options entry.name entry.formula).map fun formula =>
      t.add ⟨entry.name, formula, entry.type, entry.score, entry.team, entry.invalid, .incomplete⟩

/-- Reads all goals. -/
def trackAll (registry : Registry) (options : ParseOptions) (failsEarly : Bool)
    (entries : List GoalEntry) : Except LoadError Tracker :=
  entries.foldlM (addGoal registry options) (.empty failsEarly)

/-- What is wrong with the formulas of events and then of goals. -/
def validateAll (registry : Registry) (vs : Variables) (s : Schedule) (t : Tracker) : List Issue :=
  s.events.flatMap (fun e => validate e.name registry (some vs) e.formula) ++
    t.goals.flatMap fun g => validate g.name registry (some vs) g.formula

/-- Loads a mission. -/
def load (definition : Definition) (registry : Registry) (settings : Settings) (saved : Snapshot) :
    Except LoadError Mission := do
  let declared ← declareAll definition.vars
  let vars := (overlay declared saved).1
  let schedule ← scheduleAll registry settings.parseOptions definition.events
  let tracker ← trackAll registry settings.parseOptions settings.failsEarly definition.goals
  let issues := validateAll registry vars schedule tracker
  if settings.strict && !issues.isEmpty then .error (.invalid issues)
  else
    let ledger := tracker.registerIn (schedule.registerIn .empty)
    return ⟨definition.name, schedule, tracker, vars, ledger, issues⟩

/-- What the author of a mission is told while it is loaded, given what comes of it. -/
def loadWarnings (definition : Definition) (saved : Snapshot) (result : Except LoadError Mission) :
    List Warning :=
  let faults := match declareAll definition.vars with
    | .ok declared => (overlay declared saved).2
    | .error _ => []
  faults.map .overlay ++
    match result with
    | .ok mission => mission.issues.map .issue
    | .error (.schedule error) => error.warnings
    | .error _ => []

end Mission

end MissionScript

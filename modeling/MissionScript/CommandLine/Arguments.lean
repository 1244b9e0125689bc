import MissionScript.Number.Reading

/-!
The arguments of the command line. Every option is given at most once, as a word of its own before
its value or joined to it by an equals sign.
-/

namespace MissionScript.CommandLine

/-- What the command line asks for. -/
structure Arguments where
  /-- the path of the mission -/
  mission : String
  /-- the path of the scenario -/
  host : Option String
  ticks : Nat
  step : Option Float
  pilot : Option String
  campaign : Option String
  saveFolder : Option String
  /-- whether the mission is only checked -/
  check : Bool

/-- What comes of reading the arguments. -/
inductive Request where
  | run (arguments : Arguments)
  /-- the user asks how the program is used -/
  | help
  /-- the user asks which version of the program this is -/
  | version
  | misuse

/-- The options that have a value. -/
inductive Setting where
  | mission
  | host
  | ticks
  | step
  | pilot
  | campaign
  | saveFolder
  deriving DecidableEq

def Setting.all : List Setting :=
  [.mission, .host, .ticks, .step, .pilot, .campaign, .saveFolder]

/-- The name that the program is called by. -/
def programName : String :=
  "sexp_harness"

/-- How many ticks are run if nothing is said. -/
def defaultTicks : Nat := 60

namespace Setting

def word : Setting → String
  | .mission => "--mission"
  | .host => "--host"
  | .ticks => "--ticks"
  | .step => "--step"
  | .pilot => "--pilot"
  | .campaign => "--campaign"
  | .saveFolder => "--save-dir"

/-- What stands for the value of an option where the program explains itself. -/
def placeholder : Setting → String
  | .mission => "<MISSION>"
  | .host => "<HOST>"
  | .ticks => "<TICKS>"
  | .step => "<STEP>"
  | .pilot => "<PILOT>"
  | .campaign => "<CAMPAIGN>"
  | .saveFolder => "<SAVE_DIR>"

/-- What an option is good for. -/
def purpose : Setting → String
  | .mission => "Path to mission definition JSON file"
  | .host => "Host scenario JSON (defaults to <mission>.host.json next to the mission, if present)"
  | .ticks => s!"Number of ticks to run [default: {defaultTicks}]"
  | .step => "Seconds between ticks (defaults to the runtime config value)"
  | .pilot => "Pilot save to load persistent variables from and commit to"
  | .campaign => "Campaign save to load persistent variables from and commit to"
  | .saveFolder => "Override the save directory from the runtime config"

end Setting

/-- A line about an option. All purposes stand below each other. -/
def helpLine (option purpose : String) : String :=
  let width := 29
  option ++ String.ofList (List.replicate (width - option.length) ' ') ++ purpose ++ "\n"

/-- How the program explains itself. -/
def helpText : String :=
  "Runs a mission definition against a scripted host\n\nUsage: " ++ programName ++
    " [OPTIONS] --mission <MISSION>\n\nOptions:\n" ++
    String.join (Setting.all.map fun s =>
      helpLine ("      " ++ s.word ++ " " ++ s.placeholder) s.purpose) ++
    helpLine "      --check" "Parse and validate every formula, then exit without running" ++
    helpLine "  -h, --help" "Print help" ++ helpLine "  -V, --version" "Print version"

/-- The version of the program. It is that of the package the program was built in, which may have
a name of its own. -/
def versionText (package : String) : String :=
  package ++ " 0.1.0\n"

/-- Reads a number of ticks; it must fit into 32 bits. -/
def readTicks? (s : List Char) : Option Nat :=
  let (negative, digits) := readSign s
  let n := digitsValue 0 digits
  if digits.isEmpty || !digits.all isDigit then none
  else if negative && n != 0 || UInt32.size ≤ n then none
  else some n

/-- Whether an option can have a value. -/
def Setting.accepts (s : Setting) (value : String) : Bool :=
  match s with
  | .mission | .host | .saveFolder => !value.isEmpty
  | .ticks => (readTicks? value.toList).isSome
  | .step => (readAnyNumber? value.toList).isSome
  | .pilot | .campaign => true

/-- The options read so far. -/
structure Given where
  values : List (Setting × String)
  check : Bool

namespace Given

/-- The value of an option. -/
def value? (g : Given) (s : Setting) : Option String :=
  g.values.lookup s

/-- Adds an option, unless it is there or cannot have the value. -/
def put? (g : Given) (s : Setting) (value : String) : Option Given :=
  if (g.value? s).isNone && s.accepts value then some { g with values := (s, value) :: g.values }
  else none

/-- What the options ask for. The mission must be given; a pilot and a campaign go together. -/
def request (g : Given) : Request :=
  match g.value? .mission with
  | none => .misuse
  | some mission =>
    if (g.value? .pilot).isSome != (g.value? .campaign).isSome then .misuse
    else
      let ticks := ((g.value? .ticks).bind fun v => readTicks? v.toList).getD defaultTicks
      let step := (g.value? .step).bind fun v => readAnyNumber? v.toList
      .run ⟨mission, g.value? .host, ticks, step, g.value? .pilot, g.value? .campaign,
        g.value? .saveFolder, g.check⟩

end Given

/-- What an argument is. -/
inductive Argument where
  | help
  | version
  | check
  /-- an option, and its value if it is joined to it -/
  | setting (s : Setting) (value : Option String)
  | other

/-- The part of a text before the first equals sign, and the part after it if there is one. -/
def splitEquals (arg : List Char) : String × Option String :=
  match arg.dropWhile (· != '=') with
  | [] => (String.ofList arg, none)
  | _ :: value => (String.ofList (arg.takeWhile (· != '=')), some (String.ofList value))

/-- What an argument is. -/
def Argument.ofText (arg : String) : Argument :=
  match arg.toList with
  | '-' :: '-' :: _ =>
    match splitEquals arg.toList with
    | ("--help", none) => .help
    | ("--version", none) => .version
    | ("--check", none) => .check
    | (word, value) =>
      match Setting.all.find? (·.word == word) with
      | some s => .setting s value
      | none => .other
  | '-' :: 'h' :: _ => .help
  | '-' :: 'V' :: _ => .version
  | _ => .other

/-- Whether an argument cannot be the value of the option before it. -/
def isOption (arg : String) : Bool :=
  match arg.toList with
  | '-' :: _ :: _ => true
  | _ => false

/-- Reads the arguments from the first to the last. -/
def readFrom (g : Given) : List String → Request
  | [] => g.request
  | ["--"] => g.request
  | arg :: rest =>
    match Argument.ofText arg with
    | .help => .help
    | .version => .version
    | .check => if g.check then .misuse else readFrom { g with check := true } rest
    | .setting s (some value) =>
      match g.put? s value with
      | some g => readFrom g rest
      | none => .misuse
    | .setting s none =>
      match rest with
      | [] => .misuse
      | value :: rest =>
        if isOption value then .misuse
        else
          match g.put? s value with
          | some g => readFrom g rest
          | none => .misuse
    | .other => .misuse

/-- Reads the arguments of the command line. -/
def Request.ofArguments (args : List String) : Request :=
  readFrom ⟨[], false⟩ args

end MissionScript.CommandLine

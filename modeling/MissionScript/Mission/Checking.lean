import MissionScript.Mission.Loading

/-!
Checking a mission without loading it: all formulas are read and validated, and everything that is
wrong with them is told at once.
-/

namespace MissionScript

/-- Something wrong with a formula of a mission. -/
inductive Problem where
  | issue (i : Issue)
  /-- the formula cannot be read -/
  | malformed (formula : String) (error : SyntaxError)
  deriving DecidableEq

def Problem.message : Problem → String
  | .issue i => i.message
  | .malformed formula error => s!"{formula}: {error.message}"

namespace Definition

/-- The names of events and then of goals, with the texts of their formulas. -/
def formulas (d : Definition) : List (String × String) :=
  d.events.map (fun e => (e.name, e.formula)) ++ d.goals.map fun g => (g.name, g.formula)

/-- What is wrong with a formula. -/
def problemsOf (registry : Registry) (options : ParseOptions) (vs : Variables)
    (formula : String × String) : List Problem :=
  match parseChars registry.has options formula.2.toList with
  | .ok f => (validate formula.1 registry (some vs) f).map .issue
  | .error e => [.malformed formula.1 e]

/-- What is wrong with all formulas, in order. Nothing is told of them if a variable cannot be
    declared. -/
def check (d : Definition) (registry : Registry) (settings : Settings) :
    Except LoadError (List Problem) :=
  (Mission.declareAll d.vars).map fun vs =>
    d.formulas.flatMap (problemsOf registry settings.parseOptions vs)

end Definition

end MissionScript

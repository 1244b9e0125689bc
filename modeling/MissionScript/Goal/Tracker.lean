import MissionScript.Evaluation.Basic
import MissionScript.Notification

/-!
Following the goals of a mission. A pass over the goals first carries out the changes that formulas
have asked for, then evaluates every goal that is still open, in order, and last looks at the
outcome. The ledger learns of every change of a status at once, so later goals see it.
-/

namespace MissionScript

/-- The goals of a mission and how it stands. -/
structure Tracker where
  goals : List Goal
  /-- whether the first failed goal that counts ends the mission -/
  failsEarly : Bool
  outcome : Outcome

namespace Goal

/-- A goal moves to a status. -/
def move (g : Goal) (status : GoalStatus) : Goal :=
  { g with status }

/-- The notification of that move. -/
def moved (g : Goal) (status : GoalStatus) (now : Float) : Notification :=
  .goalChanged g.name status (g.scoreOf status) now

/-- Evaluates a goal if it is open, and moves it if that decides it. -/
def attempt {H : Type} [Host H] (registry : Registry) (now : Float) (g : Goal) :
    EvalM H (Goal × List Notification) := do
  if g.isOpen then
    let reading ← evaluate registry g.name g.formula.root
    match decision? reading.truth with
    | none => return (g, [])
    | some status =>
      modify fun env => { env with ledger := env.ledger.goalChanged g.name status now }
      return (g.move status, [g.moved status now])
  else return (g, [])

/-- Evaluates goals in order. -/
def attemptAll {H : Type} [Host H] (registry : Registry) (now : Float) :
    List Goal → EvalM H (List Goal × List Notification)
  | [] => return ([], [])
  | g :: rest => do
    let (g, first) ← g.attempt registry now
    let (rest, others) ← attemptAll registry now rest
    return (g :: rest, first ++ others)

/-- Makes the first goal of a name count or not. There may be no such goal. -/
def direct? (d : Directive) (now : Float) : List Goal → Option (List Goal × List Notification)
  | [] => none
  | g :: rest =>
    if sameName g.name d.goal then
      some ({ g with invalid := d.invalid } :: rest,
        if g.invalid = d.invalid then [] else [.goalValidity g.name d.invalid now])
    else (direct? d now rest).map fun (rest, ns) => (g :: rest, ns)

/-- Carries out changes in order. -/
def directAll (now : Float) : List Directive → List Goal →
    List Goal × List Notification × List Warning
  | [], goals => (goals, [], [])
  | d :: rest, goals =>
    match direct? d now goals with
    | none =>
      let (goals, ns, warnings) := directAll now rest goals
      (goals, ns, .directiveUnknownGoal d.goal :: warnings)
    | some (goals, first) =>
      let (goals, ns, warnings) := directAll now rest goals
      (goals, first ++ ns, warnings)

/-- Fails every goal that is still open. -/
def failOpen (now : Float) : List Goal → Ledger → List Goal × List Notification × Ledger
  | [], ledger => ([], [], ledger)
  | g :: rest, ledger =>
    if g.isOpen then
      let (rest, ns, ledger) := failOpen now rest (ledger.goalChanged g.name .failed now)
      (g.move .failed :: rest, g.moved .failed now :: ns, ledger)
    else
      let (rest, ns, ledger) := failOpen now rest ledger
      (g :: rest, ns, ledger)

end Goal

namespace Tracker

/-- The tracker without goals. -/
def empty (failsEarly : Bool) : Tracker :=
  ⟨[], failsEarly, .inProgress⟩

/-- Adds a goal at the end. -/
def add (t : Tracker) (g : Goal) : Tracker :=
  { t with goals := t.goals ++ [g] }

/-- The goal of a name. -/
def goal? (t : Tracker) (name : String) : Option Goal :=
  t.goals.find? fun g => sameName g.name name

/-- Opens a record for every goal. -/
def registerIn (t : Tracker) (ledger : Ledger) : Ledger :=
  t.goals.foldl (fun ledger g => ledger.registerGoal g.name) ledger

/-- Looks at the outcome. It is notified only when it changes. -/
def refresh (t : Tracker) (finished : Bool) (now : Float) : Tracker × List Notification :=
  let outcome := outcomeOf t.goals t.failsEarly finished
  if outcome = t.outcome then (t, []) else ({ t with outcome }, [.outcomeChanged outcome now])

/-- Carries out the changes that wait in the ledger. -/
def obey {H : Type} (now : Float) (t : Tracker) : EvalM H (Tracker × List Notification) :=
  modifyGet fun env =>
    let (directives, ledger) := env.ledger.takeDirectives
    let (goals, ns, warnings) := Goal.directAll now directives t.goals
    (({ t with goals }, ns), { env with ledger, log := env.log ++ warnings })

/-- One pass over the goals. -/
def tick {H : Type} [Host H] (registry : Registry) (t : Tracker) :
    EvalM H (Tracker × List Notification) := do
  let now := Host.time (← get).host
  let (t, changes) ← t.obey now
  let (goals, moves) ← Goal.attemptAll registry now t.goals
  let (t, ends) := { t with goals }.refresh false now
  return (t, changes ++ moves ++ ends)

/-- Fails every goal that is still open when the mission ends. -/
def failIncomplete (t : Tracker) (now : Float) (ledger : Ledger) :
    Tracker × List Notification × Ledger :=
  let (goals, ns, ledger) := Goal.failOpen now t.goals ledger
  let (t, ends) := { t with goals }.refresh false now
  (t, ns ++ ends, ledger)

/-- Settles the outcome of a finished mission. -/
def conclude (t : Tracker) (now : Float) : Tracker × List Notification :=
  t.refresh true now

end Tracker

end MissionScript

import MissionScript.Evaluation.Query

/-!
What actions do. An action looks at all its arguments before it touches anything.
-/

namespace MissionScript

namespace Action

variable {H : Type}

/-- Brings wings into play, one after the other, and tells whether all of them came. -/
def spawnWings [Host H] (env : Env H) : List String → Bool × Env H
  | [] => (true, env)
  | wing :: rest =>
    let (spawned, host) := Host.spawnWing env.host wing
    let env := { env with host }
    let env := if spawned then env else env.warn (.spawnWingRejected wing)
    let (others, env) := spawnWings env rest
    (spawned && others, env)

/-- Destroys ships, one after the other. -/
def destroyShips [Host H] (host : H) (ships : List String) : H :=
  ships.foldl (fun host ship => (Host.destroyShip host ship).2) host

/-- Asks for the same change to goals, one after the other. -/
def pushDirectives (ledger : Ledger) (invalid : Bool) (goals : List String) : Ledger :=
  goals.foldl (fun ledger goal => ledger.pushDirective ⟨goal, invalid⟩) ledger

/-- The bounds of a random number, without their fractions. -/
def randomBounds (operator : String) (args : List Value) : Except EvalError (Int × Int) := do
  let low := truncate (← Query.numberAt operator args 0)
  let high := truncate (← Query.numberAt operator args 1)
  if high < low then .error (.failed operator (.emptyRange low high))
  else return (low, high)

/-- The persona and the text of a message. -/
def messageArgs (operator : String) (args : List Value) : Except EvalError (String × String) := do
  let persona ← Query.textAt operator args 0
  let text ← Query.textAt operator args 1
  return (persona, text)

/-- What an action does, given the values of its arguments. -/
def perform [Host H] (a : Action) (args : List Value) (env : Env H) :
    Except EvalError Value × Env H :=
  let operator := a.definition.name
  let done : Except EvalError Value := .ok Truth.trueNow.toValue
  match a with
  | .random =>
    match randomBounds operator args with
    | .error e => (.error e, env)
    | .ok (low, high) =>
      let (n, host) := Host.randomInt env.host (Int64.ofInt low) (Int64.ofInt high)
      (.ok (.number (floatOfInt64 n)), { env with host })
  | .sendMessage =>
    match messageArgs operator args with
    | .error e => (.error e, env)
    | .ok (persona, text) => (done, { env with host := Host.sendMessage env.host persona text })
  | .spawnWing =>
    match Query.textsFrom operator 0 args with
    | .error e => (.error e, env)
    | .ok wings =>
      let (spawned, env) := spawnWings env wings
      (.ok (.bool spawned), env)
  | .selfDestruct =>
    match Query.textsFrom operator 0 args with
    | .error e => (.error e, env)
    | .ok ships => (done, { env with host := destroyShips env.host ships })
  | .invalidateGoal =>
    match Query.textsFrom operator 0 args with
    | .error e => (.error e, env)
    | .ok goals => (done, { env with ledger := pushDirectives env.ledger true goals })
  | .validateGoal =>
    match Query.textsFrom operator 0 args with
    | .error e => (.error e, env)
    | .ok goals => (done, { env with ledger := pushDirectives env.ledger false goals })

end Action

end MissionScript

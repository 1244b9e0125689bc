import MissionScript.Game.Simulation
import MissionScript.Proofs.Evaluation.Frame
import MissionScript.Proofs.Evaluation.Lockstep

/-!
An evaluation reads what its formula names, and nothing else. Variables that the formula does not
mention, what is remembered of other formulas, directives that wait and errors so far make no difference
to its value, nor to what it does.
-/

namespace MissionScript

variable {H : Type}

/-- Whether directives, latches and a number of errors are all that has been added to a ledger. -/
structure Ledger.Adds (l l' : Ledger) (ds : List Directive) (latches : List ((String × Path) × Float))
    (errors : Nat) : Prop where
  directives : l'.directives = l.directives ++ ds
  latches : l'.latches.entries = l.latches.entries ++ latches
  errors : l'.errors = l.errors + errors

/-- An argument is remembered, unless it was before. -/
theorem Ledger.Adds.latch {l l' : Ledger} {ds : List Directive}
    {latches : List ((String × Path) × Float)} {errors : Nat} (h : l.Adds l' ds latches errors)
    (formula : String) (path : Path) (now : Float) :
    l.Adds (l'.latch formula path now).2 ds
      (latches ++ if (l'.latchedAt? formula path).isSome then []
        else [(latchKey formula path, now)]) errors := by
  refine { h with latches := ?_ }
  change (l'.latches.insertNew (latchKey formula path) now).entries = _
  unfold Table.insertNew Table.contains latchedAt?
  split
  · rw [h.latches, List.append_nil]
  · rw [← List.append_assoc, ← h.latches]

namespace Env

/-- Whether two environments look the same to a formula of a name. -/
structure LooksSame (formula : String) (root : Node) (env env' : Env H) : Prop where
  host : env'.host = env.host
  events : ∀ name, env'.ledger.event? name = env.ledger.event? name
  goals : ∀ name, env'.ledger.goal? name = env.ledger.goal? name
  /-- the same is remembered of the formula -/
  latches : ∀ path, env'.ledger.latchedAt? formula path = env.ledger.latchedAt? formula path
  /-- the variables that the formula mentions are the same, or declared in neither -/
  vars : ∀ name, root.Mentions name → env'.vars.get? name = env.vars.get? name

/-- Whether the same steps have been taken from two environments on, and have added the same to them. -/
structure WentSame (start start' env env' : Env H) : Prop where
  trace : env'.trace = env.trace
  added : ∃ ds latches,
    start.ledger.Adds env.ledger ds latches (env.trace.toList.countP Visit.isFailure) ∧
    start'.ledger.Adds env'.ledger ds latches (env.trace.toList.countP Visit.isFailure)

section

variable {formula : String} {root : Node} {start start' env env' : Env H}

theorem LooksSame.assign (h : env.LooksSame formula root env') (name : String) (value : Stored)
    (hname : root.Mentions name) :
    (env.assign name value).LooksSame formula root (env'.assign name value) := by
  refine { h with vars := fun other hother => ?_ }
  have hhere := h.vars name hname
  have hthere := h.vars other hother
  unfold Variables.get? at hhere hthere
  change (Table.modify _ _ _).find? _ = (Table.modify _ _ _).find? _
  rw [Table.find?_modify, Table.find?_modify, hhere, hthere]

theorem LooksSame.close (h : env.LooksSame formula root env') (path : Path) (offset : Nat)
    (outcome : Except EvalError Value) :
    (env.close formula path offset outcome).LooksSame formula root
      (env'.close formula path offset outcome) := by
  cases outcome with
  | ok v => exact { h with }
  | error e =>
    obtain ⟨warned, log, hreport⟩ := env.report_eq formula path offset e
    obtain ⟨warned', log', hreport'⟩ := env'.report_eq formula path offset e
    unfold Env.close
    dsimp only
    rw [hreport, hreport']
    exact { h with }

/-- A failure is an error more. -/
theorem adds_close {l : Ledger} {ds : List Directive} {latches : List ((String × Path) × Float)}
    {errors : Nat} (h : l.Adds env.ledger ds latches errors) (path : Path) (offset : Nat)
    (outcome : Except EvalError Value) :
    l.Adds (env.close formula path offset outcome).ledger ds latches
      (errors + [Visit.leave path outcome].countP Visit.isFailure) := by
  cases outcome with
  | ok v => exact h
  | error e =>
    obtain ⟨warned, log, hreport⟩ := env.report_eq formula path offset e
    unfold Env.close
    dsimp only
    rw [hreport]
    exact ⟨h.directives, h.latches, congrArg (· + 1) h.errors⟩

/-- Environments go on looking the same to the formula, and what happens to one of them happens to the
    other one. -/
theorem mirrors_looksSame (formula : String) (root : Node) (start start' : Env H) :
    Mirrors formula root.Mentions fun env env' =>
      env.LooksSame formula root env' ∧ WentSame start start' env env' where
  host h := h.1.host
  event? h := h.1.events
  goal? h := h.1.goals
  latchedAt? h := h.1.latches
  get? h := h.1.vars
  play h host := ⟨{ h.1 with host := rfl }, h.2.trace, h.2.added⟩
  warn h w := ⟨{ h.1 with }, h.2.trace, h.2.added⟩
  pushDirective h d := by
    obtain ⟨ds, latches, hadds, hadds'⟩ := h.2.added
    refine ⟨{ h.1 with }, h.2.trace, ds ++ [d], latches, { hadds with directives := ?_ },
      { hadds' with directives := ?_ }⟩
    · rw [Ledger.pushDirective, hadds.directives, List.append_assoc]
    · rw [Ledger.pushDirective, hadds'.directives, List.append_assoc]
  latch h path now := by
    obtain ⟨ds, latches, hadds, hadds'⟩ := h.2.added
    refine ⟨{ h.1 with latches := Ledger.latchedAt?_latch_congr h.1.latches path now }, h.2.trace, ds,
      _, hadds.latch formula path now, ?_⟩
    rw [← h.1.latches path]
    exact hadds'.latch formula path now
  assign h name hname value := ⟨h.1.assign name value hname, h.2.trace, h.2.added⟩
  enter {env env'} h path n := by
    obtain ⟨ds, latches, hadds, hadds'⟩ := h.2.added
    have hcount : (env.record (.enter path n)).trace.toList.countP Visit.isFailure =
        env.trace.toList.countP Visit.isFailure := by
      rw [record, Array.toList_push, List.countP_append]
      rfl
    refine ⟨{ h.1 with }, congrArg (Array.push · _) h.2.trace, ds, latches, ?_⟩
    rw [hcount]
    exact ⟨hadds, hadds'⟩
  close {env env'} h path offset outcome := by
    obtain ⟨ds, latches, hadds, hadds'⟩ := h.2.added
    have hcount : (env.close formula path offset outcome).trace.toList.countP Visit.isFailure =
        env.trace.toList.countP Visit.isFailure + [Visit.leave path outcome].countP Visit.isFailure := by
      rw [trace_close, Array.toList_push, List.countP_append]
    refine ⟨h.1.close path offset outcome, ?_, ds, latches, ?_⟩
    · rw [trace_close, trace_close, h.2.trace]
    · rw [hcount]
      exact ⟨adds_close hadds path offset outcome, adds_close hadds' path offset outcome⟩

end

end Env

/-- Where two environments look the same to a formula, it has the same value in both and goes through the
    same steps, with the same failures. They still look the same afterwards, and the same directives, the
    same latches and as many errors have been added to both. -/
theorem evaluate_local [Host H] (registry : Registry) {formula : String} {root : Node} {env env' : Env H}
    (h : env.LooksSame formula root env') :
    let run := (evaluate registry formula root).run env
    let run' := (evaluate registry formula root).run env'
    run'.1 = run.1 ∧ run.2.LooksSame formula root run'.2 ∧ run'.2.trace = run.2.trace ∧
      ∃ ds latches,
        env.ledger.Adds run.2.ledger ds latches (run.2.trace.toList.countP Visit.isFailure) ∧
        env'.ledger.Adds run'.2.ledger ds latches (run.2.trace.toList.countP Visit.isFailure) := by
  have hstart : Env.WentSame env env' { env with trace := #[] } { env' with trace := #[] } :=
    ⟨rfl, [], [], ⟨(List.append_nil _).symm, (List.append_nil _).symm, rfl⟩,
      (List.append_nil _).symm, (List.append_nil _).symm, rfl⟩
  have hlockstep := Evaluation.lockstep_evalNode (Env.mirrors_looksSame formula root env env') registry
    [] root fun place hplace name hname => ⟨place, hplace, hname⟩
  obtain ⟨hvalue, hlooks, hwent⟩ := hlockstep { env with trace := #[] } { env' with trace := #[] }
    ⟨{ h with }, hstart⟩
  exact ⟨hvalue, hlooks, hwent.trace, hwent.added⟩

/-- A formula that counts in a variable, asks for a change to a goal, and fails at a variable that nobody
    has declared. -/
def Refuel.root : Node :=
  let apply (name : String) (args : List Node) : Node := .list (.atom (.operator name) 0 :: args) 0
  let fuel : Node := .atom (.variable "Fuel") 0
  apply "when" [apply "and-in-sequence" [apply "has-time-elapsed" [.atom (.number 1) 0]],
    apply "modify-variable" [fuel, apply "+" [fuel, .atom (.number 1) 0]],
    apply "invalidate-goal" [.atom (.text "escort") 0],
    apply "<" [.atom (.variable "spare") 0, .atom (.number 5) 0]]

/-- An environment with some cargo, apart from the fuel, and with a ledger. -/
def Refuel.env (cargo : String) (ledger : Ledger) : Env Simulation :=
  let vars : Variables := ⟨[("cargo", ⟨"cargo", .string, .string cargo, .string cargo, .mission⟩),
    ("fuel", ⟨"fuel", .number, .number 5, .number 0, .player⟩)]⟩
  .start ((Simulation.start .empty (.rolls [])).setTime 2) vars ledger #[]

/-- A ledger in which other formulas have left something. -/
def Refuel.ledger : Ledger :=
  { Ledger.empty with
    directives := [⟨"escort", false⟩]
    latches := ⟨[(("patrol", [1, 1]), 1)]⟩
    warned := ["spare"]
    errors := 7 }

theorem evaluate_local_refuel :
    let env := Refuel.env "ore" .empty
    let env' := Refuel.env "gas" Refuel.ledger
    let run := (evaluate Registry.builtin "launch" Refuel.root).run env
    let run' := (evaluate Registry.builtin "launch" Refuel.root).run env'
    env.LooksSame "launch" Refuel.root env' ∧ env'.vars.get? "cargo" ≠ env.vars.get? "cargo" ∧
      ((run'.2.vars.get? "fuel").map Variable.value = some (.number 6) ∧
        run'.2.ledger.directives = [⟨"escort", false⟩, ⟨"escort", true⟩] ∧
        run'.2.ledger.latchedAt? "launch" [1, 1] = some 2 ∧ run'.2.ledger.errors = 8) ∧
      run'.1 = run.1 ∧ run.2.LooksSame "launch" Refuel.root run'.2 ∧ run'.2.trace = run.2.trace ∧
      ∃ ds latches,
        env.ledger.Adds run.2.ledger ds latches (run.2.trace.toList.countP Visit.isFailure) ∧
        env'.ledger.Adds run'.2.ledger ds latches (run.2.trace.toList.countP Visit.isFailure) := by
  have hlooks : (Refuel.env "ore" .empty).LooksSame "launch" Refuel.root
      (Refuel.env "gas" Refuel.ledger) := by
    refine ⟨rfl, fun _ => rfl, fun _ => rfl, fun path => ?_, ?_⟩
    · have hother : foldName "launch" ≠ "patrol" := by decide +kernel
      exact Table.find?_eq_none_iff.2 fun hmem =>
        hother (Prod.mk.inj (List.mem_singleton.1 hmem)).1
    · have hvars : ∀ place ∈ Refuel.root.walk, ∀ name ∈ place.2.variableName?,
          (Refuel.env "gas" Refuel.ledger).vars.get? name =
            (Refuel.env "ore" .empty).vars.get? name := by decide +kernel
      rintro name ⟨place, hplace, hname⟩
      exact hvars place hplace name hname
  have hrefuel :
      let env := Refuel.env "ore" .empty
      let env' := Refuel.env "gas" Refuel.ledger
      let run' := (evaluate Registry.builtin "launch" Refuel.root).run env'
      env'.vars.get? "cargo" ≠ env.vars.get? "cargo" ∧
        ((run'.2.vars.get? "fuel").map Variable.value = some (.number 6) ∧
          run'.2.ledger.directives = [⟨"escort", false⟩, ⟨"escort", true⟩] ∧
          run'.2.ledger.latchedAt? "launch" [1, 1] = some 2 ∧ run'.2.ledger.errors = 8) := by
    decide +kernel
  exact ⟨hlooks, hrefuel.1, hrefuel.2, evaluate_local Registry.builtin hlooks⟩

end MissionScript

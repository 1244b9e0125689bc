import MissionScript.Proofs.Evaluation.Lockstep

/-!
What is remembered of other formulas makes no difference to a formula. Environments that differ in
nothing else have the same values, and they are changed in the same way.
-/

namespace MissionScript

variable {H : Type} {α : Type} {name : String}

namespace Env

/-- An environment with other latches. -/
def withLatches (env : Env H) (latches : Table (String × Path) Float) : Env H :=
  { env with ledger := { env.ledger with latches } }

/-- Whether environments differ at most in what is remembered of formulas of other names. -/
def Alike (name : String) (env env' : Env H) : Prop :=
  ∃ latches, env' = env.withLatches latches ∧
    ∀ path, env'.ledger.latchedAt? name path = env.ledger.latchedAt? name path

end Env

/-- Whether a computation does the same with environments that differ at most in what is remembered of
    formulas of other names. -/
def Agrees (name : String) (m : EvalM H α) : Prop :=
  ∀ env env', env.Alike name env' →
    (m.run env').1 = (m.run env).1 ∧ (m.run env).2.Alike name (m.run env').2

namespace Env

theorem report_withLatches (env : Env H) (latches : Table (String × Path) Float) (formula : String)
    (path : Path) (offset : Nat) (e : EvalError) :
    (env.withLatches latches).report formula path offset e =
      (env.report formula path offset e).withLatches latches := by
  unfold report
  cases e with
  | unknownVariable variableName =>
    unfold Ledger.warnOnce
    cases hwarned : env.ledger.warned.contains (foldName variableName) with
    | false =>
      simp only [withLatches, hwarned]
      rfl
    | true =>
      simp only [withLatches, hwarned]
      rfl
  | _ => rfl

theorem close_withLatches (env : Env H) (latches : Table (String × Path) Float) (formula : String)
    (path : Path) (offset : Nat) (outcome : Except EvalError Value) :
    (env.withLatches latches).close formula path offset outcome =
      (env.close formula path offset outcome).withLatches latches := by
  cases outcome with
  | ok => rfl
  | error e =>
    unfold close
    dsimp only
    rw [report_withLatches]
    rfl

/-- A change that leaves alone what is remembered is the same one with other latches. -/
theorem Alike.congr {env env' after after' : Env H} (h : env.Alike name env')
    (hsame : ∀ latches, env' = env.withLatches latches → after' = after.withLatches latches)
    (hlatches : after.ledger.latches = env.ledger.latches) : after.Alike name after' := by
  obtain ⟨latches, rfl, hlatched⟩ := h
  obtain rfl := hsame latches rfl
  refine ⟨latches, rfl, fun path => (hlatched path).trans ?_⟩
  rw [Ledger.latchedAt?, Ledger.latchedAt?, hlatches]

/-- A formula of a name looks up nothing that is remembered of formulas of other names. -/
theorem mirrors_alike (name : String) :
    Mirrors (H := H) name (fun _ => True) fun env env' => env.Alike name env' where
  host := by rintro env _ ⟨latches, rfl, -⟩; rfl
  event? := by rintro env _ ⟨latches, rfl, -⟩ other; rfl
  goal? := by rintro env _ ⟨latches, rfl, -⟩ other; rfl
  latchedAt? h path := h.choose_spec.2 path
  get? := by rintro env _ ⟨latches, rfl, -⟩ other -; rfl
  play h host := h.congr (by rintro latches rfl; rfl) rfl
  warn h w := h.congr (by rintro latches rfl; rfl) rfl
  pushDirective h d := h.congr (by rintro latches rfl; rfl) rfl
  latch := by
    rintro env _ ⟨latches, rfl, hlatched⟩ path now
    exact ⟨latches.insertNew (Ledger.latchKey name path) now, rfl,
      Ledger.latchedAt?_latch_congr hlatched path now⟩
  assign h other _ value := h.congr (by rintro latches rfl; rfl) rfl
  enter h path n := h.congr (by rintro latches rfl; rfl) rfl
  close {env _} h path offset outcome := by
    refine h.congr ?_ (latches_close env name path offset outcome)
    rintro latches rfl
    exact close_withLatches env latches name path offset outcome

end Env

/-- What is remembered of other formulas makes no difference to a formula. -/
theorem agrees_evaluate [Host H] (registry : Registry) (name : String) (root : Node) :
    Agrees (H := H) name (evaluate registry name root) :=
  lockstep_evaluate (Env.mirrors_alike name)
    (fun _ _ h => h.congr (by rintro latches rfl; rfl) rfl) registry root fun _ _ => trivial

end MissionScript

import MissionScript.Proofs.Evaluation.Ensures
import MissionScript.Proofs.Game.Simulation
import MissionScript.Proofs.Ledger

/-!
What a formula makes of a simulation and a ledger. It gives commands to the game, but what has become
of events and goals is not for formulas to write down.
-/

namespace MissionScript

theorem Simulation.keepsTime : Host.KeepsTime Simulation := by
  intro env env' heffect
  cases heffect with
  | spawnWing wing => exact env.host.time_spawn wing
  | _ => rfl

namespace Env

/-- Whether a game and its ledger can become others. -/
def Leads (env env' : Env Simulation) : Prop :=
  env.host.Leads env'.host ∧ env.ledger.Leads env'.ledger

/-- Whether the game can become another one while no record changes. -/
def Follows (env env' : Env Simulation) : Prop :=
  env.host.Leads env'.host ∧ env.ledger.SameRecords env'.ledger

theorem Leads.refl (env : Env Simulation) : env.Leads env :=
  ⟨.refl _, .refl _⟩

theorem Leads.trans {env₁ env₂ env₃ : Env Simulation} (h₁₂ : env₁.Leads env₂)
    (h₂₃ : env₂.Leads env₃) : env₁.Leads env₃ :=
  ⟨h₁₂.1.trans h₂₃.1, h₁₂.2.trans h₂₃.2⟩

theorem Follows.leads {env env' : Env Simulation} (h : env.Follows env') : env.Leads env' :=
  ⟨h.1, h.2.leads⟩

theorem stable_follows (env : Env Simulation) : Stable env.Follows := by
  intro env₁ env₂ heffect h
  obtain ⟨hhost, hledger⟩ := h
  cases heffect with
  | sendMessage persona text => exact ⟨hhost.trans (env₁.host.leads_send persona text), hledger⟩
  | spawnWing wing => exact ⟨hhost.trans (env₁.host.leads_spawn wing), hledger⟩
  | destroyShip ship => exact ⟨hhost.trans (env₁.host.leads_destroy ship), hledger⟩
  | randomInt low high => exact ⟨hhost.trans (env₁.host.leads_random low high), hledger⟩
  | warnOnce name =>
    refine ⟨hhost, ?_⟩
    unfold Ledger.warnOnce
    dsimp only
    split <;> exact hledger
  | warn | pushDirective | latch | countError | setVariable => exact ⟨hhost, hledger⟩

theorem follows_evaluate (env : Env Simulation) (registry : Registry) (formula : String)
    (root : Node) : env.Follows ((evaluate registry formula root).run env).2 := by
  have hpreserves := preserves_evaluate (stable_follows env).steady (fun _ _ h => h) registry formula
    root
  exact (hpreserves env ⟨.refl _, rfl, rfl⟩).2

end Env

end MissionScript

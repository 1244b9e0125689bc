import MissionScript.Game.Simulation
import MissionScript.Proofs.Mission.Carrying
import MissionScript.Proofs.Save.Store

/-!
Careers: a pilot flies one mission of a campaign after the other, each of them loaded from the saves
that the earlier ones left behind. A variable that outlives its mission goes on where it was left.
-/

namespace MissionScript

/-- A mission as it was flown: its definition, the mission as it was loaded, and the run when it was
    finished. -/
structure Sortie where
  definition : Definition
  mission : Mission
  run : Run

namespace Sortie

/-- The variable of a name at the end of the mission. -/
def final? (s : Sortie) (name : String) : Option Variable :=
  s.run.mission.vars.get? name

/-- The latest of some missions that declares a name. -/
def latest? (name : String) (sorties : List Sortie) : Option Sortie :=
  sorties.reverse.find? fun s => !(s.definition.declarations name).isEmpty

end Sortie

/-- What a pilot has flown in a campaign, and the disk with the saves. At first there are no files of
    them. Each mission is loaded from the saves, run for any number of ticks, and entered into the
    saves, which can be read back. -/
inductive Career (s : SaveStore) (pilot campaign : String) : List Sortie → MemoryDisk → Prop where
  | start {d : MemoryDisk} (hpilot : d.read (s.path .pilot pilot) = .missing)
    (hcampaign : d.read (s.path .campaign campaign) = .missing) : Career s pilot campaign [] d
  | fly {sorties : List Sortie} {d d₁ d₂ : MemoryDisk} {definition : Definition} {saved : Snapshot}
    {loader registry : Registry} {settings settings' : Settings} {mission : Mission} {r : Run}
    {p : PilotSave} {c : CampaignSave} (h : Career s pilot campaign sorties d)
    (hsnapshot : (s.snapshot pilot campaign : StateM MemoryDisk _).run d = (.ok saved, d₁))
    (hload : Mission.load definition loader settings saved = .ok mission)
    (hrun : (Run.start mission registry settings').Reaches r)
    (hcommit : (s.commit pilot campaign r.finish : StateM MemoryDisk _).run d₁ = (.ok (p, c), d₂))
    (hback : s.ReadsBack p c) : Career s pilot campaign (sorties ++ [⟨definition, mission, r⟩]) d₂

section

variable {name : String} {type : VariableType} {scope : Scope}

theorem Sortie.latest?_append (name : String) (sorties : List Sortie) (s : Sortie) :
    latest? name (sorties ++ [s]) =
      if (s.definition.declarations name).isEmpty then latest? name sorties else some s := by
  rw [latest?, List.reverse_append, List.reverse_singleton, List.singleton_append, List.find?_cons]
  cases (s.definition.declarations name).isEmpty <;> rfl

namespace Career

variable {s : SaveStore} {pilot campaign : String} {sorties : List Sortie} {d : MemoryDisk}

/-- The saves carry the variable of the latest mission that declares a name, as it was at its end. -/
theorem carries (h : Career s pilot campaign sorties d) {format : SaveFormat}
    (hcodec : s.codec = format.codec) (hscope : scope.isPersistent = true)
    (hdeclares : ∀ t ∈ sorties, t.definition.DeclaresAs name type scope)
    (hfinite : ∀ t ∈ sorties, ∀ v, t.final? name = some v → v.value.IsFinite) :
    ∃ p c u, s.Holds pilot campaign d p c ∧ Snapshot.Carries ⟨p.vars, c.vars⟩ name scope u ∧
      (∀ v ∈ u, v.IsCarriable type) ∧
      u.map some = (Sortie.latest? name sorties).map (·.final? name) := by
  induction h with
  | start hpilot hcampaign =>
    refine ⟨_, _, none, SaveStore.holds_fresh hpilot hcampaign, fun keeper hkeeper => ?_, nofun, rfl⟩
    cases keeper with
    | mission => cases hkeeper
    | player | campaign => exact (ite_self _).symm
  | @fly sorties d d₁ d₂ definition saved loader registry settings settings' mission r p' c' _ hsnapshot
      hload hrun hcommit hback ih =>
    have hearlier (t : Sortie) (ht : t ∈ sorties) : t ∈ sorties ++ [⟨definition, mission, r⟩] :=
      List.mem_append_left _ ht
    have hlast : (⟨definition, mission, r⟩ : Sortie) ∈ sorties ++ [⟨definition, mission, r⟩] :=
      List.mem_append_right _ (List.mem_singleton_self _)
    obtain ⟨p, c, u, hholds, hcarries, hu, hlatest⟩ :=
      ih (fun t ht => hdeclares t (hearlier t ht)) fun t ht => hfinite t (hearlier t ht)
    rw [hholds.snapshot] at hsnapshot
    cases hsnapshot
    obtain ⟨rfl, rfl, hholds'⟩ := hholds.commit hcodec hcommit hback
    -- the records change on the disk as the mission changes what is carried
    obtain ⟨hsome, hcarries', hu'⟩ := Mission.carries_enter hload (hdeclares _ hlast) hscope hcarries hu
      hrun (hfinite _ hlast)
    refine ⟨_, _, _, hholds', hcarries', hu', ?_⟩
    rw [Sortie.latest?_append]
    cases hfound : r.mission.vars.get? name with
    | none =>
      rw [hfound, Option.isSome_none] at hsome
      rw [if_pos (by simpa using hsome.symm), Option.none_or]
      exact hlatest
    | some v =>
      have hfinal : Sortie.final? ⟨definition, mission, r⟩ name = some v := hfound
      rw [hfound, Option.isSome_some] at hsome
      rw [if_neg (by simpa using hsome.symm), Option.some_or, Option.map_some, Option.map_some, hfinal]

/-- A variable that outlives its mission goes on where it was left. Whenever a mission that declares
    it is loaded, both its value and its initial value are the value that it had at the end of the
    latest mission that declared it, and the declared one if there is none. -/
theorem carried_over {folder : String} {format : SaveFormat}
    (h : Career ⟨folder, format.codec⟩ pilot campaign sorties d) {d₁ : MemoryDisk} {saved : Snapshot}
    (hsnapshot : (SaveStore.snapshot ⟨folder, format.codec⟩ pilot campaign : StateM MemoryDisk _).run d =
      (.ok saved, d₁)) {definition : Definition} {registry : Registry} {settings : Settings}
    {mission : Mission} (hload : Mission.load definition registry settings saved = .ok mission)
    (hscope : scope.isPersistent = true)
    (hdeclares : ∀ t ∈ sorties, t.definition.DeclaresAs name type scope)
    (hhere : definition.DeclaresAs name type scope)
    (hfinite : ∀ t ∈ sorties, ∀ v, t.final? name = some v → v.value.IsFinite)
    {entry : VariableEntry} (hentry : entry ∈ definition.declarations name) :
    ∃ v, mission.vars.get? name = some v ∧ v.initial = v.value ∧
      some v.value = match Sortie.latest? name sorties with
        | none => some entry.initial
        | some last => (last.final? name).map Variable.value := by
  obtain ⟨p, c, u, hholds, hcarries, hu, hlatest⟩ := h.carries rfl hscope hdeclares hfinite
  rw [hholds.snapshot] at hsnapshot
  cases hsnapshot
  obtain ⟨-, hfound⟩ := Mission.get?_load_carried hload hhere hscope hcarries hu hentry
  refine ⟨_, hfound, rfl, ?_⟩
  cases hlast : Sortie.latest? name sorties with
  | none =>
    rw [hlast] at hlatest
    cases u with
    | none => rfl
    | some v => cases hlatest
  | some last =>
    rw [hlast] at hlatest
    cases u with
    | none => cases hlatest
    | some v =>
      have hfinal : last.final? name = some v := by simpa using hlatest.symm
      dsimp only
      rw [hfinal]
      rfl

end Career

end

namespace Kills

/-- A mission that counts three kills. -/
def patrol : Definition :=
  ⟨"Patrol", [⟨"Kills", .number, .number 0, .player⟩],
    [⟨"Count", "(modify-variable @kills (+ @KILLS 3))", 1, 0, 0, none, 0, none⟩], []⟩

/-- A mission that declares the same variable in another spelling. -/
def raid : Definition :=
  ⟨"Raid", [⟨"KILLS", .number, .number 1, .player⟩], [], []⟩

def store : SaveStore :=
  ⟨"saves", SaveFormat.binary.codec⟩

def game : Simulation :=
  .start ⟨[], []⟩ (.rolls [])

theorem declarations : patrol.declarations "kills" = patrol.vars ∧
    raid.declarations "kills" = raid.vars := by
  decide +kernel

theorem declaresAs : patrol.DeclaresAs "kills" .number .player ∧
    raid.DeclaresAs "kills" .number .player := by
  constructor
  · intro entry hentry
    rw [declarations.1] at hentry ⊢
    obtain rfl := List.mem_singleton.1 hentry
    exact ⟨rfl, rfl, rfl⟩
  · intro entry hentry
    rw [declarations.2] at hentry ⊢
    obtain rfl := List.mem_singleton.1 hentry
    exact ⟨rfl, rfl, rfl⟩

end Kills

open Kills in
/-- Three kills of the first mission are there when the second one is loaded. -/
theorem Career.carried_over_kills : ∃ sorties d saved mission,
    Career store "Ace" "War" sorties d ∧
    (store.snapshot "Ace" "War" : StateM MemoryDisk _).run d = (.ok saved, d) ∧
    Mission.load raid Registry.builtin .builtin saved = .ok mission ∧
    ∃ v, mission.vars.get? "kills" = some v ∧ v.initial = v.value ∧ v.value = .number 3 := by
  have hmissing : MemoryDisk.empty.read (store.path .pilot "Ace") = .missing ∧
      MemoryDisk.empty.read (store.path .campaign "War") = .missing := by decide +kernel
  have hcheck : ((Mission.load patrol Registry.builtin .builtin .empty).toOption.any fun first =>
      let r := ((Run.start first Registry.builtin .builtin).tick game).run
      let committed := (store.commit "Ace" "War" r.finish : StateM MemoryDisk _).run .empty
      committed.1.toOption.any fun saves =>
        decide (store.codec.pilot.decode (store.codec.pilot.encode saves.1) = some saves.1) &&
          decide (store.codec.campaign.decode (store.codec.campaign.encode saves.2) = some saves.2) &&
          decide ((r.mission.vars.get? "kills").map Variable.value = some (.number 3)) &&
          (Mission.load raid Registry.builtin .builtin ⟨saves.1.vars, saves.2.vars⟩).isOk) = true := by
    decide +kernel
  have hstart := Career.start hmissing.1 hmissing.2
  have hfresh := SaveStore.holds_fresh hmissing.1 hmissing.2
  cases hfirst : Mission.load patrol Registry.builtin .builtin .empty with
  | error e =>
    rw [hfirst] at hcheck
    cases hcheck
  | ok first =>
    rw [hfirst, Except.toOption, Option.any_some] at hcheck
    dsimp only at hcheck
    have hrun := (@Run.Reaches.refl (Run.start first Registry.builtin .builtin)).tick game
    generalize ((Run.start first Registry.builtin .builtin).tick game).run = r at hcheck hrun
    obtain ⟨⟨result, d⟩, hcommit⟩ : ∃ committed,
        (store.commit "Ace" "War" r.finish : StateM MemoryDisk _).run .empty = committed := ⟨_, rfl⟩
    rw [hcommit] at hcheck
    cases result with
    | error e => cases hcheck
    | ok saves =>
      obtain ⟨p, c⟩ := saves
      simp only [Except.toOption, Option.any_some, Bool.and_eq_true, decide_eq_true_eq] at hcheck
      obtain ⟨⟨⟨hpilot, hcampaign⟩, hfinal⟩, hsecond⟩ := hcheck
      have hcodec : store.codec = SaveFormat.binary.codec := rfl
      obtain ⟨-, -, hholds⟩ := hfresh.commit hcodec hcommit ⟨hpilot, hcampaign⟩
      cases hload : Mission.load raid Registry.builtin .builtin ⟨p.vars, c.vars⟩ with
      | error e =>
        rw [hload] at hsecond
        cases hsecond
      | ok second =>
        have hcareer := hstart.fly hfresh.snapshot hfirst hrun hcommit ⟨hpilot, hcampaign⟩
        have hdeclares : ∀ t ∈ [(⟨patrol, first, r⟩ : Sortie)],
            t.definition.DeclaresAs "kills" .number .player :=
          List.forall_mem_singleton.2 declaresAs.1
        have hfinite : ∀ t ∈ [(⟨patrol, first, r⟩ : Sortie)],
            ∀ v, t.final? "kills" = some v → v.value.IsFinite := by
          refine List.forall_mem_singleton.2 fun v hv => ?_
          rw [Sortie.final?] at hv
          rw [hv] at hfinal
          rw [Option.some.inj hfinal]
          exact (by decide +kernel : (3 : Float).isFinite = true)
        have hentry : (⟨"KILLS", .number, .number 1, .player⟩ : VariableEntry) ∈
            raid.declarations "kills" := by
          rw [declarations.2]
          exact List.mem_singleton_self _
        obtain ⟨v, hv, hinitial, hlatest⟩ := carried_over hcareer hholds.snapshot hload rfl hdeclares
          declaresAs.2 hfinite hentry
        refine ⟨_, d, _, second, hcareer, hholds.snapshot, hload, v, hv, hinitial, ?_⟩
        have hpatrol : ¬ (patrol.declarations "kills").isEmpty = true := by
          rw [declarations.1]
          decide
        rw [Sortie.latest?_append, if_neg hpatrol] at hlatest
        exact Option.some.inj (hlatest.trans hfinal)

end MissionScript

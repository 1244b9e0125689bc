import MissionScript.Game.Simulation
import MissionScript.Proofs.Evaluation.Finiteness
import MissionScript.Proofs.Evaluation.Journey
import MissionScript.Proofs.Evaluation.Yields
import MissionScript.Proofs.Formula.RoundTrip
import MissionScript.Proofs.Mission.Settled
import MissionScript.Proofs.Mission.Variables
import MissionScript.Proofs.Variable.Start

/-!
What the variables of a mission start from. The first declaration of a name gives its variable a
value, and the last one gives it what counts as its initial value; a saved value is both.
-/

namespace MissionScript

/-- The variable after more declarations of its name, of which this is the last. They leave its value
    alone. -/
def Variable.redeclare (v : Variable) : Option VariableEntry → Variable
  | none => v
  | some entry => { v with initial := entry.initial, scope := entry.scope }

theorem Variable.redeclare_redeclare (v : Variable) (first second : Option VariableEntry) :
    (v.redeclare first).redeclare second = v.redeclare (second.or first) := by
  cases first <;> cases second <;> rfl

theorem Stored.equals_self_of_isFinite {value : Stored} (h : value.IsFinite) :
    value.equals value = true := by
  cases value with
  | number x => exact beq_self_of_isFinite h
  | string s => exact beq_self_eq_true s

/-- A variable starts from finite saved values only. -/
theorem Variable.isFinite_of_startValue? {v : Variable} {name : String} {saved : List Saved}
    {value : Stored} (h : v.startValue? name saved = some value) : value.IsFinite := by
  obtain ⟨s, -, hread⟩ := List.mem_filterMap.1 (List.mem_of_getLast? h)
  unfold Variable.read? at hread
  split at hread
  · exact Stored.isFinite_of_ofText? hread
  · cases hread

/-- Asking whether a variable is set is asking whether it has another value than at the start. -/
theorem run_variableIsSet {H : Type} [Host H] {registry : Registry} {root : Node} {name : String}
    {offset : Nat}
    (hroot : root.Applies registry (.control .variableIsSet) [.atom (.variable name) offset])
    {env : Env H} {v : Variable} (hv : env.vars.get? name = some v) (formula : String) :
    ((evaluate registry formula root).run env).1 = .bool (!v.value.equals v.initial) := by
  obtain ⟨operator, headOffset, rootOffset, rfl, hget⟩ := hroot
  have hrun (args : List (Arg H)) (hcount : args.length = 1) :
      Evaluation.apply registry formula [] (some operator) args =
        Control.variableIsSet.run formula args :=
    Evaluation.apply_control hget formula [] (by rw [hcount]; rfl)
  change ((Evaluation.evalNode registry formula [] _).run { env with trace := #[] }).1 = _
  rw [Evaluation.evalNode, Evaluation.run_visit, if_neg (by decide)]
  change Evaluation.given ((Evaluation.apply registry formula [] (some operator) _).run _).1 = _
  rw [hrun _ rfl]
  change Evaluation.given (Control.isSet env.vars name) = _
  rw [Control.isSet, hv]
  rfl

namespace Mission

variable {entries : List VariableEntry} {vars declared : Variables} {name : String}

/-- More declarations of a variable leave it with what the last of them says, but with its value. -/
theorem get?_declareAll_again (h : entries.foldlM declare vars = .ok declared) {v : Variable}
    (hv : vars.get? name = some v) : declared.get? name =
      some (v.redeclare (entries.filter fun entry => sameName entry.name name).getLast?) := by
  induction entries generalizing vars v with
  | nil =>
    cases h
    exact hv
  | cons first rest ih =>
    obtain ⟨after, hfirst, hrest⟩ := foldlM_cons_eq_ok h
    have hdeclare := mapError_eq_ok_iff.1 hfirst
    rw [List.filter_cons]
    split
    · next hsame =>
      have hname := Variables.get?_congr (sameName_iff.1 hsame)
      obtain ⟨-, -, hfound⟩ := Variables.get?_declare_again hdeclare ((hname vars).trans hv)
      rw [ih hrest (v := v.redeclare (some first)) ((hname after).symm.trans hfound),
        Variable.redeclare_redeclare, List.getLast?_cons]
      cases (rest.filter fun entry => sameName entry.name name).getLast? <;> rfl
    · next hother =>
      apply ih hrest
      rw [Variables.get?_declare_of_ne hdeclare (foldName_ne hother)]
      exact hv

/-- The first declaration of a name makes its variable, and the others declare it again. -/
theorem get?_declareAll_of_new (h : entries.foldlM declare vars = .ok declared)
    (hnew : vars.get? name = none) :
    let named := entries.filter fun entry => sameName entry.name name
    declared.get? name =
      named.head?.map fun first => (first.startAt first.initial).redeclare named.getLast? := by
  induction entries generalizing vars with
  | nil =>
    cases h
    exact hnew
  | cons first rest ih =>
    obtain ⟨after, hfirst, hrest⟩ := foldlM_cons_eq_ok h
    have hdeclare := mapError_eq_ok_iff.1 hfirst
    rw [List.filter_cons]
    split
    · next hsame =>
      have hname := Variables.get?_congr (sameName_iff.1 hsame)
      obtain ⟨-, hfound⟩ := Variables.get?_declare hdeclare ((hname vars).trans hnew)
      rw [get?_declareAll_again hrest ((hname after).symm.trans hfound)]
      dsimp only
      rw [List.head?_cons, List.getLast?_cons]
      cases (rest.filter fun entry => sameName entry.name name).getLast? <;> rfl
    · next hother =>
      apply ih hrest
      rw [Variables.get?_declare_of_ne hdeclare (foldName_ne hother)]
      exact hnew

section

variable {definition : Definition} {registry : Registry} {settings : Settings} {saved : Snapshot}
  {mission : Mission} {v : Variable}

/-- What a variable of a loaded mission starts from: its value is what has been saved for it last, and
    otherwise what its first declaration says; its initial value is the same, but for the last
    declaration instead of the first. -/
theorem exists_declarations_of_load (h : load definition registry settings saved = .ok mission)
    (hv : mission.vars.get? name = some v) : ∃ first last,
      (definition.declarations name).head? = some first ∧
      (definition.declarations name).getLast? = some last ∧
      v.value = (v.startValue? name (saved.player ++ saved.campaign)).getD first.initial ∧
      v.initial = (v.startValue? name (saved.player ++ saved.campaign)).getD last.initial := by
  obtain ⟨declared, hdeclared, hvars, -⟩ := load_eq h
  have hfound : declared.get? name = (definition.declarations name).head?.map fun first =>
      (first.startAt first.initial).redeclare (definition.declarations name).getLast? :=
    get?_declareAll_of_new hdeclared rfl
  rw [hvars, overlay_eq] at hv
  cases hdeclarations : definition.declarations name with
  | nil =>
    rw [hdeclarations] at hfound
    rw [Variables.get?_applySaved_of_none (Variables.get?_applySaved_of_none hfound)] at hv
    cases hv
  | cons first rest =>
    rw [hdeclarations, List.head?_cons, Option.map_some, List.getLast?_cons] at hfound
    refine ⟨first, _, rfl, List.getLast?_cons, ?_⟩
    rw [Variables.get?_applySaved (Variables.get?_applySaved hfound), Variable.startFrom_startFrom,
      Variable.startValue?_startFrom, ← Variable.startValue?_append] at hv
    obtain rfl := Option.some.inj hv
    rw [Variable.startValue?_startFrom]
    cases Variable.startValue? _ name (saved.player ++ saved.campaign) with
    | none => exact ⟨rfl, rfl⟩
    | some value => exact ⟨rfl, rfl⟩

/-- Which variables start at their initial value. The value of a variable of a loaded mission is the
    last saved one of its name that it can hold, if there is any, and this is its initial value too.
    Otherwise the value is what the first declaration of the name says, and the initial value is what
    the last one says. So the two are equal exactly if there is such a saved value or these two
    declarations agree, and exactly then it is false, at the start, that the variable is set. -/
theorem starts_at_initial_iff (hload : load definition registry settings saved = .ok mission)
    (hv : mission.vars.get? name = some v) : ∃ first last,
      (definition.declarations name).head? = some first ∧
      (definition.declarations name).getLast? = some last ∧
      let started := v.startValue? name (saved.player ++ saved.campaign)
      v.value = started.getD first.initial ∧ v.initial = started.getD last.initial ∧
      (v.value.equals v.initial = true ↔
        started.isSome = true ∨ first.initial.equals last.initial = true) ∧
      ∀ (registry' : Registry) (root : Node) (offset : Nat),
        root.Applies registry' (.control .variableIsSet) [.atom (.variable name) offset] →
        ∀ (H : Type) [Host H] (env : Env H) (formula : String), env.vars = mission.vars →
          (((evaluate registry' formula root).run env).1.truth = .falseNow ↔
            started.isSome = true ∨ first.initial.equals last.initial = true) := by
  obtain ⟨first, last, hfirst, hlast, hvalue, hinitial⟩ := exists_declarations_of_load hload hv
  have hequal : v.value.equals v.initial = true ↔
      (v.startValue? name (saved.player ++ saved.campaign)).isSome = true ∨
        first.initial.equals last.initial = true := by
    rw [hvalue, hinitial]
    cases hstarted : v.startValue? name (saved.player ++ saved.campaign) with
    | none => simp
    | some value =>
      have hself := Stored.equals_self_of_isFinite (Variable.isFinite_of_startValue? hstarted)
      simp [hself]
  refine ⟨first, last, hfirst, hlast, hvalue, hinitial, hequal, ?_⟩
  intro registry' root offset hroot H _ env formula henv
  rw [run_variableIsSet hroot (henv ▸ hv), ← hequal]
  cases v.value.equals v.initial <;> decide

end

end Mission

namespace Stock

/-- A mission that declares its ammunition twice, and the kills of the pilot twice. -/
def definition : Definition where
  name := "Stock"
  vars := [⟨"Ammo", .number, .number 1, .mission⟩, ⟨"ammo", .number, .number 2, .mission⟩,
    ⟨"Kills", .number, .number 0, .player⟩, ⟨"kills", .number, .number 5, .player⟩]
  events := []
  goals := []

def saved : Snapshot :=
  ⟨[⟨"KILLS", .number, "7"⟩], []⟩

/-- Whether a variable is set. -/
def query (name : String) : Node :=
  .application (.control .variableIsSet) [.atom (.variable name) 0]

theorem applies_query (name : String) :
    (query name).Applies Registry.builtin (.control .variableIsSet) [.atom (.variable name) 0] :=
  Node.applies_application _ _

def env (mission : Mission) : Env Simulation :=
  .start (Simulation.start ⟨[], []⟩ (.rolls [])) mission.vars mission.ledger #[]

/-- The two variables of the mission. -/
def stock? : Option (Option Variable × Option Variable) :=
  (Mission.load definition Registry.builtin .builtin saved).toOption.map fun mission =>
    (mission.vars.get? "ammo", mission.vars.get? "kills")

theorem exists_mission : ∃ mission,
    Mission.load definition Registry.builtin .builtin saved = .ok mission ∧
    mission.vars.get? "ammo" = some ⟨"Ammo", .number, .number 1, .number 2, .mission⟩ ∧
    mission.vars.get? "kills" = some ⟨"Kills", .number, .number 7, .number 7, .player⟩ := by
  have hstock : stock? = some (some ⟨"Ammo", .number, .number 1, .number 2, .mission⟩,
      some ⟨"Kills", .number, .number 7, .number 7, .player⟩) := by
    decide +kernel
  obtain ⟨mission, hload, heq⟩ := Option.map_eq_some_iff.1 hstock
  obtain ⟨hammo, hkills⟩ := Prod.mk.inj heq
  exact ⟨mission, toOption_eq_some_iff.1 hload, hammo, hkills⟩

end Stock

open Stock in
/-- The kills start from what the pilot has saved, and are not set. -/
theorem Mission.starts_at_initial_iff_stock : ∃ mission v,
    load definition Registry.builtin .builtin saved = .ok mission ∧
    mission.vars.get? "kills" = some v ∧
    v.startValue? "kills" (saved.player ++ saved.campaign) = some (.number 7) ∧
    v.value.equals v.initial = true ∧
    ((evaluate Registry.builtin "report" (query "kills")).run (env mission)).1.truth = .falseNow := by
  obtain ⟨mission, hload, -, hkills⟩ := exists_mission
  have hstarted : Variable.startValue? ⟨"Kills", .number, .number 7, .number 7, .player⟩ "kills"
      (saved.player ++ saved.campaign) = some (.number 7) := by
    decide +kernel
  obtain ⟨first, last, -, -, -, -, hequal, hset⟩ := starts_at_initial_iff hload hkills
  have hsome := congrArg Option.isSome hstarted
  refine ⟨mission, _, hload, hkills, hstarted, hequal.2 (Or.inl hsome), ?_⟩
  exact (hset Registry.builtin _ 0 (applies_query "kills") Simulation (env mission) "report" rfl).2
    (Or.inl hsome)

open Stock in
/-- The ammunition starts with the one value and has the other one as its initial value; so it is set
    before anything has happened. -/
theorem Mission.not_starts_at_initial_stock : ∃ mission v,
    load definition Registry.builtin .builtin saved = .ok mission ∧
    mission.vars.get? "ammo" = some v ∧ v.value.equals v.initial = false ∧
    ((evaluate Registry.builtin "report" (query "ammo")).run (env mission)).1.truth = .trueNow := by
  obtain ⟨mission, hload, hammo, -⟩ := exists_mission
  have hother : Stored.equals (.number 1) (.number 2) = false := by decide +kernel
  have hvars : (env mission).vars.get? "ammo" =
      some ⟨"Ammo", .number, .number 1, .number 2, .mission⟩ := hammo
  have hanswer := run_variableIsSet (applies_query "ammo") hvars "report"
  rw [hother] at hanswer
  exact ⟨mission, _, hload, hammo, hother, congrArg Value.truth hanswer⟩

end MissionScript

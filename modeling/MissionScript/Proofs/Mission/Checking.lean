import MissionScript.CommandLine.Program
import MissionScript.Proofs.Mission.Chaining
import MissionScript.Proofs.Mission.Scopes
import MissionScript.Proofs.Operator.Builtin

/-!
Checking a mission and loading it. Both read the same formulas and find the same faults in them: what
is asked of variables is whether they are declared and with which types, and no saved value changes
that. So a mission that is loaded leniently has the issues that checking prints, and whether it can
be loaded strictly is told by whether there are any.
-/

namespace MissionScript

namespace Variables

/-- Whether two stores declare the same names, with the same types. -/
def SameTypes (vars vars' : Variables) : Prop :=
  ∀ name, (vars.get? name).map (·.type) = (vars'.get? name).map (·.type)

/-- Saved values declare no variable and change the type of none. -/
theorem sameTypes_applySaved (vars : Variables) (saved : List Saved) :
    vars.SameTypes (vars.applySaved saved).1 := by
  intro name
  cases hv : vars.get? name with
  | none => rw [get?_applySaved_of_none hv]
  | some v =>
    rw [get?_applySaved hv]
    cases v.startValue? name saved <;> rfl

end Variables

namespace Validation

variable {vars vars' : Variables}

theorem undeclared_congr (h : vars.SameTypes vars') (name : String) :
    undeclared (some vars) name = undeclared (some vars') name := by
  have hdeclares : vars.declares name = vars'.declares name := by
    simpa [Variables.declares, Variables.get?, Table.contains] using congrArg Option.isSome (h name)
  rw [undeclared, undeclared, hdeclares]

theorem variableArgument_congr (h : vars.SameTypes vars') (expected : Constraint) (name : String) :
    variableArgument (some vars) expected name = variableArgument (some vars') expected name := by
  have htype := h name
  unfold variableArgument
  cases hv : vars.get? name with
  | none =>
    rw [hv, eq_comm, Option.map_none, Option.map_eq_none_iff] at htype
    simp only [hv, htype]
  | some v =>
    rw [hv, eq_comm, Option.map_some, Option.map_eq_some_iff] at htype
    obtain ⟨v', hv', htype⟩ := htype
    simp only [hv, hv', htype]

/-- What is wrong with a formula depends on the types of variables only. -/
theorem validate_congr (h : vars.SameTypes vars') (formula : String) (registry : Registry) (f : Formula) :
    validate formula registry (some vars) f = validate formula registry (some vars') f := by
  have hargument (operator : String) (i : Nat) (expected : Constraint) (arg : Node) :
      argument registry (some vars) operator i expected arg =
        argument registry (some vars') operator i expected arg := by
    simp only [argument, undeclared_congr h, variableArgument_congr h]
  have hnode (place : Path × Node) : node formula registry (some vars) place =
      node formula registry (some vars') place := by
    simp only [node, application, hargument, undeclared_congr h]
  rw [validate, validate, funext hnode]

end Validation

/-- An event's formula under its name. -/
def Event.titled (e : Event) : String × Formula :=
  (e.name, e.formula)

def Goal.titled (g : Goal) : String × Formula :=
  (g.name, g.formula)

def EventEntry.titled (entry : EventEntry) : String × String :=
  (entry.name, entry.formula)

def GoalEntry.titled (entry : GoalEntry) : String × String :=
  (entry.name, entry.formula)

/-- Whether a text is read as a formula of the same name. -/
def IsReadAs (registry : Registry) (options : ParseOptions) (text : String × String)
    (formula : String × Formula) : Prop :=
  formula.1 = text.1 ∧ parseChars registry.has options text.2.toList = .ok formula.2

/-- What is wrong with formulas, in order. -/
def issuesOf (registry : Registry) (vars : Variables) (formulas : List (String × Formula)) :
    List Issue :=
  formulas.flatMap fun formula => validate formula.1 registry (some vars) formula.2

namespace Mission

variable {registry : Registry} {options : ParseOptions}

theorem titled_scheduleAll {entries : List EventEntry} {s : Schedule}
    (h : scheduleAll registry options entries = .ok s) :
    List.Forall₂ (IsReadAs registry options) (entries.map EventEntry.titled)
      (s.events.map Event.titled) := by
  obtain ⟨added, hadded, hchained⟩ := scheduleAll_eq_ok_iff.1 h
  have hread : List.Forall₂ (IsReadAs registry options) (entries.map EventEntry.titled)
      (added.events.map Event.titled) := by
    refine foldlM_invariant (P := fun s done => List.Forall₂ (IsReadAs registry options)
      (done.map EventEntry.titled) (s.events.map Event.titled))
      (fun done entry _ s s' _ hs hadd => ?_) .nil hadded
    obtain ⟨formula, hparse, hevent⟩ := addEvent_eq_ok hadd
    rw [Schedule.add_eq_ok hevent, List.map_append, List.map_append]
    exact List.rel_append hs (.cons ⟨rfl, mapError_eq_ok_iff.1 hparse⟩ .nil)
  rwa [map_events_chainAll (fun _ _ => rfl) hchained]

theorem titled_trackAll {failsEarly : Bool} {entries : List GoalEntry} {t : Tracker}
    (h : trackAll registry options failsEarly entries = .ok t) :
    List.Forall₂ (IsReadAs registry options) (entries.map GoalEntry.titled)
      (t.goals.map Goal.titled) := by
  refine foldlM_invariant (P := fun t done => List.Forall₂ (IsReadAs registry options)
    (done.map GoalEntry.titled) (t.goals.map Goal.titled))
    (fun done entry _ t t' _ ht hadd => ?_) .nil h
  obtain ⟨formula, hparse, -, rfl⟩ := addGoal_eq_ok hadd
  rw [Tracker.add, List.map_append, List.map_append]
  exact List.rel_append ht (.cons ⟨rfl, mapError_eq_ok_iff.1 hparse⟩ .nil)

theorem validateAll_eq (vars : Variables) (s : Schedule) (t : Tracker) :
    validateAll registry vars s t =
      issuesOf registry vars (s.events.map Event.titled ++ t.goals.map Goal.titled) := by
  rw [validateAll, issuesOf, List.flatMap_append, List.flatMap_map, List.flatMap_map]
  rfl

section

variable {definition : Definition} {settings : Settings} {declared : Variables} {schedule : Schedule}
  {tracker : Tracker} {e : LoadError}

/-- Loading, step by step. Only the last step asks whether the settings are strict. -/
theorem load_eq_bind (definition : Definition) (registry : Registry) (settings : Settings)
    (strict : Bool) (saved : Snapshot) :
    load definition registry { settings with strict } saved =
      (declareAll definition.vars).bind fun declared =>
      (scheduleAll registry settings.parseOptions definition.events).bind fun schedule =>
      (trackAll registry settings.parseOptions settings.failsEarly definition.goals).bind
        fun tracker =>
      let vars := (overlay declared saved).1
      let issues := validateAll registry vars schedule tracker
      if strict && !issues.isEmpty then .error (.invalid issues)
      else .ok ⟨definition.name, schedule, tracker, vars,
        tracker.registerIn (schedule.registerIn .empty), issues⟩ :=
  rfl

theorem load_of_scheduleAll_error (hdeclared : declareAll definition.vars = .ok declared)
    (hschedule : scheduleAll registry settings.parseOptions definition.events = .error e)
    (strict : Bool) (saved : Snapshot) :
    load definition registry { settings with strict } saved = .error e := by
  simp only [load_eq_bind, hdeclared, hschedule, Except.bind]

theorem load_of_trackAll_error (hdeclared : declareAll definition.vars = .ok declared)
    (hschedule : scheduleAll registry settings.parseOptions definition.events = .ok schedule)
    (htracker : trackAll registry settings.parseOptions settings.failsEarly definition.goals =
      .error e) (strict : Bool) (saved : Snapshot) :
    load definition registry { settings with strict } saved = .error e := by
  simp only [load_eq_bind, hdeclared, hschedule, htracker, Except.bind]

/-- What comes of loading a mission whose variables can be declared and whose events and goals can be
    read. Whether the settings are strict only tells if it is refused for its issues, and the saved
    values do not tell which these are. -/
theorem load_of_parts (hdeclared : declareAll definition.vars = .ok declared)
    (hschedule : scheduleAll registry settings.parseOptions definition.events = .ok schedule)
    (htracker : trackAll registry settings.parseOptions settings.failsEarly definition.goals =
      .ok tracker) (saved : Snapshot) :
    ∃ mission, mission.issues = validateAll registry declared schedule tracker ∧
      load definition registry { settings with strict := false } saved = .ok mission ∧
      load definition registry { settings with strict := true } saved =
        if mission.issues = [] then .ok mission else .error (.invalid mission.issues) := by
  have hissues : validateAll registry declared schedule tracker =
      validateAll registry (overlay declared saved).1 schedule tracker := by
    have htypes := declared.sameTypes_applySaved saved.player
    have htypes' := (declared.applySaved saved.player).1.sameTypes_applySaved saved.campaign
    have hall : declared.SameTypes (overlay declared saved).1 :=
      fun name => (htypes name).trans (htypes' name)
    simp only [validateAll, Validation.validate_congr hall]
  have hload (strict : Bool) : load definition registry { settings with strict } saved =
      if strict && !(validateAll registry declared schedule tracker).isEmpty then
        .error (.invalid (validateAll registry declared schedule tracker))
      else .ok ⟨definition.name, schedule, tracker, (overlay declared saved).1,
        tracker.registerIn (schedule.registerIn .empty),
        validateAll registry declared schedule tracker⟩ := by
    rw [load_eq_bind, hissues]
    simp only [hdeclared, hschedule, htracker, Except.bind]
  refine ⟨_, rfl, hload false, (hload true).trans ?_⟩
  cases validateAll registry declared schedule tracker <;> rfl

end

end Mission

/-- Whether an error is about how events and goals are named and made to wait for each other, and not
    about what is declared or written in a formula. -/
def LoadError.isStructural : LoadError → Bool
  | .schedule _ | .duplicateGoal _ => true
  | .malformed .. | .variable .. | .invalid _ => false

namespace Mission

variable {registry : Registry} {options : ParseOptions} {e : LoadError}

theorem isStructural_of_mapError_schedule {α : Type} {x : Except ScheduleError α}
    (h : x.mapError .schedule = .error e) : e.isStructural = true := by
  cases x with
  | ok a => cases h
  | error error =>
    obtain rfl := Except.error.inj h
    rfl

/-- Events whose formulas can be read fail only by their names and chains. -/
theorem isStructural_of_scheduleAll {entries : List EventEntry}
    (hread : ParseAll registry options entries)
    (h : scheduleAll registry options entries = .error e) : e.isStructural = true := by
  unfold scheduleAll at h
  simp only [bind, Except.bind] at h
  split at h
  · next hadd =>
    obtain rfl := Except.error.inj h
    obtain ⟨entry, hentry, s, hfails⟩ := exists_of_foldlM_error hadd
    obtain ⟨formula, hparse⟩ := hread entry hentry
    rw [addEvent_of_parse hparse] at hfails
    exact isStructural_of_mapError_schedule hfails
  · obtain ⟨entry, -, s, hfails⟩ := exists_of_foldlM_error h
    unfold chainEvent at hfails
    split at hfails
    · cases hfails
    · exact isStructural_of_mapError_schedule hfails

/-- Goals whose formulas can be read fail only by their names. -/
theorem isStructural_of_trackAll {failsEarly : Bool} {entries : List GoalEntry}
    (hread : ∀ entry ∈ entries, ∃ formula,
      parse registry options entry.name entry.formula = .ok formula)
    (h : trackAll registry options failsEarly entries = .error e) : e.isStructural = true := by
  obtain ⟨entry, hentry, t, hfails⟩ := exists_of_foldlM_error h
  obtain ⟨formula, hparse⟩ := hread entry hentry
  unfold addGoal at hfails
  split at hfails
  · obtain rfl := Except.error.inj hfails
    rfl
  · rw [hparse] at hfails
    cases hfails

end Mission

namespace Definition

variable {definition : Definition} {registry : Registry} {settings : Settings} {declared : Variables}

/-- Formulas that can be read have the problems that are their issues. -/
theorem flatMap_problemsOf {options : ParseOptions} {texts : List (String × String)}
    {formulas : List (String × Formula)} (h : List.Forall₂ (IsReadAs registry options) texts formulas)
    (vars : Variables) : texts.flatMap (problemsOf registry options vars) =
      (issuesOf registry vars formulas).map .issue := by
  induction h with
  | nil => rfl
  | @cons text formula _ _ hread _ ih =>
    obtain ⟨hname, hparse⟩ := hread
    have hfirst : problemsOf registry options vars text =
        (validate formula.1 registry (some vars) formula.2).map .issue := by
      rw [problemsOf, hparse, hname]
    rw [List.flatMap_cons, hfirst, ih, issuesOf, issuesOf, List.flatMap_cons, List.map_append]

/-- What is told of a mission whose variables can be declared and whose events and goals can be read. -/
theorem check_of_parts {schedule : Schedule} {tracker : Tracker}
    (hdeclared : Mission.declareAll definition.vars = .ok declared)
    (hschedule : Mission.scheduleAll registry settings.parseOptions definition.events = .ok schedule)
    (htracker : Mission.trackAll registry settings.parseOptions settings.failsEarly
      definition.goals = .ok tracker) :
    definition.check registry settings =
      .ok ((Mission.validateAll registry declared schedule tracker).map .issue) := by
  have hread := List.rel_append (Mission.titled_scheduleAll hschedule) (Mission.titled_trackAll htracker)
  rw [check, hdeclared, Mission.validateAll_eq, ← flatMap_problemsOf hread declared]
  rfl

/-- Where no problem is told, the variables can be declared and every formula can be read. -/
theorem exists_parse_of_check (h : definition.check registry settings = .ok []) :
    (∃ declared, Mission.declareAll definition.vars = .ok declared) ∧
      ∀ text ∈ definition.formulas, ∃ f,
        Mission.parse registry settings.parseOptions text.1 text.2 = .ok f := by
  unfold check at h
  cases hdeclared : Mission.declareAll definition.vars with
  | error e =>
    rw [hdeclared] at h
    cases h
  | ok declared =>
    rw [hdeclared] at h
    have hnone := List.flatMap_eq_nil_iff.1 (Except.ok.inj h)
    refine ⟨⟨declared, rfl⟩, fun text htext => ?_⟩
    have hproblems := hnone text htext
    unfold problemsOf at hproblems
    unfold Mission.parse
    split at hproblems
    · next f hparse => exact ⟨f, by rw [hparse]; rfl⟩
    · cases hproblems

end Definition

namespace CommandLine

variable {definition : Definition} {registry : Registry} {settings : Settings}

/-- What is printed if nothing but issues is told: each on a line of its own, or that there are none. -/
theorem check_of_issues {issues : List Issue}
    (h : definition.check registry settings = .ok (issues.map .issue)) :
    check definition registry settings =
      if issues = [] then .done (line s!"mission '{definition.name}' is clean")
      else .failed (String.join (issues.map fun i => line i.message))
        s!"{issues.length} problem(s) in mission '{definition.name}'" := by
  unfold check
  rw [h]
  cases issues with
  | nil => rfl
  | cons first rest =>
    rw [if_neg (List.cons_ne_nil first rest)]
    simp only [List.map_cons, List.length_cons, List.length_map, List.map_map]
    rfl

/-- The program succeeds in checking a mission only if it finds no problem. -/
theorem check_eq_nil_of_code (h : (check definition registry settings).code = 0) :
    definition.check registry settings = .ok [] := by
  unfold check at h
  split at h
  · cases h
  · cases h
  · assumption
  · cases h

end CommandLine

/-- Checking and loading agree, for every definition, registry and settings. If a mission can be
    loaded leniently from some saved values, then checking prints its issues in order, one a line, and
    fails, or says that there are none and succeeds; and from whatever saved values it is loaded, it
    has these issues, and can be loaded strictly if there are none and is otherwise refused with
    them. If checking succeeds, loading strictly fails, if at all, by how events and goals are named
    and made to wait for each other. -/
theorem Mission.load_checked (definition : Definition) (registry : Registry) (settings : Settings) :
    (∀ saved mission,
      load definition registry { settings with strict := false } saved = .ok mission →
      (CommandLine.check definition registry settings =
        if mission.issues = [] then
          .done (CommandLine.line s!"mission '{definition.name}' is clean")
        else
          .failed (String.join (mission.issues.map fun i => CommandLine.line i.message))
            s!"{mission.issues.length} problem(s) in mission '{definition.name}'") ∧
      ∀ saved', ∃ mission', mission'.issues = mission.issues ∧
        load definition registry { settings with strict := false } saved' = .ok mission' ∧
        load definition registry { settings with strict := true } saved' =
          if mission.issues = [] then .ok mission' else .error (.invalid mission.issues)) ∧
    ((CommandLine.check definition registry settings).code = 0 → ∀ saved,
      (∃ mission, load definition registry { settings with strict := true } saved = .ok mission) ∨
      ∃ e, load definition registry { settings with strict := true } saved = .error e ∧
        e.isStructural = true) := by
  constructor
  · intro saved mission hload
    obtain ⟨declared, hdeclared, -, hschedule, htracker, -⟩ := load_eq hload
    have hevents : scheduleAll registry settings.parseOptions definition.events =
        .ok mission.schedule := hschedule
    have hparts := load_of_parts hdeclared hevents htracker
    obtain ⟨mission', hissues, hload', -⟩ := hparts saved
    obtain rfl : mission = mission' := Except.ok.inj (hload.symm.trans hload')
    have hcheck := Definition.check_of_parts hdeclared hevents htracker
    rw [← hissues] at hcheck
    refine ⟨CommandLine.check_of_issues hcheck, fun saved' => ?_⟩
    obtain ⟨mission', hissues', hlenient, hstrict⟩ := hparts saved'
    rw [hissues', ← hissues] at hstrict
    exact ⟨mission', hissues'.trans hissues.symm, hlenient, hstrict⟩
  · intro hcode saved
    have hcheck := CommandLine.check_eq_nil_of_code hcode
    obtain ⟨⟨declared, hdeclared⟩, hread⟩ := Definition.exists_parse_of_check hcheck
    have hevents : ParseAll registry settings.parseOptions definition.events :=
      fun entry hentry => hread entry.titled (List.mem_append_left _ (List.mem_map_of_mem hentry))
    have hgoals (entry : GoalEntry) (hentry : entry ∈ definition.goals) :=
      hread entry.titled (List.mem_append_right _ (List.mem_map_of_mem hentry))
    cases hschedule : scheduleAll registry settings.parseOptions definition.events with
    | error e =>
      exact Or.inr ⟨e, load_of_scheduleAll_error hdeclared hschedule true saved,
        isStructural_of_scheduleAll hevents hschedule⟩
    | ok schedule =>
      cases htracker : trackAll registry settings.parseOptions settings.failsEarly
        definition.goals with
      | error e =>
        exact Or.inr ⟨e, load_of_trackAll_error hdeclared hschedule htracker true saved,
          isStructural_of_trackAll hgoals htracker⟩
      | ok tracker =>
        obtain ⟨mission, hissues, -, hstrict⟩ := load_of_parts hdeclared hschedule htracker saved
        have hsame := (Definition.check_of_parts hdeclared hschedule htracker).symm.trans hcheck
        rw [← hissues] at hsame
        rw [if_pos (List.map_eq_nil_iff.1 (Except.ok.inj hsame))] at hstrict
        exact Or.inl ⟨mission, hstrict⟩

namespace Convoy

/-- A mission with a variable and a bonus goal. -/
def definition (goal : String) : Definition where
  name := "Convoy"
  vars := [⟨"kills", .number, .number 0, .player⟩]
  events := [⟨"Ambush", "(has-time-elapsed 5)", 1, 0, 0, none, 0, none⟩]
  goals := [⟨"Spree", goal, .bonus, 50, 0, false⟩]

def saved : Snapshot :=
  ⟨[⟨"Kills", .number, "7"⟩], []⟩

/-- What is wrong with the mission, if it can be loaded leniently. -/
def issues? (goal : String) : Option (List Issue) :=
  (Mission.load (definition goal) Registry.builtin .builtin .empty).toOption.map (·.issues)

end Convoy

open Convoy in
/-- A misspelt variable is found by checking, in one line, and by loading strictly, whatever the pilot
    has saved; where it is spelt right, checking finds nothing. -/
theorem Mission.load_checked_convoy :
    CommandLine.check (definition "(>= @kils 3)") Registry.builtin .builtin =
      .failed "Spree at /1 (byte 4): variable '@kils' is not declared\n"
        "1 problem(s) in mission 'Convoy'" ∧
    load (definition "(>= @kils 3)") Registry.builtin { Settings.builtin with strict := true } saved =
      .error (.invalid [⟨"Spree", [1], 4, .undeclaredVariable "kils"⟩]) ∧
    (CommandLine.check (definition "(>= @kills 3)") Registry.builtin .builtin).code = 0 ∧
    ((∃ mission, load (definition "(>= @kills 3)") Registry.builtin
        { Settings.builtin with strict := true } saved = .ok mission) ∨
      ∃ e, load (definition "(>= @kills 3)") Registry.builtin
        { Settings.builtin with strict := true } saved = .error e ∧ e.isStructural = true) := by
  have hissues : issues? "(>= @kils 3)" =
      some [⟨"Spree", [1], 4, .undeclaredVariable "kils"⟩] := by
    rw [issues?, Registry.builtin_eq]
    decide +kernel
  have hnone : issues? "(>= @kills 3)" = some [] := by
    rw [issues?, Registry.builtin_eq]
    decide +kernel
  obtain ⟨mission, hload, hfound⟩ := Option.map_eq_some_iff.1 hissues
  obtain ⟨clean, hclean, hnothing⟩ := Option.map_eq_some_iff.1 hnone
  obtain ⟨hcheck, hstrict⟩ := (load_checked _ Registry.builtin .builtin).1 .empty mission
    (toOption_eq_some_iff.1 hload)
  obtain ⟨hsilent, hstructural⟩ := load_checked (definition "(>= @kills 3)") Registry.builtin .builtin
  obtain ⟨mission', -, -, hrefused⟩ := hstrict saved
  rw [hfound, if_neg (List.cons_ne_nil _ _)] at hcheck hrefused
  have hcode := congrArg CommandLine.Exit.code
    (hsilent .empty clean (toOption_eq_some_iff.1 hclean)).1
  rw [hnothing, if_pos rfl] at hcode
  refine ⟨hcheck.trans ?_, hrefused, hcode, hstructural hcode saved⟩
  exact congrArg₂ CommandLine.Exit.failed (by decide +kernel) (by decide +kernel)

end MissionScript

import MissionScript.Proofs.Game.Evaluation
import MissionScript.Proofs.Mission.Occasions

/-!
What the sequences of a mission remember. In a run every sequence answers by the history of its own
arguments, unless an event and a goal have the same name: the formulas of these two share what is
remembered.
-/

namespace MissionScript

/-- Items of a row without repetition of names are at the same place if they have the same name. -/
theorem place_eq_of_sameName {α : Type} {name : α → String} {items : List α} {i j : Nat} {a b : α}
    (hdistinct : (items.map fun a => foldName (name a)).Nodup) (hi : items[i]? = some a)
    (hj : items[j]? = some b) (hsame : sameName (name b) (name a) = true) : j = i := by
  have hlt : j < (items.map fun a => foldName (name a)).length := by
    rw [List.length_map]
    exact (List.getElem?_eq_some_iff.1 hj).1
  refine (List.getElem?_inj hlt hdistinct).1 ?_
  rw [List.getElem?_map, List.getElem?_map, hi, hj, Option.map_some, Option.map_some,
    sameName_iff.1 hsame]

namespace Mission

/-- Whether an event and a goal have the same name. -/
def Shares (m : Mission) (name : String) : Prop :=
  (m.schedule.event? name).isSome = true ∧ (m.tracker.goal? name).isSome = true

instance (m : Mission) (name : String) : Decidable (m.Shares name) :=
  inferInstanceAs (Decidable (_ ∧ _))

variable {definition : Definition} {loader : Registry} {settings : Settings} {saved : Snapshot}
  {mission : Mission}

/-- Two formulas of a mission have the same name only if one is of an event and the other of a goal. -/
theorem owner_eq_of_sameName (hload : load definition loader settings saved = .ok mission)
    {owner owner' : FormulaOwner} {name name' : String} {root root' : Node}
    (h : mission.formula? owner = some (name, root)) (h' : mission.formula? owner' = some (name', root'))
    (hsame : sameName name' name = true) (hown : ¬ mission.Shares name) : owner' = owner := by
  obtain ⟨-, -, -, hschedule, htracker, -⟩ := load_eq hload
  have hevent {i : Nat} {name' : String} {root' : Node}
      (h : mission.formula? (.event i) = some (name', root')) (hsame : sameName name' name = true) :
      (mission.schedule.event? name).isSome = true := by
    obtain ⟨e, he, heq⟩ := Option.map_eq_some_iff.1 h
    cases heq
    exact List.find?_isSome.2 ⟨e, List.mem_of_getElem? he, hsame⟩
  have hgoal {i : Nat} {name' : String} {root' : Node}
      (h : mission.formula? (.goal i) = some (name', root')) (hsame : sameName name' name = true) :
      (mission.tracker.goal? name).isSome = true := by
    obtain ⟨g, hg, heq⟩ := Option.map_eq_some_iff.1 h
    cases heq
    exact List.find?_isSome.2 ⟨g, List.mem_of_getElem? hg, hsame⟩
  cases owner with
  | event i =>
    cases owner' with
    | event j =>
      obtain ⟨e, he, heq⟩ := Option.map_eq_some_iff.1 h
      obtain ⟨e', he', heq'⟩ := Option.map_eq_some_iff.1 h'
      cases heq
      cases heq'
      rw [place_eq_of_sameName (isDistinct_scheduleAll hschedule) he he' hsame]
    | goal j => exact absurd ⟨hevent h (sameName_refl name), hgoal h' hsame⟩ hown
  | goal i =>
    cases owner' with
    | event j => exact absurd ⟨hevent h' hsame, hgoal h (sameName_refl name)⟩ hown
    | goal j =>
      obtain ⟨g, hg, heq⟩ := Option.map_eq_some_iff.1 h
      obtain ⟨g', hg', heq'⟩ := Option.map_eq_some_iff.1 h'
      cases heq
      cases heq'
      rw [place_eq_of_sameName (isDistinct_trackAll htracker) hg hg' hsame]

/-- Nothing is remembered of a mission that has just been loaded. -/
theorem latches_load (hload : load definition loader settings saved = .ok mission) :
    mission.ledger.latches = .empty := by
  obtain ⟨events, goals, hledger⟩ := ledger_load hload
  rw [hledger]
  rfl

/-- The sequences in a formula of a loaded mission, if no event and goal share its name. The other
    formulas are of no consequence to it, nor is it to them. In every run its sequences answer by what
    their own arguments say and when each of these was first true; and that is the time of the game
    then, if formulas do not change the time. -/
theorem latches_apart {H : Type} [Host H]
    (hload : load definition loader settings saved = .ok mission) {owner : FormulaOwner} {name : String}
    {root : Node} (hformula : mission.formula? owner = some (name, root))
    (hown : ¬ mission.Shares name) (registry : Registry) (settings' : Settings) :
    (∀ owner' name' root', mission.formula? owner' = some (name', root') → owner' ≠ owner →
      LeavesAlone H registry name' root' name root ∧ LeavesAlone H registry name root name' root') ∧
    ∀ (hosts : List H) (before : List (Occasion H)) (o : Occasion H) (later : List (Occasion H)),
      (Run.start mission registry settings').along Run.occasions hosts = before ++ o :: later →
      o.owner = owner →
      o.AnswersBy registry ((before ++ [o]).filter (·.owner = owner)) ∧
      (Host.KeepsTime H → ∀ path,
        Occasion.firstTime registry path ((before ++ [o]).filter (·.owner = owner)) =
          (((before ++ [o]).filter (·.owner = owner)).find? (·.confirms registry path)).map fun o =>
            Host.time o.env.host) := by
  constructor
  · intro owner' name' root' hformula' hne
    have hother : sameName name' name = false := by
      rw [← Bool.not_eq_true]
      exact fun hsame => hne (owner_eq_of_sameName hload hformula hformula' hsame hown)
    exact ⟨leavesAlone_of_ne hother root,
      leavesAlone_of_ne ((sameName_comm _ _).trans hother) root'⟩
  · intro hosts before o later hrun howner
    have hfollow := (Run.start mission registry settings').follow_along hosts
    have hformulas := (Run.start mission registry settings').formula?_of_mem_along hosts
    rw [hrun] at hfollow hformulas
    have hfirst (path : Path) : (Run.start mission registry settings').mission.ledger.latches.find?
        (Ledger.latchKey o.name path) = none := by
      rw [show (Run.start mission registry settings').mission.ledger.latches = .empty from
        latches_load hload]
      rfl
    -- the occasions of this name are those of this formula
    have hsofar : ((before ++ [o]).filter fun o' => sameName o'.name o.name) =
        (before ++ [o]).filter (·.owner = owner) := by
      have ho : mission.formula? o.owner = some (o.name, o.root) := hformulas o (by simp)
      rw [howner, hformula] at ho
      cases ho
      refine List.filter_congr fun o' hmem => ?_
      have ho' : mission.formula? o'.owner = some (o'.name, o'.root) := by
        refine hformulas o' ?_
        rw [List.append_cons]
        exact List.mem_append_left _ hmem
      by_cases howner' : o'.owner = owner
      · rw [howner', hformula] at ho'
        obtain ⟨hname, -⟩ := Prod.mk.inj (Option.some.inj ho')
        rw [decide_eq_true howner', ← hname, sameName_refl]
      · rw [decide_eq_false howner', ← Bool.not_eq_true]
        exact fun hsame => howner' (owner_eq_of_sameName hload hformula ho' hsame hown)
    constructor
    · rw [← hsofar]
      exact hfollow.answersBy hfirst
    · intro hclock path
      rw [List.append_cons] at hfollow
      obtain ⟨between, hbefore, -⟩ := Occasion.follow_append.1 hfollow
      rw [← hsofar]
      exact hbefore.firstTime_eq hclock (hfirst path)

end Mission

namespace Crossing

/-- A mission with an event that waits before it looks, and a goal of some name that looks before it
    waits. -/
def definition (goal : String) : Definition :=
  ⟨"Crossing", [],
    [⟨"Gate", "(and-in-sequence (has-time-elapsed 5) (true))", 1, 0, 0, none, 0, none⟩],
    [⟨goal, "(and-in-sequence (true) (has-time-elapsed 5))", .primary, 0, 0, false⟩]⟩

def game : Simulation :=
  .start ⟨[], []⟩ (.rolls [])

/-- What a formula as a whole came to, if this is the step that says so. -/
def result? : Visit → Option Truth
  | .leave [] (.ok v) => some v.truth
  | _ => none

/-- What is told of an occasion: whose it is, what the formula came to, and which of its two arguments
    were true. -/
structure Report where
  owner : FormulaOwner
  results : List Truth
  confirmed : List Bool
  deriving DecidableEq

def report (o : Occasion Simulation) : Report :=
  ⟨o.owner, (o.trace Registry.builtin).filterMap result?,
    [1, 2].map fun i => o.confirms Registry.builtin (Path.child [] i)⟩

/-- The occasions of two ticks, five seconds apart. -/
def occasions (mission : Mission) : List (Occasion Simulation) :=
  (Run.start mission Registry.builtin .builtin).along Run.occasions [game, game.setTime 5]

/-- What is told of a formula: its name, whether it is a sequence, and the number of its arguments. -/
structure Outline where
  name : String
  isSequence : Bool
  count : Nat
  deriving DecidableEq

def outline? (mission : Mission) (owner : FormulaOwner) : Option Outline :=
  (mission.formula? owner).map fun (name, root) =>
    ⟨name, root.isSequence Registry.builtin, root.args.length⟩

/-- What is told of a mission: both formulas, whether they share a name, and all occasions. -/
structure Account where
  event : Option Outline
  goal : Option Outline
  shares : Bool
  reports : List Report
  deriving DecidableEq

def account? (goal : String) : Option Account :=
  (Mission.load (definition goal) Registry.builtin .builtin .empty).toOption.map fun mission =>
    ⟨outline? mission (.event 0), outline? mission (.goal 0), decide (mission.Shares goal),
      (occasions mission).map report⟩

theorem account?_eq_some {goal : String} {a : Account} (h : account? goal = some a) : ∃ mission,
    Mission.load (definition goal) Registry.builtin .builtin .empty = .ok mission ∧
    outline? mission (.event 0) = a.event ∧ outline? mission (.goal 0) = a.goal ∧
    decide (mission.Shares goal) = a.shares ∧ (occasions mission).map report = a.reports := by
  obtain ⟨mission, hload, rfl⟩ := Option.map_eq_some_iff.1 h
  exact ⟨mission, toOption_eq_some_iff.1 hload, rfl, rfl, rfl, rfl⟩

theorem outline?_eq_some {mission : Mission} {owner : FormulaOwner} {name : String} {sequence : Bool}
    {count : Nat} (h : outline? mission owner = some ⟨name, sequence, count⟩) :
    ∃ root, mission.formula? owner = some (name, root) ∧
      root.isSequence Registry.builtin = sequence ∧ root.args.length = count := by
  obtain ⟨⟨_, root⟩, hformula, heq⟩ := Option.map_eq_some_iff.1 h
  obtain ⟨rfl, hsequence, hcount⟩ := Outline.mk.inj heq
  exact ⟨root, hformula, hsequence, hcount⟩

/-- What comes of it if the goal has a name of its own, and if it has the name of the event. -/
def apart : Account :=
  ⟨some ⟨"Gate", true, 2⟩, some ⟨"Bridge", true, 2⟩, false,
    [⟨.event 0, [.falseNow], [false, true]⟩, ⟨.goal 0, [.falseNow], [true, false]⟩,
      ⟨.event 0, [.knownFalse], [true, true]⟩] ++ [⟨.goal 0, [.knownTrue], [true, true]⟩]⟩

def shared : Account :=
  ⟨some ⟨"Gate", true, 2⟩, some ⟨"Gate", true, 2⟩, true,
    [⟨.event 0, [.falseNow], [false, true]⟩, ⟨.goal 0, [.trueNow], [true, false]⟩,
      ⟨.event 0, [.knownTrue], [true, true]⟩]⟩

theorem account?_bridge : account? "Bridge" = some apart := by
  decide +kernel

theorem account?_gate : account? "Gate" = some shared := by
  decide +kernel

theorem exists_leave_of_result? {visits : List Visit} {t : Truth}
    (h : t ∈ visits.filterMap result?) : ∃ answer, .leave [] (.ok answer) ∈ visits ∧ answer.truth = t := by
  obtain ⟨v, hv, hresult⟩ := List.mem_filterMap.1 h
  unfold result? at hresult
  split at hresult
  · next answer => exact ⟨answer, hv, Option.some.inj hresult⟩
  · cases hresult

end Crossing

open Crossing in
/-- A goal of a name of its own: it is reached five seconds later, as its own arguments were true at
    once and then. -/
theorem Mission.latches_apart_crossing : ∃ mission root before o,
    load (definition "Bridge") Registry.builtin .builtin .empty = .ok mission ∧
    mission.formula? (.goal 0) = some ("Bridge", root) ∧ ¬ mission.Shares "Bridge" ∧
    Host.KeepsTime Simulation ∧
    (occasions mission).map report = apart.reports ∧
    occasions mission = before ++ [o] ∧ o.owner = .goal 0 ∧
    (∀ owner' name' root', mission.formula? owner' = some (name', root') → owner' ≠ .goal 0 →
      LeavesAlone Simulation Registry.builtin name' root' "Bridge" root ∧
      LeavesAlone Simulation Registry.builtin "Bridge" root name' root') ∧
    o.AnswersBy Registry.builtin ((before ++ [o]).filter (·.owner = .goal 0)) ∧
    ∀ path, Occasion.firstTime Registry.builtin path ((before ++ [o]).filter (·.owner = .goal 0)) =
      (((before ++ [o]).filter (·.owner = .goal 0)).find? (·.confirms Registry.builtin path)).map
        fun o => Host.time o.env.host := by
  obtain ⟨mission, hload, -, houtline, hshares, hreports⟩ := account?_eq_some account?_bridge
  obtain ⟨root, hformula, -, -⟩ := outline?_eq_some houtline
  obtain ⟨before, last, hsplit, -, hlast⟩ := List.map_eq_append_iff.1 hreports
  obtain ⟨o, rfl, ho⟩ := List.map_eq_singleton_iff.1 hlast
  obtain ⟨howner, -, -⟩ := Report.mk.inj ho
  have hown := of_decide_eq_false hshares
  obtain ⟨hapart, hruns⟩ := latches_apart (H := Simulation) hload hformula hown Registry.builtin .builtin
  obtain ⟨hanswers, hfirst⟩ := hruns _ before o [] hsplit howner
  exact ⟨mission, root, before, o, hload, hformula, hown, Simulation.keepsTime, hreports, hsplit, howner,
    hapart, hanswers, hfirst Simulation.keepsTime⟩

open Crossing in
/-- A goal of the name of the event: it is reached at once, though its second argument was never true. -/
theorem Mission.latches_not_apart : ∃ mission root root' before o later,
    load (definition "Gate") Registry.builtin .builtin .empty = .ok mission ∧
    mission.formula? (.event 0) = some ("Gate", root) ∧
    mission.formula? (.goal 0) = some ("Gate", root') ∧
    ¬ LeavesAlone Simulation Registry.builtin "Gate" root "Gate" root' ∧
    occasions mission = before ++ o :: later ∧ o.owner = .goal 0 ∧
    ¬ o.AnswersBy Registry.builtin ((before ++ [o]).filter (·.owner = .goal 0)) := by
  obtain ⟨mission, hload, hevent, hgoal, -, hreports⟩ := account?_eq_some account?_gate
  obtain ⟨root, hevent, -, -⟩ := outline?_eq_some hevent
  obtain ⟨root', hgoal, hsequence, hcount⟩ := outline?_eq_some hgoal
  obtain ⟨first, rest, hsplit, hfirst, hrest⟩ := List.map_eq_cons_iff.1 hreports
  obtain ⟨o, later, rfl, ho, -⟩ := List.map_eq_cons_iff.1 hrest
  obtain ⟨hfirstOwner, -, hfirstTrue⟩ := Report.mk.inj hfirst
  obtain ⟨howner, hresults, hconfirmed⟩ := Report.mk.inj ho
  obtain ⟨-, hfirstTrue⟩ := List.cons.inj hfirstTrue
  obtain ⟨-, hconfirmed⟩ := List.cons.inj hconfirmed
  -- both are occasions of these formulas, and nothing is remembered before the first one
  have hformulas := (Run.start mission Registry.builtin .builtin).formula?_of_mem_along
    [game, game.setTime 5]
  have hfollow := (Run.start mission Registry.builtin .builtin).follow_along [game, game.setTime 5]
  rw [show Run.along _ _ _ = _ from hsplit] at hformulas hfollow
  have hfirstFormula : mission.formula? first.owner = some (first.name, first.root) :=
    hformulas first (by simp)
  have hformula : mission.formula? o.owner = some (o.name, o.root) := hformulas o (by simp)
  rw [hfirstOwner, hevent] at hfirstFormula
  rw [howner, hgoal] at hformula
  obtain ⟨hname, rfl⟩ := Prod.mk.inj (Option.some.inj hfirstFormula)
  obtain ⟨-, rfl⟩ := Prod.mk.inj (Option.some.inj hformula)
  refine ⟨mission, _, _, [first], o, later, hload, hevent, hgoal, fun halone => ?_, hsplit, howner,
    fun hanswers => ?_⟩
  · have hknown := first.isSome_of_confirms (List.cons.inj hfirstTrue).1
    have hempty : first.env.ledger.latches = .empty := hfollow.1.trans (latches_load hload)
    obtain ⟨hsame, -⟩ := halone first.env
    have hbefore := hsame (Path.child [] 2)
    rw [hname] at hbefore
    rw [Occasion.after, hbefore, ← hname, Ledger.latchedAt?, hempty] at hknown
    cases hknown
  · obtain ⟨answer, hleave, htruth⟩ := exists_leave_of_result? (hresults ▸ List.mem_singleton_self _)
    obtain ⟨o', ho', hconfirms⟩ := hanswers.confirmed hleave rfl hsequence
      (by rw [Value.isTrue, htruth]; rfl) (i := 2) (by rw [hcount]; decide)
    obtain ⟨hmem, howner'⟩ := List.mem_filter.1 ho'
    -- the only one that is an occasion of the goal does not confirm it
    rcases List.mem_pair.1 hmem with rfl | rfl
    · rw [hfirstOwner] at howner'
      cases howner'
    · cases (List.cons.inj hconfirmed).1.symm.trans hconfirms

end MissionScript

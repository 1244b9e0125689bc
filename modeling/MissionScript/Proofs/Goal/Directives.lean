import MissionScript.Proofs.Goal.Pass
import Mathlib.Data.List.Infix

/-!
Directives. Carried out in order, they leave every goal with what the last of them that names it says,
and a notification is raised for each of them that makes a difference. A pass over the goals carries
out those that wait in the ledger, and changes nothing else about which goals count.
-/

namespace MissionScript

/-- Whether a notification tells whether a goal counts. -/
def Notification.isValidity : Notification → Bool
  | .goalValidity .. => true
  | .eventFired .. | .goalChanged .. | .outcomeChanged .. => false

namespace Goal

/-- Whether a goal is invalid after directives: the last one that names it says so. -/
def verdict (g : Goal) (ds : List Directive) : Bool :=
  (ds.reverse.find? fun d => sameName g.name d.goal).elim g.invalid (·.invalid)

/-- A goal after directives. -/
def under (g : Goal) (ds : List Directive) : Goal :=
  { g with invalid := g.verdict ds }

/-- The notification of a directive to goals, if it makes a difference to one of them. -/
def notice? (now : Float) (goals : List Goal) (d : Directive) : Option Notification :=
  (goals.find? fun g => sameName g.name d.goal).bind fun g =>
    if g.invalid = d.invalid then none else some (.goalValidity g.name d.invalid now)

/-- The notifications of directives to goals. Each one finds the goals under those before it. -/
def notices (now : Float) (goals : List Goal) (ds : List Directive) : List Notification :=
  (ds.inits.zip ds).filterMap fun (earlier, d) => notice? now (goals.map (·.under earlier)) d

section

variable {now : Float} {g : Goal} {goals : List Goal} {d : Directive} {ds : List Directive}

theorem under_singleton (g : Goal) (d : Directive) :
    g.under [d] = if sameName g.name d.goal then { g with invalid := d.invalid } else g := by
  rw [under, verdict, List.reverse_singleton, List.find?_singleton]
  split <;> rfl

theorem under_append (g : Goal) (ds ds' : List Directive) :
    (g.under ds).under ds' = g.under (ds ++ ds') := by
  simp only [under, verdict, List.reverse_append, List.find?_append]
  cases ds'.reverse.find? fun d => sameName g.name d.goal <;> rfl

theorem map_under_append (goals : List Goal) (ds ds' : List Directive) :
    (goals.map (·.under ds)).map (·.under ds') = goals.map (·.under (ds ++ ds')) := by
  rw [List.map_map]
  exact List.map_congr_left fun g _ => g.under_append ds ds'

theorem under_of_not_named (h : sameName g.name d.goal = false) : g.under [d] = g := by
  rw [under_singleton, h]
  rfl

theorem nodup_map_under (h : (goals.map fun g => foldName g.name).Nodup) (ds : List Directive) :
    ((goals.map (·.under ds)).map fun g => foldName g.name).Nodup := by
  rw [List.map_map]
  exact h

theorem map_under_of_not_named (h : ∀ g ∈ goals, sameName g.name d.goal = false) :
    goals.map (·.under [d]) = goals := by
  refine (List.map_congr_left fun g hg => ?_).trans (List.map_id goals)
  exact under_of_not_named (h g hg)

theorem notice?_of_not_named (h : ∀ g ∈ goals, sameName g.name d.goal = false) :
    notice? now goals d = none := by
  rw [notice?, List.find?_eq_none.2 fun g hg => by simp [h g hg]]
  rfl

/-- A directive that names no goal makes no difference. -/
theorem under_concat_of_not_named (h : ∀ g ∈ goals, sameName g.name d.goal = false)
    (earlier : List Directive) :
    goals.map (·.under (earlier ++ [d])) = goals.map (·.under earlier) ∧
      notice? now (goals.map (·.under earlier)) d = none := by
  have hnobody : ∀ g ∈ goals.map (·.under earlier), sameName g.name d.goal = false := by
    intro g hg
    obtain ⟨g', hg', rfl⟩ := List.mem_map.1 hg
    exact h g' hg'
  refine ⟨?_, notice?_of_not_named hnobody⟩
  rw [← map_under_append, map_under_of_not_named hnobody]

/-- A directive reaches the goal that it names, if there is one. -/
theorem direct?_eq (h : (goals.map fun g => foldName g.name).Nodup) (now : Float) (d : Directive) :
    direct? d now goals = if goals.any fun g => sameName g.name d.goal then
      some (goals.map (·.under [d]), (notice? now goals d).toList) else none := by
  induction goals with
  | nil => rfl
  | cons g rest ih =>
    obtain ⟨hnew, hrest⟩ := List.nodup_cons.1 h
    rw [direct?, notice?, List.any_cons, List.find?_cons, List.map_cons, under_singleton]
    cases hname : sameName g.name d.goal with
    | true =>
      have hothers : ∀ g' ∈ rest, sameName g'.name d.goal = false := by
        intro g' hg'
        rw [← Bool.not_eq_true, sameName_iff]
        intro heq
        refine hnew (List.mem_map.2 ⟨g', hg', ?_⟩)
        exact heq.trans (sameName_iff.1 hname).symm
      simp only [if_true, Bool.true_or, Option.bind_some, map_under_of_not_named hothers]
      split <;> rfl
    | false =>
      simp only [Bool.false_eq_true, if_false, Bool.false_or]
      rw [ih hrest]
      split <;> rfl

theorem notices_cons (now : Float) (goals : List Goal) (d : Directive) (ds : List Directive) :
    notices now goals (d :: ds) =
      (notice? now goals d).toList ++ notices now (goals.map (·.under [d])) ds := by
  have hfirst : goals.map (·.under []) = goals := List.map_id goals
  have hlater : ((fun (earlier, d') => notice? now (goals.map (·.under earlier)) d') ∘
      Prod.map (d :: ·) id : List Directive × Directive → Option Notification) =
        fun (earlier, d') => notice? now ((goals.map (·.under [d])).map (·.under earlier)) d' := by
    funext ⟨earlier, d'⟩
    dsimp only
    rw [map_under_append]
    rfl
  rw [notices, List.inits_cons, List.zip_cons_cons, List.filterMap_cons, List.zip_map_left,
    List.filterMap_map, hlater, notices]
  dsimp only
  rw [hfirst]
  cases notice? now goals d <;> rfl

theorem directAll_cons (h : (goals.map fun g => foldName g.name).Nodup) (now : Float) (d : Directive)
    (ds : List Directive) :
    let later := directAll now ds (goals.map (·.under [d]))
    (directAll now (d :: ds) goals).1 = later.1 ∧
      (directAll now (d :: ds) goals).2.1 = (notice? now goals d).toList ++ later.2.1 := by
  rw [directAll, direct?_eq h]
  cases hany : goals.any fun g => sameName g.name d.goal with
  | true => exact ⟨rfl, rfl⟩
  | false =>
    have hnobody : ∀ g ∈ goals, sameName g.name d.goal = false := by simpa using hany
    rw [map_under_of_not_named hnobody, notice?_of_not_named hnobody]
    exact ⟨rfl, rfl⟩

/-- Directives to goals of distinct names are carried out in order, each exactly once. -/
theorem directAll_eq (h : (goals.map fun g => foldName g.name).Nodup) (now : Float) (ds : List Directive) :
    (directAll now ds goals).1 = goals.map (·.under ds) ∧
      (directAll now ds goals).2.1 = notices now goals ds := by
  induction ds generalizing goals with
  | nil => exact ⟨(List.map_id goals).symm, rfl⟩
  | cons d rest ih =>
    obtain ⟨hgoals, hnotices⟩ := directAll_cons h now d rest
    obtain ⟨hgoals', hnotices'⟩ := ih (nodup_map_under h [d])
    refine ⟨(hgoals.trans hgoals').trans (map_under_append goals [d] rest), ?_⟩
    rw [hnotices, hnotices', notices_cons]

end

/-- What tells whether a goal counts. -/
def validity (g : Goal) : String × Bool :=
  (g.name, g.invalid)

theorem isValidity_of_mem_notices {now : Float} {goals : List Goal} {ds : List Directive} :
    ∀ n ∈ notices now goals ds, n.isValidity = true := by
  intro n hn
  obtain ⟨⟨earlier, d⟩, -, hnotice⟩ := List.mem_filterMap.1 hn
  obtain ⟨g, -, hg⟩ := Option.bind_eq_some_iff.1 hnotice
  split at hg
  · cases hg
  · cases hg
    rfl

/-- Whether a goal counts is not changed by deciding it, nor notified then. -/
theorem Decides.validity {now : Float} {goals goals' : List Goal} {ns : List Notification}
    (h : Decides now goals goals' ns) :
    goals'.map validity = goals.map validity ∧ ns.filter Notification.isValidity = [] := by
  refine ⟨h.map_eq fun _ _ => rfl, List.filter_eq_nil_iff.2 fun n hn => ?_⟩
  obtain ⟨goal, status, score, rfl⟩ := h.goalChanged_of_mem n hn
  exact Bool.false_ne_true

end Goal

namespace Tracker

variable {t : Tracker}

theorem validity_refresh (t : Tracker) (finished : Bool) (now : Float) :
    (t.refresh finished now).1.goals = t.goals ∧
      (t.refresh finished now).2.filter Notification.isValidity = [] := by
  obtain ⟨hgoals, hnotes⟩ := t.refresh_spec finished now
  refine ⟨hgoals, List.filter_eq_nil_iff.2 fun n hn => ?_⟩
  obtain ⟨outcome, rfl⟩ := hnotes n hn
  exact Bool.false_ne_true

theorem validity_failIncomplete (t : Tracker) (now : Float) (l : Ledger) :
    (t.failIncomplete now l).1.goals.map Goal.validity = t.goals.map Goal.validity ∧
      (t.failIncomplete now l).2.1.filter Notification.isValidity = [] := by
  obtain ⟨hgoals, hmoves⟩ := (Goal.decides_failOpen now t.goals l).validity
  obtain ⟨hsame, hends⟩ :=
    { t with goals := (Goal.failOpen now t.goals l).1 }.validity_refresh false now
  refine ⟨(congrArg (List.map Goal.validity) hsame).trans hgoals, ?_⟩
  exact (List.filter_append ..).trans (congrArg₂ (· ++ ·) hmoves hends)

theorem IsDistinct.tick {H : Type} [Host H] (h : t.IsDistinct) (registry : Registry) (env : Env H) :
    ((t.tick registry).run env).1.1.IsDistinct := by
  have hnames := (t.passes_tick registry env).map_eq (f := fun g => foldName g.name)
    (fun _ _ => rfl) fun _ _ => rfl
  rw [IsDistinct, hnames]
  exact h

theorem obey_eq {H : Type} (h : t.IsDistinct) (now : Float) (env : Env H) :
    ((t.obey now).run env).1 =
      ({ t with goals := t.goals.map (·.under env.ledger.directives) },
        Goal.notices now t.goals env.ledger.directives) := by
  obtain ⟨hgoals, hnotices⟩ := Goal.directAll_eq h now env.ledger.directives
  rw [← hgoals, ← hnotices]
  rfl

/-- Of all that a pass does, only the directives make goals count or not. -/
theorem validity_tick {H : Type} [Host H] (h : t.IsDistinct) (registry : Registry) (env : Env H) :
    ((t.tick registry).run env).1.1.goals.map Goal.validity =
        (t.goals.map (·.under env.ledger.directives)).map Goal.validity ∧
      ((t.tick registry).run env).1.2.filter Notification.isValidity =
        Goal.notices (Host.time env.host) t.goals env.ledger.directives := by
  let now := Host.time env.host
  let obeyed := (t.obey now).run env
  let attempted := (Goal.attemptAll registry now obeyed.1.1.goals).run obeyed.2
  let ended := { obeyed.1.1 with goals := attempted.1.1 }.refresh false now
  have htick : ((t.tick registry).run env).1 = (ended.1, obeyed.1.2 ++ attempted.1.2 ++ ended.2) := rfl
  have hobeyed : obeyed.1 = ({ t with goals := t.goals.map (·.under env.ledger.directives) },
      Goal.notices now t.goals env.ledger.directives) := obey_eq h now env
  obtain ⟨hgoals, hmoves⟩ : attempted.1.1.map Goal.validity = obeyed.1.1.goals.map Goal.validity ∧
      attempted.1.2.filter Notification.isValidity = [] :=
    (Goal.decides_attemptAll registry now obeyed.1.1.goals obeyed.2).validity
  obtain ⟨hsame, hends⟩ : ended.1.goals = attempted.1.1 ∧ ended.2.filter Notification.isValidity = [] :=
    validity_refresh _ false now
  rw [htick]
  constructor
  · rw [hsame, hgoals, hobeyed]
  · rw [List.filter_append, List.filter_append, hmoves, hends, List.append_nil, List.append_nil, hobeyed]
    exact List.filter_eq_self.2 Goal.isValidity_of_mem_notices

end Tracker

end MissionScript

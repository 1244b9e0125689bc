import MissionScript.Mission.Loading
import MissionScript.Proofs.Evaluation.Query
import MissionScript.Proofs.Evaluation.Settled
import MissionScript.Proofs.Game.Evaluation

/-!
Conditions that ask what has become of ships, wings, events and goals. Wherever a mission is, such a
condition says something, and what it settles it upholds.
-/

namespace MissionScript

/-- The value of a node that is a number or a text. -/
def Node.literal? : Node → Option Value
  | .atom (.number x) _ => some (.number x)
  | .atom (.text s) _ => some (.text s)
  | _ => none

/-- Whether a node applies a built-in operator to these arguments. -/
def Node.Applies (registry : Registry) (b : Builtin) (args : List Node) (n : Node) : Prop :=
  ∃ name headOffset offset, n = .list (.atom (.operator name) headOffset :: args) offset ∧
    registry.get? name = some b.operator

/-- The operators that conditions are connected with. -/
def Builtin.connectives : List Builtin :=
  [.control .and, .control .or, .query .not, .query .xor]

/-- What a connective makes of what its arguments say. -/
def Builtin.connect : Builtin → List Truth → Truth
  | .control .and, truths => Truth.all true truths
  | .control .or, truths => Truth.any .knownFalse truths
  | .query .not, [t] => t.negate
  | .query .xor, [t, u] => .ofBool (t.isTrue != u.isTrue)
  | _, _ => .unknown

/-- Queries about what there is, with their arguments: about the time, about ships and a wing of the
    game, and about an event and a goal of the mission. -/
inductive Query.Asks (game : Simulation) (mission : Mission) : Query → List Value → Prop where
  | constant {q : Query} (hq : q = .always ∨ q = .never) : Asks game mission q []
  | ships {q : Query} {names : List String} (hq : q = .isDestroyed ∨ q = .hasDeparted ∨ q = .hasArrived)
    (hne : names ≠ []) (hships : ∀ name ∈ names, (game.ship? name).isSome) :
    Asks game mission q (names.map .text)
  | wing {name : String} (hwing : (game.wing? name).isSome) :
    Asks game mission .wingHasArrived [.text name]
  | time {x : Float} (hx : x.isNaN = false) : Asks game mission .hasTimeElapsed [.number x]
  | event {name : String} (hevent : (mission.schedule.event? name).isSome) :
    Asks game mission .isEventTrue [.text name]
  | eventDelay {name : String} {x : Float} (hevent : (mission.schedule.event? name).isSome)
    (hx : x.isNaN = false) : Asks game mission .isEventTrueDelay [.text name, .number x]
  | goal {q : Query} {name : String} (hq : q = .isGoalTrue ∨ q = .isGoalFalse)
    (hgoal : (mission.tracker.goal? name).isSome) : Asks game mission q [.text name]

/-- Conditions: queries of that kind on literal arguments, and what is made of them by connectives
    with the right number of arguments. -/
inductive Node.IsCondition (registry : Registry) (game : Simulation) (mission : Mission) :
    Node → Prop where
  | query {n : Node} {q : Query} {args : List Node} {values : List Value}
    (h : n.Applies registry (.query q) args)
    (hvalues : List.Forall₂ (fun arg v => arg.literal? = some v) args values)
    (hasks : q.Asks game mission values) : IsCondition registry game mission n
  | connective {n : Node} {b : Builtin} {args : List Node} (hb : b ∈ Builtin.connectives)
    (h : n.Applies registry b args)
    (hcount : b.operator.signature.acceptsCount args.length = true)
    (hargs : ∀ arg ∈ args, IsCondition registry game mission arg) :
    IsCondition registry game mission n

mutual

/-- How many steps below a node its arguments, and theirs, can be. -/
def Node.reach : Node → Nat
  | .list (_ :: args) _ => Node.reachAll args
  | _ => 0

/-- The same for the arguments of a node. -/
def Node.reachAll : List Node → Nat
  | [] => 0
  | n :: rest => max (n.reach + 1) (Node.reachAll rest)

end

theorem Node.reach_lt_reachAll {args : List Node} {arg : Node} (h : arg ∈ args) :
    arg.reach < reachAll args := by
  induction args with
  | nil => cases h
  | cons n rest ih =>
    rw [reachAll]
    rcases List.mem_cons.1 h with rfl | h
    · omega
    · have hrest := ih h
      omega

/-- Whether a game and a ledger have what a mission and its game had at first. -/
structure Mission.IsKnown (mission : Mission) (game g : Simulation) (l : Ledger) : Prop where
  ships : ∀ name, (game.ship? name).isSome → ∃ status, g.shipStatus? name = some status
  wings : g.wings = game.wings
  events : ∀ name, (mission.schedule.event? name).isSome → ∃ r, l.event? name = some r
  goals : ∀ name, (mission.tracker.goal? name).isSome → ∃ r, l.goal? name = some r

theorem Mission.IsKnown.wingArrived {mission : Mission} {game g : Simulation} {l : Ledger}
    (h : mission.IsKnown game g l) {name : String} (hwing : (game.wing? name).isSome) :
    ∃ arrived, Host.wingArrived g name = some arrived := by
  have hwing' : (g.wing? name).isSome := by
    rw [Simulation.wing?, h.wings]
    exact hwing
  apply Option.isSome_iff_exists.1
  change (((g.wing? name).map _).map _).isSome = true
  rw [Option.isSome_map, Option.isSome_map, hwing']

namespace Query

variable {game g g' : Simulation} {mission : Mission} {l l' : Ledger} {q : Query}
  {values : List Value}

/-- Whether a query can be applied to these values, and none of them is unknown. -/
structure Accepts (q : Query) (values : List Value) : Prop where
  count : (Builtin.query q).operator.signature.acceptsCount values.length = true
  kinds : ∀ i v, values[i]? = some v →
    ((Builtin.query q).operator.signature.constraintAt i).acceptsValue v = true
  known : ∀ v ∈ values, v.isUnknown = false

theorem accepts_singleton {v : Value} (hcount : (Builtin.query q).operator.signature.acceptsCount 1 = true)
    (hkind : ((Builtin.query q).operator.signature.constraintAt 0).acceptsValue v = true)
    (hknown : v.isUnknown = false) : q.Accepts [v] := by
  refine ⟨hcount, fun i w hw => ?_, by simpa using hknown⟩
  cases i with
  | zero =>
    obtain rfl := Option.some.inj hw
    exact hkind
  | succ i => simp at hw

/-- Queries about ships take any names, as long as there is one. -/
theorem accepts_ships (hq : q = .isDestroyed ∨ q = .hasDeparted ∨ q = .hasArrived)
    {names : List String} (hne : names ≠ []) : q.Accepts (names.map .text) := by
  have hargs : (Builtin.query q).operator.signature.args = [.ship] ∧
      (Builtin.query q).operator.signature.minArgs = 1 ∧
      (Builtin.query q).operator.signature.maxArgs = none := by
    rcases hq with rfl | rfl | rfl <;> exact ⟨rfl, rfl, rfl⟩
  obtain ⟨hargs, hmin, hmax⟩ := hargs
  refine ⟨?_, fun i v hv => ?_, fun v hv => ?_⟩
  · have hpos := List.length_pos_iff.2 hne
    exact Signature.acceptsCount_of_le hmax (by rw [hmin, List.length_map]; exact hpos)
  · obtain ⟨s, -, rfl⟩ := List.mem_map.1 (List.mem_of_getElem? hv)
    rw [Signature.constraintAt_of_args_eq hargs]
    rfl
  · obtain ⟨s, -, rfl⟩ := List.mem_map.1 hv
    rfl

theorem Asks.accepts (h : q.Asks game mission values) : q.Accepts values := by
  cases h with
  | constant hq =>
    refine ⟨?_, by simp, by simp⟩
    rcases hq with rfl | rfl <;> rfl
  | ships hq hne => exact accepts_ships hq hne
  | wing => exact accepts_singleton rfl rfl rfl
  | time hx => exact accepts_singleton rfl rfl (Value.isUnknown_number hx)
  | event => exact accepts_singleton rfl rfl rfl
  | @eventDelay name x _ hx =>
    refine ⟨rfl, fun i v hv => ?_, by simp [Value.isUnknown_number hx]⟩
    rcases i with _ | _ | i
    · obtain rfl := Option.some.inj hv
      rfl
    · obtain rfl := Option.some.inj hv
      rfl
    · simp at hv
  | goal hq =>
    rcases hq with rfl | rfl
    · exact accepts_singleton rfl rfl rfl
    · exact accepts_singleton rfl rfl rfl

/-- Two answers, one where a mission is and one where it is later. -/
def AnswersKeep (q : Query) (values : List Value) (g g' : Simulation) (l l' : Ledger) : Prop :=
  ∃ t t' : Truth, q.answer g l values = .ok t.toValue ∧ q.answer g' l' values = .ok t'.toValue ∧
    t.Keeps t'

/-- What is said of every ship is upheld if it is upheld of each. -/
theorem answersKeep_ships {reading : Option ShipStatus → Truth} {names : List String}
    (hq : ∀ (g : Simulation) (l : Ledger), q.answer g l (names.map .text) =
      .ok (Truth.all true (names.map fun name => reading (Host.shipStatus g name))).toValue)
    (hreading : ∀ {s s' : ShipStatus}, s.Leads s' → (reading (some s)).Keeps (reading (some s')))
    (hships : ∀ name ∈ names, ∃ status, g.shipStatus? name = some status) (hlead : g.Leads g') :
    q.AnswersKeep (names.map .text) g g' l l' := by
  refine ⟨_, _, hq g l, hq g' l', Truth.keeps_all ?_ true true⟩
  rw [List.forall₂_map_left_iff, List.forall₂_map_right_iff]
  refine List.forall₂_same.2 fun name hname => ?_
  obtain ⟨status, hstatus⟩ := hships name hname
  obtain ⟨later, hlater, hleads⟩ := hlead.ships name status hstatus
  change (reading (g.shipStatus? name)).Keeps (reading (g'.shipStatus? name))
  rw [hstatus, hlater]
  exact hreading hleads

/-- Whatever happens in between, such a query does not contradict what it has settled. -/
theorem Asks.answersKeep (h : q.Asks game mission values) (hknown : mission.IsKnown game g l)
    (hg : g.Leads g') (hl : l.Leads l') : q.AnswersKeep values g g' l l' := by
  cases h with
  | constant hq =>
    rcases hq with rfl | rfl
    · exact ⟨.knownTrue, .knownTrue, rfl, rfl, Truth.keeps_of_settled nofun nofun fun _ => rfl⟩
    · exact ⟨.knownFalse, .knownFalse, rfl, rfl, Truth.keeps_of_settled nofun nofun fun _ => rfl⟩
  | ships hq _ hships =>
    have hships' := fun name hname => hknown.ships name (hships name hname)
    rcases hq with rfl | rfl | rfl
    · exact answersKeep_ships (fun g _ => everyShip_map _ g _ _) keeps_destroyedTruth hships' hg
    · exact answersKeep_ships (fun g _ => everyShip_map _ g _ _) keeps_departedTruth hships' hg
    · exact answersKeep_ships (fun g _ => everyShip_map _ g _ _) keeps_arrivedTruth hships' hg
  | @wing name hwing =>
    obtain ⟨arrived, harrived⟩ := hknown.wingArrived hwing
    obtain ⟨later, hlater, hkept⟩ := hg.wingArrived harrived
    have hanswer {g : Simulation} {l : Ledger} {arrived : Bool}
        (h : Host.wingArrived g name = some arrived) : wingHasArrived.answer g l [.text name] =
          .ok (if arrived then Truth.knownTrue else .falseNow).toValue := by
      have htext : textAt wingHasArrived.definition.name [.text name] 0 = .ok name := rfl
      simp only [answer, htext, bind, Except.bind, h]
      cases arrived <;> rfl
    refine ⟨_, _, hanswer harrived, hanswer hlater, ?_⟩
    refine Truth.keeps_of_settled (by split <;> simp) (by split <;> simp) fun hsettled => ?_
    cases arrived with
    | true => simp [hkept rfl]
    | false => cases hsettled
  | @time x hx =>
    refine ⟨_, _, rfl, rfl, ?_⟩
    refine Truth.keeps_of_settled (by split <;> simp) (by split <;> simp) fun hsettled => ?_
    by_cases hnow : x ≤ g.time
    · rw [if_pos (show x ≤ Host.time g from hnow), if_pos (show x ≤ Host.time g' from hg.clock x hnow)]
    · rw [if_neg (show ¬ x ≤ Host.time g from hnow)] at hsettled
      cases hsettled
  | @event name hevent =>
    obtain ⟨r, hr⟩ := hknown.events name hevent
    obtain ⟨r', hr', hlead⟩ := hl.events name r hr
    have hanswer {g : Simulation} {l : Ledger} {r : EventRecord} (h : l.event? name = some r) :
        isEventTrue.answer g l [.text name] = .ok r.hasFired.toValue := by
      simp [answer, eventArg, textAt, argAt, textArg, h, bind, Except.bind, pure, Except.pure]
    exact ⟨_, _, hanswer hr, hanswer hr', hlead.keeps_hasFired⟩
  | @eventDelay name x hevent hx =>
    obtain ⟨r, hr⟩ := hknown.events name hevent
    obtain ⟨r', hr', hlead⟩ := hl.events name r hr
    have hanswer {g : Simulation} {l : Ledger} {r : EventRecord} (h : l.event? name = some r) :
        isEventTrueDelay.answer g l [.text name, .number x] =
          .ok (r.hasFiredSince g.time x).toValue := by
      simp [answer, eventArg, textAt, argAt, textArg, numberAt, numberArg, h, bind, Except.bind, pure,
        Except.pure]
      rfl
    exact ⟨_, _, hanswer hr, hanswer hr', hlead.keeps_hasFiredSince hg.clock x⟩
  | @goal _ name hq hgoal =>
    obtain ⟨r, hr⟩ := hknown.goals name hgoal
    obtain ⟨r', hr', hlead⟩ := hl.goals name r hr
    rcases hq with rfl | rfl
    · have hanswer {g : Simulation} {l : Ledger} {r : GoalRecord} (h : l.goal? name = some r) :
          isGoalTrue.answer g l [.text name] = .ok (r.status.hasBecome .complete).toValue := by
        simp [answer, goalArg, textAt, argAt, textArg, h, bind, Except.bind, pure, Except.pure]
      exact ⟨_, _, hanswer hr, hanswer hr', hlead.keeps_hasBecome rfl⟩
    · have hanswer {g : Simulation} {l : Ledger} {r : GoalRecord} (h : l.goal? name = some r) :
          isGoalFalse.answer g l [.text name] = .ok (r.status.hasBecome .failed).toValue := by
        simp [answer, goalArg, textAt, argAt, textArg, h, bind, Except.bind, pure, Except.pure]
      exact ⟨_, _, hanswer hr, hanswer hr', hlead.keeps_hasBecome rfl⟩

end Query

namespace Evaluation

variable {H : Type} [Host H] {g : H} {l : Ledger} {registry : Registry}

theorem ensures_literal_eq {I : Env H → Prop} (hrecord : ∀ env v, I env → I (env.record v)) {arg : Node}
    {v : Value} (hv : arg.literal? = some v) (formula : String) {path : Path}
    (hpath : path.length < maxEvalDepth) : Ensures I (evalNode registry formula path arg) (· = v) := by
  unfold Node.literal? at hv
  split at hv
  · cases hv
    exact ensures_number_eq hrecord registry formula _ _ hpath
  · cases hv
    exact ensures_text_eq hrecord registry formula _ _ hpath
  · cases hv

theorem ensures_literals_eq {I : Env H → Prop} (hrecord : ∀ env v, I env → I (env.record v))
    {args : List Node} {values : List Value}
    (hvalues : List.Forall₂ (fun arg v => arg.literal? = some v) args values) (formula : String)
    {path : Path} (hpath : path.length + Node.reachAll args < maxEvalDepth) (index : Nat) :
    List.Forall₂ (fun (arg : Arg H) v => Ensures I arg.eval (· = v))
      (childArgs registry formula path index args) values := by
  induction hvalues generalizing index with
  | nil => exact .nil
  | cons hv _ ih =>
    rw [Node.reachAll] at hpath
    rw [childArgs]
    refine .cons (ensures_literal_eq hrecord hv formula ?_) (ih (by omega) (index + 1))
    rw [Path.length_child]
    omega

theorem yields_literals {args : List Node} {values : List Value}
    (hvalues : List.Forall₂ (fun arg v => arg.literal? = some v) args values) (formula : String)
    {path : Path} (hpath : path.length + Node.reachAll args < maxEvalDepth) (index : Nat) :
    List.Forall₂ (fun (arg : Arg H) v => Yields g l arg.eval v)
      (childArgs registry formula path index args) values :=
  ensures_literals_eq (fun _ _ henv => henv) hvalues formula hpath index

/-- An application has the value that its operator gives. -/
theorem ensures_application_eq {I : Env H → Prop} (hrecord : ∀ env v, I env → I (env.record v))
    {name : String} {args : List Node} {headOffset offset : Nat} {formula : String} {path : Path}
    {v : Value} (hpath : path.length < maxEvalDepth)
    (happly : Ensures I
      (apply registry formula path (some name) (childArgs registry formula path 1 args)) (· = .ok v)) :
    Ensures I (evalNode registry formula path
      (.list (.atom (.operator name) headOffset :: args) offset)) (· = v) := by
  rw [evalNode, childArgs, List.tail_cons]
  exact ensures_visit_eq hrecord hpath happly

theorem yields_application {name : String} {args : List Node} {headOffset offset : Nat}
    {formula : String} {path : Path} {v : Value} (hpath : path.length < maxEvalDepth)
    (happly : Yields g l
      (apply registry formula path (some name) (childArgs registry formula path 1 args)) (.ok v)) :
    Yields g l (evalNode registry formula path
      (.list (.atom (.operator name) headOffset :: args) offset)) v :=
  ensures_application_eq (fun _ _ henv => henv) hpath happly

theorem acceptsValue_toValue (t : Truth) : Constraint.boolean.acceptsValue t.toValue = true := by
  cases t <;> rfl

/-- An eager connective is asked about what its arguments say. -/
theorem yields_eagerConnective {q : Query} {name : String}
    (hget : registry.get? name = some (Builtin.query q).operator)
    (hkinds : (Builtin.query q).operator.signature.args = [.boolean]) (formula : String) (path : Path)
    {args : List (Arg H)} {truths : List Truth} {t : Truth}
    (hargs : List.Forall₂ (fun arg (t : Truth) => Yields g l arg.eval t.toValue) args truths)
    (hcount : (Builtin.query q).operator.signature.acceptsCount args.length = true)
    (hknown : ∀ t ∈ truths, t ≠ .unknown)
    (hanswer : q.answer g l (truths.map Truth.toValue) = .ok t.toValue) :
    Yields g l (apply registry formula path (some name) args) (.ok t.toValue) := by
  refine yields_query hget formula path (List.forall₂_map_right_iff.2 hargs) ?_ ?_ ?_ hanswer
  · rw [List.length_map, ← hargs.length_eq]
    exact hcount
  · intro i v hv
    obtain ⟨t, -, rfl⟩ := List.mem_map.1 (List.mem_of_getElem? hv)
    rw [Signature.constraintAt_of_args_eq hkinds]
    exact acceptsValue_toValue t
  · intro v hv
    obtain ⟨t, ht, rfl⟩ := List.mem_map.1 hv
    exact Value.isUnknown_toValue (hknown t ht)

/-- What a connective says is determined by what its arguments say, if all of them say something. -/
theorem yields_connective {b : Builtin} (hb : b ∈ Builtin.connectives) {name : String}
    (hget : registry.get? name = some b.operator) (formula : String) (path : Path)
    {args : List (Arg H)} {truths : List Truth}
    (hargs : List.Forall₂ (fun arg (t : Truth) => Yields g l arg.eval t.toValue) args truths)
    (hcount : b.operator.signature.acceptsCount args.length = true)
    (hknown : ∀ t ∈ truths, t ≠ .unknown) :
    Yields g l (apply registry formula path (some name) args) (.ok (b.connect truths).toValue) := by
  have hlength := hargs.length_eq
  simp only [Builtin.connectives, List.mem_cons, List.not_mem_nil, or_false] at hb
  rcases hb with rfl | rfl | rfl | rfl
  · refine yields_control hget formula path hcount ?_
    exact (Control.yields_conjunction hargs true).bind (yields_pure _)
  · refine yields_control hget formula path hcount ?_
    exact (Control.yields_disjunction hargs .knownFalse).bind (yields_pure _)
  · obtain ⟨t, rfl⟩ : ∃ t, truths = [t] := by
      have hone := Signature.eq_of_acceptsCount rfl rfl hcount
      exact List.length_eq_one_iff.1 (hlength.symm.trans hone)
    refine yields_eagerConnective hget rfl formula path hargs hcount hknown ?_
    change Except.ok t.toValue.truth.negate.toValue = _
    rw [Value.truth_toValue]
    rfl
  · obtain ⟨t, u, rfl⟩ : ∃ t u, truths = [t, u] := by
      have htwo := Signature.eq_of_acceptsCount rfl rfl hcount
      exact List.length_eq_two.1 (hlength.symm.trans htwo)
    refine yields_eagerConnective hget rfl formula path hargs hcount hknown ?_
    change Except.ok (Value.bool (t.toValue.truth.isTrue != u.toValue.truth.isTrue)) = _
    rw [Value.truth_toValue, Value.truth_toValue]
    rfl

end Evaluation

namespace Node

variable {registry : Registry} {game g g' : Simulation} {mission : Mission} {l l' : Ledger}

/-- Whether a node says something at its path, both where a mission is and where it is later, and
    does not contradict itself. -/
def Keeps (registry : Registry) (g g' : Simulation) (l l' : Ledger) (formula : String) (path : Path)
    (n : Node) : Prop :=
  ∃ t t' : Truth, Yields g l (Evaluation.evalNode registry formula path n) t.toValue ∧
    Yields g' l' (Evaluation.evalNode registry formula path n) t'.toValue ∧ t.Keeps t'

theorem keeps_args {args : List Node} {formula : String} {path : Path}
    (hargs : ∀ arg ∈ args, ∀ index, arg.Keeps registry g g' l l' formula (path.child index))
    (index : Nat) : ∃ truths truths' : List Truth,
      List.Forall₂ (fun arg (t : Truth) => Yields g l arg.eval t.toValue)
        (Evaluation.childArgs registry formula path index args) truths ∧
      List.Forall₂ (fun arg (t : Truth) => Yields g' l' arg.eval t.toValue)
        (Evaluation.childArgs registry formula path index args) truths' ∧
      List.Forall₂ Truth.Keeps truths truths' := by
  induction args generalizing index with
  | nil => exact ⟨[], [], .nil, .nil, .nil⟩
  | cons arg rest ih =>
    obtain ⟨harg, hrest⟩ := List.forall_mem_cons.1 hargs
    obtain ⟨t, t', ht, ht', hkeeps⟩ := harg index
    obtain ⟨truths, truths', hts, hts', hall⟩ := ih hrest (index + 1)
    rw [Evaluation.childArgs]
    exact ⟨t :: truths, t' :: truths', .cons ht hts, .cons ht' hts', .cons hkeeps hall⟩

/-- Connectives keep what their arguments keep. -/
theorem keeps_connect {b : Builtin} (hb : b ∈ Builtin.connectives) {truths truths' : List Truth}
    (hcount : b.operator.signature.acceptsCount truths.length = true)
    (h : List.Forall₂ Truth.Keeps truths truths') : (b.connect truths).Keeps (b.connect truths') := by
  have hlength := h.length_eq
  simp only [Builtin.connectives, List.mem_cons, List.not_mem_nil, or_false] at hb
  rcases hb with rfl | rfl | rfl | rfl
  · exact Truth.keeps_all h true true
  · exact Truth.keeps_any h
  · obtain ⟨t, rfl⟩ : ∃ t, truths = [t] := by
      exact List.length_eq_one_iff.1 (Signature.eq_of_acceptsCount rfl rfl hcount)
    obtain ⟨t', rfl⟩ := List.length_eq_one_iff.1 hlength.symm
    exact (List.forall₂_cons.1 h).1.negate
  · obtain ⟨t, u, rfl⟩ : ∃ t u, truths = [t, u] := by
      exact List.length_eq_two.1 (Signature.eq_of_acceptsCount rfl rfl hcount)
    obtain ⟨t', u', rfl⟩ := List.length_eq_two.1 hlength.symm
    exact Truth.keeps_ofBool _ _

theorem keeps_connective {b : Builtin} {args : List Node} {n : Node} (hb : b ∈ Builtin.connectives)
    (h : n.Applies registry b args)
    (hcount : b.operator.signature.acceptsCount args.length = true) {formula : String} {path : Path}
    (hpath : path.length < maxEvalDepth)
    (hargs : ∀ arg ∈ args, ∀ index, arg.Keeps registry g g' l l' formula (path.child index)) :
    n.Keeps registry g g' l l' formula path := by
  obtain ⟨name, headOffset, offset, rfl, hget⟩ := h
  obtain ⟨truths, truths', hts, hts', hall⟩ := keeps_args hargs 1
  have hlength := Evaluation.length_childArgs (H := Simulation) registry formula path 1 args
  have hknown : (∀ t ∈ truths, t ≠ .unknown) ∧ ∀ t ∈ truths', t ≠ .unknown := Truth.Keeps.known hall
  refine ⟨b.connect truths, b.connect truths', ?_, ?_, keeps_connect hb ?_ hall⟩
  · refine Evaluation.yields_application hpath ?_
    exact Evaluation.yields_connective hb hget formula path hts (by rwa [hlength]) hknown.1
  · refine Evaluation.yields_application hpath ?_
    exact Evaluation.yields_connective hb hget formula path hts' (by rwa [hlength]) hknown.2
  · rwa [← hts.length_eq, hlength]

theorem keeps_query {q : Query} {args : List Node} {values : List Value} {n : Node}
    (h : n.Applies registry (.query q) args)
    (hvalues : List.Forall₂ (fun arg v => arg.literal? = some v) args values)
    (haccepts : q.Accepts values) (hanswers : q.AnswersKeep values g g' l l') {formula : String}
    {path : Path} (hpath : path.length + reachAll args < maxEvalDepth) :
    n.Keeps registry g g' l l' formula path := by
  obtain ⟨name, headOffset, offset, rfl, hget⟩ := h
  obtain ⟨t, t', ht, ht', hkeeps⟩ := hanswers
  have hpath' : path.length < maxEvalDepth := by omega
  refine ⟨t, t', ?_, ?_, hkeeps⟩
  · refine Evaluation.yields_application hpath' ?_
    exact Evaluation.yields_query hget formula path
      (Evaluation.yields_literals hvalues formula hpath 1) haccepts.count haccepts.kinds haccepts.known ht
  · refine Evaluation.yields_application hpath' ?_
    exact Evaluation.yields_query hget formula path
      (Evaluation.yields_literals hvalues formula hpath 1) haccepts.count haccepts.kinds haccepts.known ht'

/-- A condition that does not reach too deep says something wherever a mission is, and does not
    contradict what it has settled. The induction goes down the condition; its arguments lie one
    step deeper and reach one step less. -/
theorem IsCondition.keeps {n : Node} (h : n.IsCondition registry game mission)
    (hknown : mission.IsKnown game g l) (hg : g.Leads g') (hl : l.Leads l') (formula : String)
    {path : Path} (hpath : path.length + n.reach < maxEvalDepth) :
    n.Keeps registry g g' l l' formula path := by
  induction h generalizing path with
  | query happlies hvalues hasks =>
    refine keeps_query happlies hvalues hasks.accepts (hasks.answersKeep hknown hg hl) ?_
    obtain ⟨name, headOffset, offset, rfl, -⟩ := happlies
    exact hpath
  | connective hb happlies hcount _ ih =>
    refine keeps_connective hb happlies hcount (by omega) fun arg harg index => ih arg harg ?_
    obtain ⟨name, headOffset, offset, rfl, -⟩ := happlies
    have hreach := reach_lt_reachAll harg
    rw [reach] at hpath
    rw [Path.length_child]
    omega

end Node

end MissionScript

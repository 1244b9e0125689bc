import MissionScript.Proofs.Mission.Settled

/-!
What is asked about several ships. Asking about all of them at once, or about each of them and taking the
answers together, gives the same answer, and neither leaves anything behind.
-/

namespace MissionScript

variable {H : Type} {registry : Registry} {q : Query} {ships : List String}

/-- Whether a node asks a query about ships that are named one after the other. -/
def Node.AsksAbout (registry : Registry) (q : Query) (ships : List String) (n : Node) : Prop :=
  ∃ args, n.Applies registry (.query q) args ∧
    List.Forall₂ (fun arg ship => arg.literal? = some (.text ship)) args ships

/-- Whether a node is the conjunction of a query about each of the ships. -/
def Node.AsksEach (registry : Registry) (q : Query) (ships : List String) (n : Node) : Prop :=
  ∃ args, n.Applies registry (.control .and) args ∧
    List.Forall₂ (fun arg ship => arg.AsksAbout registry q [ship]) args ships

/-- Whether an environment is this one, apart from the steps in its trace. -/
def Env.TracedFrom (env env' : Env H) : Prop :=
  ∃ trace, env' = { env with trace }

/-- A query about ships reads the status of each, and takes the readings together. -/
theorem Query.exists_reading [Host H] (hq : q = .isDestroyed ∨ q = .hasDeparted ∨ q = .hasArrived) :
    ∃ reading : Option ShipStatus → Truth, ∀ (host : H) (ledger : Ledger) (ships : List String),
      q.answer host ledger (ships.map .text) =
        .ok (Truth.all true (ships.map fun ship => reading (Host.shipStatus host ship))).toValue := by
  rcases hq with rfl | rfl | rfl
  · exact ⟨destroyedTruth, fun host _ ships => everyShip_map _ host ships _⟩
  · exact ⟨departedTruth, fun host _ ships => everyShip_map _ host ships _⟩
  · exact ⟨arrivedTruth, fun host _ ships => everyShip_map _ host ships _⟩

/-- One condition says as a conjunction what it says by itself, whether it is settled or not. -/
@[simp] theorem Truth.all_singleton (t : Truth) : Truth.all true [t] = t := by
  cases t <;> rfl

/-- Literals have no arguments, so that nothing lies below them. -/
theorem Node.reachAll_le_one {args : List Node} {values : List Value}
    (h : List.Forall₂ (fun arg v => arg.literal? = some v) args values) : reachAll args ≤ 1 := by
  induction h with
  | nil => exact Nat.zero_le 1
  | @cons arg _ _ _ hliteral _ ih =>
    have harg : arg.reach = 0 := by
      cases arg with
      | atom => rfl
      | list => cases hliteral
    rw [reachAll, harg]
    omega

namespace Env

variable {env env' : Env H}

theorem TracedFrom.record (step : Visit) (h : env.TracedFrom env') :
    env.TracedFrom (env'.record step) := by
  obtain ⟨trace, rfl⟩ := h
  exact ⟨_, rfl⟩

theorem TracedFrom.shows (h : env.TracedFrom env') : env'.Shows env.host env.ledger := by
  obtain ⟨trace, rfl⟩ := h
  exact ⟨rfl, rfl⟩

end Env

namespace Evaluation

variable [Host H] {env : Env H} {n : Node} {formula : String} {path : Path}

/-- A query about ships has the value of its answer, where it does not stand too deep. -/
theorem ensures_asksAbout (hq : q = .isDestroyed ∨ q = .hasDeparted ∨ q = .hasArrived)
    (hne : ships ≠ []) (hn : n.AsksAbout registry q ships) {v : Value}
    (hanswer : q.answer env.host env.ledger (ships.map .text) = .ok v)
    (hpath : path.length + 1 < maxEvalDepth) :
    Ensures env.TracedFrom (evalNode registry formula path n) (· = v) := by
  obtain ⟨args, ⟨name, headOffset, offset, rfl, hget⟩, hargs⟩ := hn
  have hliterals : List.Forall₂ (fun arg v => arg.literal? = some v) args (ships.map .text) :=
    List.forall₂_map_right_iff.2 hargs
  have hreach := Node.reachAll_le_one hliterals
  have haccepts := Query.accepts_ships hq hne
  refine ensures_application_eq (fun _ step h => h.record step) (by omega) ?_
  refine ensures_query_eq (fun _ h => h.shows) hget formula path ?_ haccepts.count haccepts.kinds
    haccepts.known hanswer
  exact ensures_literals_eq (fun _ step h => h.record step) hliterals formula (by omega) 1

/-- The queries about each of the ships have the values of their answers, one after the other. -/
theorem ensures_asksEach (hq : q = .isDestroyed ∨ q = .hasDeparted ∨ q = .hasArrived) {args : List Node}
    (hargs : List.Forall₂ (fun arg ship => arg.AsksAbout registry q [ship]) args ships)
    {reading : String → Truth}
    (hanswer : ∀ ship, q.answer env.host env.ledger [.text ship] = .ok (reading ship).toValue)
    (hpath : path.length + 2 < maxEvalDepth) (index : Nat) :
    List.Forall₂ (fun arg (t : Truth) => Ensures env.TracedFrom arg.eval (· = t.toValue))
      (childArgs registry formula path index args) (ships.map reading) := by
  induction hargs generalizing index with
  | nil => exact .nil
  | @cons arg ship _ _ harg _ ih =>
    refine .cons ?_ (ih (index + 1))
    refine ensures_asksAbout hq (List.cons_ne_nil ship []) harg (hanswer ship) ?_
    rw [Path.length_child]
    omega

/-- A conjunction of queries about each of the ships has the value of the answer about all of them. -/
theorem ensures_conjunction_ships (hq : q = .isDestroyed ∨ q = .hasDeparted ∨ q = .hasArrived)
    (hne : ships ≠ []) (hn : n.AsksEach registry q ships) {reading : String → Truth}
    (hanswer : ∀ ship, q.answer env.host env.ledger [.text ship] = .ok (reading ship).toValue)
    (hpath : path.length + 2 < maxEvalDepth) :
    Ensures env.TracedFrom (evalNode registry formula path n)
      (· = (Truth.all true (ships.map reading)).toValue) := by
  obtain ⟨args, ⟨name, headOffset, offset, rfl, hget⟩, hargs⟩ := hn
  have htruths : List.Forall₂ (fun arg (t : Truth) => Ensures env.TracedFrom arg.eval (· = t.toValue))
      (childArgs registry formula path 1 args) (ships.map reading) :=
    ensures_asksEach hq hargs hanswer hpath 1
  have hcount : (Builtin.control .and).operator.signature.acceptsCount
      (childArgs (H := H) registry formula path 1 args).length = true := by
    refine Signature.acceptsCount_of_le rfl ?_
    rw [length_childArgs, hargs.length_eq]
    exact List.length_pos_iff.2 hne
  refine ensures_application_eq (fun _ step h => h.record step) (by omega) ?_
  rw [apply_control hget formula path hcount]
  exact (Control.ensures_conjunction_eq htruths true).bind_eq (ensures_pure rfl)

end Evaluation

/-- Asking about several ships at once is asking about each of them and taking the answers together.
    Whatever the ships are, known or not, and in whatever order they are named, both have the value that
    the query answers, as formulas of their own and as parts of others, and both leave the environment as
    it was, so that no error is counted and no warning given. -/
theorem evaluate_ships [Host H] (hq : q = .isDestroyed ∨ q = .hasDeparted ∨ q = .hasArrived)
    (hne : ships ≠ []) {together apart : Node} (htogether : together.AsksAbout registry q ships)
    (hapart : apart.AsksEach registry q ships) (formula : String) (env : Env H) :
    ∃ v, q.answer env.host env.ledger (ships.map .text) = .ok v ∧ ∀ n ∈ [together, apart],
      (∃ trace, (evaluate registry formula n).run env = (v, { env with trace })) ∧
      ∀ path : Path, path.length + 2 < maxEvalDepth → ∃ trace,
        (Evaluation.evalNode registry formula path n).run env = (v, { env with trace }) := by
  obtain ⟨reading, hreading⟩ := Query.exists_reading (H := H) hq
  have hanswer := hreading env.host env.ledger
  refine ⟨_, hanswer ships, ?_⟩
  have heval {path : Path} (hpath : path.length + 2 < maxEvalDepth) : ∀ n ∈ [together, apart],
      Ensures env.TracedFrom (Evaluation.evalNode registry formula path n)
        (· = (Truth.all true
          (ships.map fun ship => reading (Host.shipStatus env.host ship))).toValue) := by
    refine List.forall_mem_cons.2 ⟨?_, List.forall_mem_singleton.2 ?_⟩
    · exact Evaluation.ensures_asksAbout hq hne htogether (hanswer ships) (by omega)
    · refine Evaluation.ensures_conjunction_ships hq hne hapart (fun ship => ?_) hpath
      have hsingle := hanswer [ship]
      rwa [List.map_singleton, List.map_singleton, Truth.all_singleton] at hsingle
  have hresult {path : Path} (hpath : path.length + 2 < maxEvalDepth) {n : Node}
      (hn : n ∈ [together, apart]) (trace : Array Visit) := heval hpath n hn { env with trace } ⟨_, rfl⟩
  have hroot : ([] : Path).length + 2 < maxEvalDepth := by decide
  refine fun n hn => ⟨?_, fun path hpath => ?_⟩
  · obtain ⟨hvalue, trace, henv⟩ := hresult hroot hn #[]
    exact ⟨trace, Prod.ext hvalue henv⟩
  · obtain ⟨hvalue, trace, henv⟩ := hresult hpath hn env.trace
    exact ⟨trace, Prod.ext hvalue henv⟩

namespace Raid

/-- A scout that has departed and a raider that is destroyed. -/
def game : Simulation :=
  .start ⟨[⟨"Scout", some 0, none, some 0, 100⟩, ⟨"Raider", some 0, some 0, none, 100⟩], []⟩ (.rolls [])

def env : Env Simulation :=
  .start game .empty .empty #[]

/-- Whether some ships have departed. -/
def query (ships : List String) : Node :=
  .application (.query .hasDeparted) (ships.map fun ship => .atom (.text ship) 0)

theorem asksAbout_query (ships : List String) :
    (query ships).AsksAbout Registry.builtin .hasDeparted ships := by
  refine ⟨_, Node.applies_application _ _, ?_⟩
  rw [List.forall₂_map_left_iff]
  exact List.forall₂_same.2 fun _ _ => rfl

/-- Whether each of three ships has departed, of which there is no ghost. -/
def queries : Node :=
  .application (.control .and) [query ["scout"], query ["ghost"], query ["raider"]]

theorem asksEach_queries :
    queries.AsksEach Registry.builtin .hasDeparted ["scout", "ghost", "raider"] := by
  refine ⟨_, Node.applies_application _ _, ?_⟩
  exact .cons (asksAbout_query _) (.cons (asksAbout_query _) (.cons (asksAbout_query _) .nil))

/-- The ghost, of which nothing is known, is asked about before the raider, which never departs. -/
theorem evaluate_raid : (query ["scout", "ghost", "raider"]).AsksAbout Registry.builtin .hasDeparted
      ["scout", "ghost", "raider"] ∧
    queries.AsksEach Registry.builtin .hasDeparted ["scout", "ghost", "raider"] ∧
    ∀ n ∈ [query ["scout", "ghost", "raider"], queries],
      ∃ trace, (evaluate Registry.builtin "raid" n).run env = (.unknown, { env with trace }) := by
  refine ⟨asksAbout_query _, asksEach_queries, ?_⟩
  obtain ⟨v, hanswer, heval⟩ := evaluate_ships (Or.inr (Or.inl rfl)) (by decide) (asksAbout_query _)
    asksEach_queries "raid" env
  have hunknown : Query.hasDeparted.answer env.host env.ledger
      (["scout", "ghost", "raider"].map .text) = .ok .unknown := by
    decide +kernel
  obtain rfl := Except.ok.inj (hanswer.symm.trans hunknown)
  exact fun n hn => (heval n hn).1

end Raid

end MissionScript

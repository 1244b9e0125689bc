import MissionScript.Game.Simulation
import MissionScript.Proofs.Evaluation.Ensures
import MissionScript.Proofs.Operator.Builtin
import Mathlib.Data.Set.Lattice
import Mathlib.Order.CompletePartialOrder

/-!
Formulas without effects can be evaluated again. The first evaluation may remember arguments of
sequences and report unknown variables; the second one finds all this done, and gives the same value.
-/

namespace MissionScript

variable {H : Type} {α β : Type} {formula : String}

mutual

/-- Whether no operator of a formula is marked as one with effects. -/
def Node.isPure (registry : Registry) : Node → Bool
  | .atom .. => true
  | .list children _ =>
    ((headName? children).bind registry.get?).all (!·.signature.flags.sideEffect) &&
      allPure registry children

/-- Whether no operator in a row of nodes is marked as one with effects. -/
def Node.allPure (registry : Registry) : List Node → Bool
  | [] => true
  | n :: rest => n.isPure registry && allPure registry rest

end

namespace Ledger

theorem latchedAt?_latch_of_ne {path path' : Path} (h : path' ≠ path) (l : Ledger) (now : Float) :
    (l.latch formula path now).2.latchedAt? formula path' = l.latchedAt? formula path' := by
  have hkey : latchKey formula path' ≠ latchKey formula path := fun heq => h (Prod.mk.inj heq).2
  rw [latchedAt?, latch, Table.find?_insertNew, if_neg hkey]
  rfl

/-- Nothing is remembered twice. -/
theorem latch_of_latchedAt? {path : Path} {l : Ledger} {time : Float}
    (h : l.latchedAt? formula path = some time) (now : Float) :
    l.latch formula path now = (time, l) := by
  have hcontains : l.latches.contains (latchKey formula path) = true := Option.isSome_of_eq_some h
  rw [latch, h, Option.getD_some, Table.insertNew, if_pos hcontains]

end Ledger

namespace Env

/-- Whether the game, the variables, the directives and the records of two environments are the
    same. -/
structure SameWorld (env env' : Env H) : Prop where
  host : env'.host = env.host
  vars : env'.vars = env.vars
  directives : env'.ledger.directives = env.ledger.directives
  events : env'.ledger.events = env.ledger.events
  goals : env'.ledger.goals = env.ledger.goals

/-- What a first evaluation leaves behind: it remembers only in a zone of the formula. -/
structure First (formula : String) (zone : Set Path) (errors : Nat) (env env' : Env H) : Prop where
  world : env.SameWorld env'
  latches : ∀ path ∉ zone,
    env'.ledger.latchedAt? formula path = env.ledger.latchedAt? formula path
  warned : env.ledger.warned ⊆ env'.ledger.warned
  errors : env'.ledger.errors = env.ledger.errors + errors

/-- Whether an environment is the same world as the one before a first evaluation, and knows what has
    been remembered in the zone and what has been reported until after it. -/
structure Knows (formula : String) (zone : Set Path) (env env' known : Env H) : Prop where
  world : env.SameWorld known
  latches : ∀ path ∈ zone,
    known.ledger.latchedAt? formula path = env'.ledger.latchedAt? formula path
  warned : env'.ledger.warned ⊆ known.ledger.warned

/-- What a second evaluation leaves behind: it only counts its errors. -/
structure Second (errors : Nat) (env env' : Env H) : Prop where
  world : env.SameWorld env'
  latches : env'.ledger.latches = env.ledger.latches
  warned : env'.ledger.warned = env.ledger.warned
  errors : env'.ledger.errors = env.ledger.errors + errors

section

variable {zone zone' : Set Path} {errors errors' : Nat} {env env₁ env₂ env' known known' : Env H}

theorem SameWorld.refl (env : Env H) : env.SameWorld env :=
  ⟨rfl, rfl, rfl, rfl, rfl⟩

theorem SameWorld.symm (h : env.SameWorld env') : env'.SameWorld env :=
  ⟨h.host.symm, h.vars.symm, h.directives.symm, h.events.symm, h.goals.symm⟩

theorem SameWorld.trans (h₁ : env.SameWorld env₁) (h₂ : env₁.SameWorld env₂) : env.SameWorld env₂ :=
  ⟨h₂.host.trans h₁.host, h₂.vars.trans h₁.vars, h₂.directives.trans h₁.directives,
    h₂.events.trans h₁.events, h₂.goals.trans h₁.goals⟩

theorem First.trans (h₁ : First formula zone errors env env₁)
    (h₂ : First formula zone' errors' env₁ env₂) :
    First formula (zone ∪ zone') (errors + errors') env env₂ where
  world := h₁.world.trans h₂.world
  latches path hpath := by
    rw [Set.mem_union, not_or] at hpath
    rw [h₂.latches path hpath.2, h₁.latches path hpath.1]
  warned := List.Subset.trans h₁.warned h₂.warned
  errors := by rw [h₂.errors, h₁.errors, Nat.add_assoc]

theorem Second.trans (h₁ : Second errors env env₁) (h₂ : Second errors' env₁ env₂) :
    Second (errors + errors') env env₂ where
  world := h₁.world.trans h₂.world
  latches := h₂.latches.trans h₁.latches
  warned := h₂.warned.trans h₁.warned
  errors := by rw [h₂.errors, h₁.errors, Nat.add_assoc]

/-- What is known after two computations was known already between them, as the second one leaves the
    zone of the first one alone. -/
theorem Knows.before (h : Knows formula (zone ∪ zone') env env₂ known)
    (h₂ : First formula zone' errors env₁ env₂) (hdisjoint : Disjoint zone zone') :
    Knows formula zone env env₁ known where
  world := h.world
  latches path hpath := by
    rw [h.latches path (Or.inl hpath), h₂.latches path (Set.disjoint_left.1 hdisjoint hpath)]
  warned := List.Subset.trans h₂.warned h.warned

/-- It is still known when the first one of them has been done again. -/
theorem Knows.after (h : Knows formula (zone ∪ zone') env env₂ known)
    (h₁ : First formula zone errors env env₁) (hagain : Second errors known known') :
    Knows formula zone' env₁ env₂ known' where
  world := h₁.world.symm.trans (h.world.trans hagain.world)
  latches path hpath := by
    rw [Ledger.latchedAt?, hagain.latches]
    exact h.latches path (Or.inr hpath)
  warned := hagain.warned ▸ h.warned

end

end Env

/-- Whether a computation can be repeated. It remembers only in a zone of the formula, and when it is
    done again where all this is known, it has the same result and does nothing but to count the same
    errors. -/
def Repeats (formula : String) (zone : Set Path) (m : EvalM H α) : Prop :=
  ∀ env, ∃ errors, Env.First formula zone errors env (m.run env).2 ∧
    ∀ known, Env.Knows formula zone env (m.run env).2 known →
      (m.run known).1 = (m.run env).1 ∧ Env.Second errors known (m.run known).2

section

variable {zone zone' : Set Path}

theorem Repeats.mono {m : EvalM H α} (h : Repeats formula zone m) (hsub : zone ⊆ zone') :
    Repeats formula zone' m := by
  intro env
  obtain ⟨errors, hfirst, hagain⟩ := h env
  refine ⟨errors, { hfirst with latches := fun path hpath => ?_ }, fun known hknown => ?_⟩
  · exact hfirst.latches path fun hmem => hpath (hsub hmem)
  · exact hagain known { hknown with latches := fun path hpath => hknown.latches path (hsub hpath) }

theorem Repeats.bind {m : EvalM H α} {k : α → EvalM H β} (hm : Repeats formula zone m)
    (hk : ∀ a, Repeats formula zone' (k a)) (hdisjoint : Disjoint zone zone') :
    Repeats formula (zone ∪ zone') (m >>= k) := by
  intro env
  obtain ⟨errors, hfirst, hagain⟩ := hm env
  obtain ⟨errors', hfirst', hagain'⟩ := hk (m.run env).1 (m.run env).2
  refine ⟨errors + errors', hfirst.trans hfirst', fun known hknown => ?_⟩
  obtain ⟨hresult, hsecond⟩ := hagain known (hknown.before hfirst' hdisjoint)
  obtain ⟨hresult', hsecond'⟩ := hagain' _ (hknown.after hfirst hsecond)
  rw [StateT.run_bind, StateT.run_bind]
  change ((k _).run _).1 = ((k _).run _).1 ∧ Env.Second _ known ((k _).run _).2
  rw [hresult]
  exact ⟨hresult', hsecond.trans hsecond'⟩

/-- What is read of the world is read again. -/
theorem repeats_get_bind {k : Env H → EvalM H β} (hk : ∀ env, Repeats formula zone (k env))
    (hsame : ∀ env env' : Env H, env.SameWorld env' → k env' = k env) :
    Repeats formula zone (get >>= k) := by
  intro env
  obtain ⟨errors, hfirst, hagain⟩ := hk env env
  refine ⟨errors, hfirst, fun known hknown => ?_⟩
  have hrun (env : Env H) : (get >>= k : EvalM H β).run env = (k env).run env := rfl
  rw [hrun, hrun, hsame env known hknown.world]
  exact hagain known hknown

/-- An answer that depends on the world only is given again. -/
theorem repeats_modifyGet {f : Env H → α × Env H}
    (hquiet : ∀ env, (f env).2.host = env.host ∧ (f env).2.vars = env.vars ∧
      (f env).2.ledger = env.ledger)
    (hsame : ∀ env env' : Env H, env.SameWorld env' → (f env').1 = (f env).1) :
    Repeats formula zone (modifyGet f : EvalM H α) := by
  have hworld (env : Env H) : env.SameWorld (f env).2 := by
    obtain ⟨hhost, hvars, hledger⟩ := hquiet env
    exact ⟨hhost, hvars, by rw [hledger], by rw [hledger], by rw [hledger]⟩
  have hledger (env : Env H) : (f env).2.ledger = env.ledger := (hquiet env).2.2
  intro env
  refine ⟨0, ⟨hworld env, fun path _ => ?_, ?_, ?_⟩, fun known hknown => ⟨hsame env known hknown.world, ?_⟩⟩
  · exact congrArg (·.latchedAt? formula path) (hledger env)
  · exact (hledger env).symm ▸ List.Subset.refl _
  · exact congrArg Ledger.errors (hledger env)
  · exact ⟨hworld known, congrArg Ledger.latches (hledger known),
      congrArg Ledger.warned (hledger known), congrArg Ledger.errors (hledger known)⟩

theorem repeats_pure (a : α) : Repeats formula zone (pure a : EvalM H α) :=
  repeats_modifyGet (f := fun env => (a, env)) (fun _ => ⟨rfl, rfl, rfl⟩) fun _ _ _ => rfl

theorem Repeats.bind_pure {m : EvalM H α} (hm : Repeats formula zone m) (f : α → β) :
    Repeats formula zone (m >>= fun a => pure (f a)) :=
  (hm.bind (fun a => repeats_pure (f a)) (Set.disjoint_empty zone)).mono (by simp)

/-- A computation after one that remembers nothing. -/
theorem Repeats.after {m : EvalM H α} {k : α → EvalM H β} (hm : Repeats formula ∅ m)
    (hk : ∀ a, Repeats formula zone (k a)) : Repeats formula zone (m >>= k) :=
  (hm.bind hk (Set.empty_disjoint zone)).mono (by simp)

end

namespace Env

/-- Whether an unknown variable that an error is about has been reported. -/
def HasReported (env : Env H) : EvalError → Prop
  | .unknownVariable name => foldName name ∈ env.ledger.warned
  | _ => True

theorem first_report (env : Env H) (path : Path) (offset : Nat) (e : EvalError) :
    First formula ∅ 1 env (env.report formula path offset e) ∧
      (env.report formula path offset e).HasReported e := by
  unfold report
  cases e with
  | unknownVariable name =>
    unfold Ledger.warnOnce
    dsimp only
    split
    · next hwarned =>
      exact ⟨⟨⟨rfl, rfl, rfl, rfl, rfl⟩, fun _ _ => rfl, List.Subset.refl _, rfl⟩,
        List.contains_iff_mem.1 hwarned⟩
    · exact ⟨⟨⟨rfl, rfl, rfl, rfl, rfl⟩, fun _ _ => rfl, List.subset_cons_self _ _, rfl⟩,
        List.mem_cons_self ..⟩
  | _ => exact ⟨⟨⟨rfl, rfl, rfl, rfl, rfl⟩, fun _ _ => rfl, List.Subset.refl _, rfl⟩, trivial⟩

theorem second_report {known : Env H} {e : EvalError} (h : known.HasReported e) (path : Path)
    (offset : Nat) : Second 1 known (known.report formula path offset e) := by
  unfold report
  cases e with
  | unknownVariable name =>
    unfold Ledger.warnOnce
    dsimp only
    split
    · exact ⟨⟨rfl, rfl, rfl, rfl, rfl⟩, rfl, rfl, rfl⟩
    · next hnew => exact absurd (List.contains_iff_mem.2 h) hnew
  | _ => exact ⟨⟨rfl, rfl, rfl, rfl, rfl⟩, rfl, rfl, rfl⟩

end Env

theorem repeats_report (path : Path) (offset : Nat) (e : EvalError) :
    Repeats formula ∅ (modify (·.report formula path offset e) : EvalM H PUnit) := by
  intro env
  obtain ⟨hfirst, hreported⟩ : Env.First formula ∅ 1 env (env.report formula path offset e) ∧
      (env.report formula path offset e).HasReported e := Env.first_report env path offset e
  refine ⟨1, hfirst, fun known hknown => ⟨rfl, Env.second_report ?_ path offset⟩⟩
  cases e with
  | unknownVariable name => exact hknown.warned hreported
  | _ => trivial

namespace Path

/-- The paths from a node on. -/
def within (path : Path) : Set Path :=
  {p | path <+: p}

/-- The paths below a node. -/
def below (path : Path) : Set Path :=
  {p | path <+: p ∧ p ≠ path}

theorem within_child_subset {path : Path} (i : Nat) : (path.child i).within ⊆ path.below := by
  rintro p ⟨rest, rfl⟩
  refine ⟨⟨i :: rest, by simp [child]⟩, fun heq => ?_⟩
  have hlength := congrArg List.length heq
  rw [List.length_append, length_child] at hlength
  omega

theorem disjoint_within_child {path : Path} {i j : Nat} (h : i ≠ j) :
    Disjoint (path.child i).within (path.child j).within := by
  rw [Set.disjoint_left]
  rintro p ⟨rest, rfl⟩ ⟨rest', heq⟩
  rw [child, child, List.append_assoc, List.append_assoc, List.append_cancel_left_eq] at heq
  exact h (List.cons.inj heq).1.symm

end Path

namespace Arg

/-- The paths from the arguments of a row on. -/
def zone (args : List (Arg H)) : Set Path :=
  {p | ∃ arg ∈ args, p ∈ arg.path.within}

/-- Whether no argument of a row is below another one. -/
def Apart (args : List (Arg H)) : Prop :=
  args.Pairwise fun arg arg' => Disjoint arg.path.within arg'.path.within

/-- Whether evaluating an argument can be repeated, and remembers only what is below it. -/
def IsRepeated (formula : String) (arg : Arg H) : Prop :=
  Repeats formula arg.path.below arg.eval

variable {arg : Arg H} {rest args : List (Arg H)}

theorem zone_cons : zone (arg :: rest) = arg.path.within ∪ zone rest := by
  ext p
  simp [zone]

theorem within_subset_zone (h : arg ∈ args) : arg.path.within ⊆ zone args :=
  fun _ hp => ⟨arg, h, hp⟩

theorem Apart.disjoint (h : Apart (arg :: rest)) : Disjoint arg.path.within (zone rest) := by
  rw [Set.disjoint_left]
  rintro p hp ⟨arg', harg', hp'⟩
  exact Set.disjoint_left.1 ((List.pairwise_cons.1 h).1 arg' harg') hp hp'

theorem IsRepeated.within (h : arg.IsRepeated formula) : Repeats formula arg.path.within arg.eval :=
  h.mono fun _ hp => hp.1

/-- What is done with one argument of a row, and then with the others. -/
theorem Apart.bind {m : EvalM H α} {k : α → EvalM H β} (h : Apart (arg :: rest))
    (hm : Repeats formula arg.path.within m) (hk : ∀ a, Repeats formula (zone rest) (k a)) :
    Repeats formula (zone (arg :: rest)) (m >>= k) :=
  zone_cons ▸ hm.bind hk h.disjoint

end Arg

namespace Control

open Arg

variable {args : List (Arg H)}

theorem repeats_conjunction (hargs : ∀ arg ∈ args, arg.IsRepeated formula) (hapart : Apart args)
    (settled : Bool) : Repeats formula (zone args) (conjunction settled args) := by
  induction args generalizing settled with
  | nil => exact repeats_pure _
  | cons arg rest ih =>
    obtain ⟨harg, hrest⟩ := List.forall_mem_cons.1 hargs
    have ih := ih hrest (List.pairwise_cons.1 hapart).2
    refine hapart.bind harg.within fun v => ?_
    cases v.truth with
    | knownTrue => exact ih settled
    | trueNow => exact ih false
    | falseNow | knownFalse | unknown => exact repeats_pure _

theorem repeats_disjunction (hargs : ∀ arg ∈ args, arg.IsRepeated formula) (hapart : Apart args)
    (sofar : Truth) : Repeats formula (zone args) (disjunction sofar args) := by
  induction args generalizing sofar with
  | nil => exact repeats_pure _
  | cons arg rest ih =>
    obtain ⟨harg, hrest⟩ := List.forall_mem_cons.1 hargs
    have ih := ih hrest (List.pairwise_cons.1 hapart).2
    refine hapart.bind harg.within fun v => ?_
    cases v.truth with
    | knownTrue | trueNow => exact repeats_pure _
    | knownFalse => exact ih sofar
    | falseNow => exact ih _
    | unknown => exact ih .unknown

/-- A sequence remembers an argument under the path of the argument itself. -/
theorem repeats_latchArg (now : Float) {arg : Arg H} (harg : arg.IsRepeated formula) :
    Repeats formula arg.path.within (latchArg formula now arg) := by
  have hdisjoint : Disjoint arg.path.below {arg.path} :=
    Set.disjoint_left.2 fun _ hp hpath => hp.2 hpath
  have hsub : arg.path.below ∪ {arg.path} ⊆ arg.path.within := by
    rintro p (hp | rfl)
    · exact hp.1
    · exact List.prefix_rfl
  refine (harg.bind (fun v => ?_) hdisjoint).mono hsub
  dsimp only
  split
  · intro env
    refine ⟨0, ⟨⟨rfl, rfl, rfl, rfl, rfl⟩, fun path hpath => ?_, List.Subset.refl _, rfl⟩,
      fun known hknown => ?_⟩
    · exact Ledger.latchedAt?_latch_of_ne hpath env.ledger now
    · have htime := (hknown.latches arg.path rfl).trans (env.ledger.latchedAt?_latch formula arg.path now)
      change (_, some (known.ledger.latch formula arg.path now).1) = _ ∧
        Env.Second 0 known { known with ledger := (known.ledger.latch formula arg.path now).2 }
      rw [Ledger.latch_of_latchedAt? htime now]
      exact ⟨rfl, ⟨rfl, rfl, rfl, rfl, rfl⟩, rfl, rfl, rfl⟩
  · intro env
    refine ⟨0, ⟨.refl env, fun _ _ => rfl, List.Subset.refl _, rfl⟩, fun known hknown => ?_⟩
    exact ⟨congrArg (Prod.mk v.truth) (hknown.latches arg.path rfl), .refl known, rfl, rfl, rfl⟩

theorem repeats_latchAll (now : Float) (hargs : ∀ arg ∈ args, arg.IsRepeated formula)
    (hapart : Apart args) : Repeats formula (zone args) (latchAll formula now args) := by
  induction args with
  | nil => exact repeats_pure _
  | cons arg rest ih =>
    obtain ⟨harg, hrest⟩ := List.forall_mem_cons.1 hargs
    have ih := ih hrest (List.pairwise_cons.1 hapart).2
    exact hapart.bind (repeats_latchArg now harg) fun reading => ih.bind_pure (reading :: ·)

variable [Host H]

/-- Controls that are not marked as ones with effects can be repeated. -/
theorem repeats_run {c : Control} (hc : c.definition.signature.flags.sideEffect = false)
    (hargs : ∀ arg ∈ args, arg.IsRepeated formula) (hapart : Apart args) :
    Repeats formula (zone args) (c.run formula args) := by
  cases c with
  | and => exact (repeats_conjunction hargs hapart true).bind_pure _
  | or => exact (repeats_disjunction hargs hapart .knownFalse).bind_pure _
  | andInSequence =>
    refine repeats_get_bind (fun env => ?_) fun env env' hworld => by rw [hworld.host]
    exact (repeats_latchAll _ hargs hapart).bind_pure _
  | «when» | everyTime | modifyVariable => cases hc
  | ifThenElse =>
    rcases args with _ | ⟨condition, _ | ⟨yes, _ | ⟨no, rest⟩⟩⟩
    · exact repeats_pure _
    · exact repeats_pure _
    · exact repeats_pure _
    · obtain ⟨hcondition, hrest⟩ := List.forall_mem_cons.1 hargs
      have hbranch (arg : Arg H) (harg : arg ∈ yes :: no :: rest) :
          Repeats formula (zone (yes :: no :: rest)) arg.eval :=
        (hrest arg harg).within.mono (within_subset_zone harg)
      refine hapart.bind hcondition.within fun v => ?_
      dsimp only
      split
      · exact repeats_pure _
      · split
        · exact (hbranch yes (by simp)).bind_pure _
        · exact (hbranch no (by simp)).bind_pure _
  | variableIsSet =>
    cases args with
    | nil => exact repeats_pure _
    | cons ref rest =>
      dsimp only [run]
      split
      · exact repeats_pure _
      · refine repeats_get_bind (fun _ => repeats_pure _) fun env env' hworld => ?_
        rw [hworld.vars]

end Control

namespace Evaluation

open Arg

variable {args : List (Arg H)}

theorem repeats_evalAll (hargs : ∀ arg ∈ args, arg.IsRepeated formula) (hapart : Apart args) :
    Repeats formula (zone args) (evalAll args) := by
  induction args with
  | nil => exact repeats_pure _
  | cons arg rest ih =>
    obtain ⟨harg, hrest⟩ := List.forall_mem_cons.1 hargs
    have ih := ih hrest (List.pairwise_cons.1 hapart).2
    exact hapart.bind harg.within fun v => ih.bind_pure (v :: ·)

variable [Host H]

theorem answer_congr {env env' : Env H} (h : env.SameWorld env') (q : Query) (values : List Value) :
    q.answer env'.host env'.ledger values = q.answer env.host env.ledger values := by
  have hevent (name : String) : env'.ledger.event? name = env.ledger.event? name :=
    congrArg (Table.find? · (foldName name)) h.events
  have hgoal (name : String) : env'.ledger.goal? name = env.ledger.goal? name :=
    congrArg (Table.find? · (foldName name)) h.goals
  rw [h.host]
  cases q <;> simp only [Query.answer, Query.eventArg, Query.goalArg, hevent, hgoal]

theorem repeats_applyEager {q : Query} {operator : Operator}
    (hquery : operator.behaviour = .builtin (.query q)) (path : Path) (values : List Value) :
    Repeats (H := H) formula ∅ (modifyGet (applyEager operator formula path values)) := by
  have hsame (env : Env H) : (applyEager operator formula path values env).2 = env := by
    rcases applyEager_eq operator formula path values env with heq | ⟨a, ha, -⟩
    · exact heq
    · rw [hquery] at ha
      cases ha
  refine repeats_modifyGet (fun env => ?_) fun env env' hworld => ?_
  · rw [hsame env]
    exact ⟨rfl, rfl, rfl⟩
  · unfold applyEager
    rw [hquery]
    split
    · rfl
    · split
      · rfl
      · split
        · rfl
        · exact answer_congr hworld q values

/-- Applying an operator that is not marked as one with effects can be repeated. -/
theorem repeats_apply {name : Option String} (path : Path)
    (hpure : (name.bind Registry.builtin.get?).all (!·.signature.flags.sideEffect) = true)
    (hargs : ∀ arg ∈ args, arg.IsRepeated formula) (hapart : Apart args) :
    Repeats formula (zone args) (apply Registry.builtin formula path name args) := by
  unfold apply
  split
  · exact repeats_pure _
  · next name =>
    split
    · exact repeats_pure _
    · next operator hoperator =>
      obtain ⟨b, rfl, -⟩ := Registry.exists_builtin_of_get? hoperator
      rw [Option.bind_some, hoperator, Option.all_some, Bool.not_eq_true'] at hpure
      cases b with
      | query q =>
        rw [if_neg (show ¬ (Builtin.query q).operator.behaviour.isLazy = true from Bool.false_ne_true)]
        have heager (values : List Value) : Repeats (H := H) formula ∅
            (modifyGet (applyEager (Builtin.query q).operator formula path values)) :=
          repeats_applyEager rfl path values
        exact ((repeats_evalAll hargs hapart).bind heager (Set.disjoint_empty _)).mono (by simp)
      | action a => cases a <;> cases hpure
      | control c =>
        rw [if_pos (show (Builtin.control c).operator.behaviour.isLazy = true from rfl)]
        unfold applyLazy
        split
        · exact repeats_pure _
        · exact Control.repeats_run hpure hargs hapart

omit [Host H] in
theorem repeats_visit {zone : Set Path} (path : Path) (n : Node)
    {attempt : EvalM H (Except EvalError Value)} (hattempt : Repeats formula zone attempt) :
    Repeats formula zone (visit formula path n attempt) := by
  have hrecord (v : Visit) : Repeats (H := H) formula ∅ (modify (·.record v)) :=
    repeats_modifyGet (fun _ => ⟨rfl, rfl, rfl⟩) fun _ _ _ => rfl
  refine (hrecord _).after fun _ => ?_
  dsimp only
  rw [← Set.union_empty zone]
  split
  all_goals
    refine Repeats.bind (by first | exact hattempt | exact (repeats_pure _).mono (Set.empty_subset zone))
      (fun outcome => ?_) (Set.disjoint_empty zone)
    -- however the outcome has come about, the node is left with it
    cases outcome with
    | ok v => exact (hrecord _).after fun _ => repeats_pure v
    | error e =>
      have hreport : Repeats (H := H) formula ∅ (modify fun env =>
          (env.report formula path n.offset e).record (.leave path (.error e))) :=
        (repeats_report path n.offset e).after fun _ => hrecord _
      exact hreport.after fun _ => repeats_pure Value.unknown

/-- The arguments of a node are apart. -/
theorem apart_childArgs (registry : Registry) (formula : String) (path : Path) (index : Nat)
    (nodes : List Node) : Apart (childArgs (H := H) registry formula path index nodes) := by
  induction nodes generalizing index with
  | nil =>
    rw [childArgs]
    exact .nil
  | cons n rest ih =>
    rw [childArgs]
    refine .cons (fun arg harg => ?_) (ih (index + 1))
    obtain ⟨i, n, -, rfl⟩ := exists_of_mem_childArgs harg
    exact Path.disjoint_within_child (by omega)

mutual

/-- Evaluating a node can be repeated if no operator in it is marked as one with effects. -/
theorem repeats_evalNode (formula : String) (path : Path) (n : Node)
    (hpure : n.isPure Registry.builtin = true) :
    Repeats (H := H) formula path.below (evalNode Registry.builtin formula path n) := by
  cases n with
  | atom a offset =>
    rw [evalNode]
    refine repeats_visit path _ (repeats_get_bind (fun _ => repeats_pure _) fun env env' hworld => ?_)
    rw [hworld.vars]
  | list children offset =>
    rw [Node.isPure, Bool.and_eq_true] at hpure
    have hargs := isRepeated_childArgs formula path 0 children hpure.2
    have hapart := apart_childArgs (H := H) Registry.builtin formula path 0 children
    rw [evalNode]
    refine repeats_visit path _ ((repeats_apply path hpure.1
      (fun arg harg => hargs arg (List.mem_of_mem_tail harg)) ?_).mono ?_)
    · exact List.Pairwise.tail hapart
    · rintro p ⟨arg, harg, hp⟩
      obtain ⟨i, n, -, rfl⟩ := exists_of_mem_childArgs (List.mem_of_mem_tail harg)
      exact Path.within_child_subset _ hp

theorem isRepeated_childArgs (formula : String) (path : Path) (index : Nat) (nodes : List Node)
    (hpure : Node.allPure Registry.builtin nodes = true) :
    ∀ arg ∈ childArgs (H := H) Registry.builtin formula path index nodes,
      arg.IsRepeated formula := by
  cases nodes with
  | nil =>
    rw [childArgs]
    exact fun arg harg => absurd harg List.not_mem_nil
  | cons n rest =>
    rw [Node.allPure, Bool.and_eq_true] at hpure
    rw [childArgs]
    exact List.forall_mem_cons.2 ⟨repeats_evalNode formula (path.child index) n hpure.1,
      isRepeated_childArgs formula path (index + 1) rest hpure.2⟩

end

end Evaluation

/-- A formula in which no operator is marked as one with effects can be evaluated twice, in any
    environment: the second evaluation gives the same value as the first. Neither changes the game, the
    variables, the directives or the records of events and goals; and the second one remembers nothing
    more and reports no other variable, but counts as many errors as the first. -/
theorem evaluate_twice [Host H] (formula : String) (root : Node)
    (hpure : root.isPure Registry.builtin = true) (env : Env H) :
    let first := (evaluate Registry.builtin formula root).run env
    let second := (evaluate Registry.builtin formula root).run first.2
    second.1 = first.1 ∧ env.SameWorld first.2 ∧ env.SameWorld second.2 ∧
      second.2.ledger.latches = first.2.ledger.latches ∧
      second.2.ledger.warned = first.2.ledger.warned ∧
      ∃ errors, first.2.ledger.errors = env.ledger.errors + errors ∧
        second.2.ledger.errors = first.2.ledger.errors + errors := by
  have hrepeats : Repeats (H := H) formula (Path.below []) (evaluate Registry.builtin formula root) :=
    Repeats.after (repeats_modifyGet (fun _ => ⟨rfl, rfl, rfl⟩) fun _ _ _ => rfl) fun _ =>
      Evaluation.repeats_evalNode formula [] root hpure
  intro first second
  obtain ⟨errors, hfirst, hagain⟩ := hrepeats env
  obtain ⟨hvalue, hsecond⟩ := hagain first.2 ⟨hfirst.world, fun _ _ => rfl, List.Subset.refl _⟩
  exact ⟨hvalue, hfirst.world, hfirst.world.trans hsecond.world, hsecond.latches, hsecond.warned, errors,
    hfirst.errors, hsecond.errors⟩

/-- A sequence of a time that has come and of a variable that nobody has declared. -/
def Patrol.root : Node :=
  let apply (name : String) (args : List Node) : Node := .list (.atom (.operator name) 0 :: args) 0
  apply "and-in-sequence" [apply "has-time-elapsed" [.atom (.number 1) 0],
    apply "<" [.atom (.variable "fuel") 0, .atom (.number 5) 0]]

theorem evaluate_twice_patrol :
    let env := Env.start ((Simulation.start .empty (.rolls [])).setTime 2) .empty .empty #[]
    let first := (evaluate Registry.builtin "patrol" Patrol.root).run env
    let second := (evaluate Registry.builtin "patrol" Patrol.root).run first.2
    Patrol.root.isPure Registry.builtin = true ∧
      first.2.ledger.latchedAt? "patrol" [1] = some 2 ∧ first.2.ledger.warned = ["fuel"] ∧
      second.2.ledger.errors = 2 ∧
      second.1 = first.1 ∧ env.SameWorld first.2 ∧ env.SameWorld second.2 ∧
      second.2.ledger.latches = first.2.ledger.latches ∧
      second.2.ledger.warned = first.2.ledger.warned ∧
      ∃ errors, first.2.ledger.errors = env.ledger.errors + errors ∧
        second.2.ledger.errors = first.2.ledger.errors + errors := by
  have hpatrol :
      let env := Env.start ((Simulation.start .empty (.rolls [])).setTime 2) .empty .empty #[]
      let first := (evaluate Registry.builtin "patrol" Patrol.root).run env
      let second := (evaluate Registry.builtin "patrol" Patrol.root).run first.2
      Patrol.root.isPure Registry.builtin = true ∧
        first.2.ledger.latchedAt? "patrol" [1] = some 2 ∧ first.2.ledger.warned = ["fuel"] ∧
        second.2.ledger.errors = 2 := by decide +kernel
  obtain ⟨hpure, hlatched, hwarned, herrors⟩ := hpatrol
  exact ⟨hpure, hlatched, hwarned, herrors, evaluate_twice "patrol" Patrol.root hpure _⟩

end MissionScript

import MissionScript.Proofs.Evaluation.Journey
import MissionScript.Proofs.Evaluation.Independence

/-!
What sequences remember of their arguments from one evaluation to the next. A formula leaves alone what
is remembered of formulas of other names; and of its own arguments it remembers when each was first
true.
-/

namespace MissionScript

/-- The event or the goal that a formula belongs to, by its place. -/
inductive FormulaOwner where
  | event (place : Nat)
  | goal (place : Nat)
  deriving DecidableEq

/-- An occasion on which a formula is evaluated. -/
structure Occasion (H : Type) where
  owner : FormulaOwner
  name : String
  root : Node
  env : Env H

/-- Whether evaluating one formula is of no consequence to another one. It leaves alone what is
    remembered of the other formula, which has the same value and does the same as without it. -/
def LeavesAlone (H : Type) [Host H] (registry : Registry) (name : String) (root : Node) (name' : String)
    (root' : Node) : Prop :=
  ∀ env : Env H,
    let remembered := ((evaluate registry name root).run env).2.ledger
    let without := (evaluate registry name' root').run env
    let result := (evaluate registry name' root').run (env.withLatches remembered.latches)
    (∀ path, remembered.latchedAt? name' path = env.ledger.latchedAt? name' path) ∧
      result.1 = without.1 ∧ without.2.Alike name' result.2

variable {H : Type} [Host H]

namespace Occasion

/-- What an occasion leaves behind. -/
def after (registry : Registry) (o : Occasion H) : Env H :=
  ((evaluate registry o.name o.root).run o.env).2

/-- The steps that are taken on an occasion. -/
def trace (registry : Registry) (o : Occasion H) : List Visit :=
  (o.after registry).trace.toList

/-- Whether on an occasion the node at a path is left as a true argument of a sequence. -/
def confirms (registry : Registry) (path : Path) (o : Occasion H) : Bool :=
  ((o.trace registry).filterMap (Visit.latched? registry o.name o.root)).contains
    (Ledger.latchKey o.name path)

/-- What is remembered of an argument since the first of some occasions on which it was true. -/
def firstTime (registry : Registry) (path : Path) (os : List (Occasion H)) : Option Float :=
  os.findSome? fun o =>
    if o.confirms registry path then (o.after registry).ledger.latchedAt? o.name path else none

/-- Whether the sequences of a formula answer by what their own arguments say on this occasion, and by
    the first of the occasions so far on which each of these arguments was true. -/
def AnswersBy (registry : Registry) (o : Occasion H) (sofar : List (Occasion H)) : Prop :=
  ∀ (path : Path) (n : Node) (answer : Value), .leave path (.ok answer) ∈ o.trace registry →
    o.root.at? path = some n → n.isSequence registry = true →
    ∃ values : List Value, values.length = n.args.length ∧
      (∀ v i, (v, i) ∈ values.zipIdx 1 → Visit.Returns (o.trace registry) (path.child i) v) ∧
      answer = (Control.sequenceTruth ((values.zipIdx 1).map fun (v, i) =>
        (v.truth, firstTime registry (path.child i) sofar))).toValue

/-- Whether occasions follow each other, from some latches to others: each one finds what the one before
    it has left. -/
def Follow (registry : Registry) : Table (String × Path) Float → List (Occasion H) →
    Table (String × Path) Float → Prop
  | first, [], last => last = first
  | first, o :: rest, last =>
    o.env.ledger.latches = first ∧ Follow registry (o.after registry).ledger.latches rest last

end Occasion

theorem Ledger.latchKey_eq_iff {formula formula' : String} {path path' : Path} :
    latchKey formula path = latchKey formula' path' ↔ sameName formula formula' = true ∧ path = path' := by
  rw [latchKey, latchKey, Prod.mk.injEq, sameName_iff]

/-- A key that is latched is one of the formula. -/
theorem Visit.exists_of_latched? {registry : Registry} {formula : String} {root : Node} {v : Visit}
    {key : String × Path} (h : v.latched? registry formula root = some key) :
    ∃ path, key = Ledger.latchKey formula path := by
  unfold latched? at h
  split at h
  · split at h
    · exact ⟨_, (Option.some.inj h).symm⟩
    · cases h
  · cases h

/-- A sequence is true only if each of its arguments is remembered. -/
theorem Control.isSome_of_isTrue_sequenceTruth {readings : List (Truth × Option Float)}
    (h : (sequenceTruth readings).isTrue = true) : ∀ r ∈ readings, r.2.isSome = true := by
  have htimes {times : List Float} (hmap : readings.mapM (·.2) = some times) :
      ∀ r ∈ readings, r.2.isSome = true := by
    clear h
    induction readings generalizing times with
    | nil => exact nofun
    | cons r rest ih =>
      rw [List.mapM_cons] at hmap
      obtain ⟨time, htime, hrest⟩ := Option.bind_eq_some_iff.1 hmap
      obtain ⟨_, hrest, -⟩ := Option.bind_eq_some_iff.1 hrest
      exact List.forall_mem_cons.2 ⟨Option.isSome_of_eq_some htime, ih hrest⟩
  unfold sequenceTruth at h
  split at h
  · next times htimes' => exact htimes htimes'
  · split at h <;> cases h

section

variable {registry : Registry} {formula : String} {root : Node} {env : Env H}

/-- What an evaluation remembers anew is an argument that was true. -/
theorem mem_latched_of_isSome {key : String × Path} (hbefore : env.ledger.latches.find? key = none)
    (hafter : (((evaluate registry formula root).run env).2.ledger.latches.find? key).isSome = true) :
    key ∈ ((evaluate registry formula root).run env).2.trace.toList.filterMap
      (Visit.latched? registry formula root) := by
  rcases ((account_evaluate registry formula root env).1.latched key).1 hafter with hknown | hmem
  · exact absurd hknown (by simp [Table.contains, hbefore])
  · exact hmem

/-- It is under the name of the formula. -/
theorem latchedAt?_evaluate_of_ne {other : String} (h : sameName formula other = false)
    (registry : Registry) (root : Node) (env : Env H) (path : Path) :
    ((evaluate registry formula root).run env).2.ledger.latchedAt? other path =
      env.ledger.latchedAt? other path := by
  unfold Ledger.latchedAt?
  cases hbefore : env.ledger.latches.find? (Ledger.latchKey other path) with
  | some time => exact (account_evaluate registry formula root env).1.kept _ _ hbefore
  | none =>
    refine Option.not_isSome_iff_eq_none.1 fun hafter => ?_
    obtain ⟨v, -, hv⟩ := List.mem_filterMap.1 (mem_latched_of_isSome hbefore hafter)
    obtain ⟨path', hkey⟩ := Visit.exists_of_latched? hv
    have hsame := (Ledger.latchKey_eq_iff.1 hkey.symm).1
    rw [h] at hsame
    cases hsame

/-- Formulas of different names leave each other alone. -/
theorem leavesAlone_of_ne {name : String} (h : sameName formula name = false) (root' : Node) :
    LeavesAlone H registry formula root name root' := by
  intro env
  have hlatched := latchedAt?_evaluate_of_ne h registry root env
  exact ⟨hlatched, agrees_evaluate registry name root' env _ ⟨_, rfl, hlatched⟩⟩

/-- What an evaluation remembers anew is the time of the game. -/
theorem time_of_latched (hclock : Host.KeepsTime H) {key : String × Path} {time : Float}
    (h : ((evaluate registry formula root).run env).2.ledger.latches.find? key = some time) :
    env.ledger.latches.find? key = some time ∨ time = Host.time env.host := by
  have hsteady : Env.Steady fun env' : Env H => Host.time env'.host = Host.time env.host ∧
      ∀ key time, env'.ledger.latches.find? key = some time →
        env.ledger.latches.find? key = some time ∨ time = Host.time env.host := by
    constructor
    · rintro env₁ env₂ heffect hlatches ⟨htime, hlatched⟩
      exact ⟨(hclock env₁ env₂ heffect).trans htime, by rwa [hlatches]⟩
    · rintro earlier env₁ formula path ⟨hearlier, -⟩ ⟨htime, hlatched⟩
      refine ⟨htime, fun key time hkey => ?_⟩
      simp only [Ledger.latch, Table.find?_insertNew, hearlier] at hkey
      split at hkey
      · cases hfind : env₁.ledger.latches.find? (Ledger.latchKey formula path) with
        | none =>
          rw [hfind, Option.getD_none] at hkey
          exact Or.inr (Option.some.inj hkey).symm
        | some time' =>
          rw [hfind, Option.getD_some] at hkey
          cases hkey
          next heq => exact hlatched key time (heq ▸ hfind)
      · exact hlatched key time hkey
  exact (preserves_evaluate hsteady (fun _ _ h => h) registry formula root env
    ⟨rfl, fun _ _ h => Or.inl h⟩).2.2 key time h

end

namespace Occasion

variable {registry : Registry} {o : Occasion H} {os before later : List (Occasion H)}
  {first last : Table (String × Path) Float} {name : String} {path : Path}

theorem follow_append {os' : List (Occasion H)} : Follow registry first (os ++ os') last ↔
    ∃ between, Follow registry first os between ∧ Follow registry between os' last := by
  induction os generalizing first with
  | nil => simp [Follow]
  | cons o rest ih => simp only [List.cons_append, Follow, ih, and_assoc, exists_and_left]

/-- An argument is remembered if it was before, or is true now. -/
theorem latchedAt?_after (registry : Registry) (o : Occasion H) (path : Path) :
    (o.after registry).ledger.latchedAt? o.name path =
      (o.env.ledger.latchedAt? o.name path).or (firstTime registry path [o]) := by
  have hfirst : firstTime registry path [o] = if o.confirms registry path then
      (o.after registry).ledger.latchedAt? o.name path else none := by
    rw [firstTime, List.findSome?_singleton]
  rw [hfirst]
  unfold Ledger.latchedAt?
  cases hbefore : o.env.ledger.latches.find? (Ledger.latchKey o.name path) with
  | some time => exact (account_evaluate registry o.name o.root o.env).1.kept _ _ hbefore
  | none =>
    rw [Option.none_or]
    split
    · rfl
    · next hconfirms =>
      exact Option.not_isSome_iff_eq_none.1 fun hafter =>
        hconfirms (List.contains_iff_mem.2 (mem_latched_of_isSome hbefore hafter))

/-- A true argument of a sequence is remembered. -/
theorem isSome_of_confirms {o : Occasion H} (h : o.confirms registry path = true) :
    ((o.after registry).ledger.latchedAt? o.name path).isSome = true :=
  ((account_evaluate registry o.name o.root o.env).1.latched _).2 (Or.inr (List.contains_iff_mem.1 h))

theorem firstTime_append (registry : Registry) (path : Path) (os os' : List (Occasion H)) :
    firstTime registry path (os ++ os') = (firstTime registry path os).or
      (firstTime registry path os') :=
  List.findSome?_append ..

/-- After some occasions an argument is remembered if it was before, or since it was first true on one
    of those that are of a formula of this name. -/
theorem Follow.find?_eq (h : Follow registry first os last) (name : String) (path : Path) :
    last.find? (Ledger.latchKey name path) = (first.find? (Ledger.latchKey name path)).or
      (firstTime registry path (os.filter fun o => sameName o.name name)) := by
  induction os generalizing first with
  | nil =>
    cases h
    exact (Option.or_none ..).symm
  | cons o rest ih =>
    obtain ⟨rfl, hrest⟩ := h
    rw [ih hrest, List.filter_cons]
    cases hname : sameName o.name name with
    | false =>
      have hother := latchedAt?_evaluate_of_ne hname registry o.root o.env path
      exact congrArg (fun t : Option Float => t.or _) hother
    | true =>
      have hkey : Ledger.latchKey o.name path = Ledger.latchKey name path :=
        Ledger.latchKey_eq_iff.2 ⟨hname, rfl⟩
      have hown := o.latchedAt?_after registry path
      rw [Ledger.latchedAt?, Ledger.latchedAt?, hkey] at hown
      rw [if_pos rfl, hown, Option.or_assoc, ← firstTime_append, List.singleton_append]

/-- Sequences answer by the history of their own arguments, if all occasions of this name so far were
    occasions of the same formula. -/
theorem Follow.answersBy (h : Follow registry first (before ++ o :: later) last)
    (hfirst : ∀ path, first.find? (Ledger.latchKey o.name path) = none) :
    o.AnswersBy registry ((before ++ [o]).filter fun o' => sameName o'.name o.name) := by
  rw [List.append_cons] at h
  obtain ⟨between, hbefore, -⟩ := follow_append.1 h
  obtain ⟨_, -, -, rfl⟩ := follow_append.1 hbefore
  intro path n answer hleave hn hsequence
  obtain ⟨values, hlength, hreturns, hanswer⟩ :=
    (account_evaluate registry o.name o.root o.env).2 path n answer hleave hn hsequence
  refine ⟨values, hlength, hreturns, hanswer.trans ?_⟩
  have hlatched (i : Nat) : (o.after registry).ledger.latchedAt? o.name (path.child i) =
      firstTime registry (path.child i) ((before ++ [o]).filter fun o' => sameName o'.name o.name) := by
    have hfind := hbefore.find?_eq o.name (path.child i)
    rwa [hfirst, Option.none_or] at hfind
  simp only [← hlatched]
  rfl

/-- So a sequence is true only if each of its arguments has been true on one of these occasions. -/
theorem AnswersBy.confirmed {n : Node} {answer : Value} (h : o.AnswersBy registry os)
    (hleave : .leave path (.ok answer) ∈ o.trace registry) (hn : o.root.at? path = some n)
    (hsequence : n.isSequence registry = true) (htrue : answer.isTrue = true) {i : Nat}
    (hi : i ∈ List.range' 1 n.args.length) :
    ∃ o' ∈ os, o'.confirms registry (path.child i) = true := by
  obtain ⟨values, hlength, -, rfl⟩ := h path n answer hleave hn hsequence
  rw [← hlength, ← List.zipIdx_map_snd] at hi
  obtain ⟨⟨v, i⟩, hmem, rfl⟩ := List.mem_map.1 hi
  rw [Value.isTrue, Value.truth_toValue] at htrue
  have htime := Control.isSome_of_isTrue_sequenceTruth htrue _ (List.mem_map_of_mem hmem)
  obtain ⟨o', ho', hsome⟩ := List.findSome?_isSome_iff.1 htime
  refine ⟨o', ho', ?_⟩
  split at hsome
  · assumption
  · cases hsome

/-- What is remembered of an argument is when it was first true, if formulas do not change the time. -/
theorem Follow.firstTime_eq (hclock : Host.KeepsTime H) (h : Follow registry first os last)
    (hfirst : first.find? (Ledger.latchKey name path) = none) :
    firstTime registry path (os.filter fun o => sameName o.name name) =
      ((os.filter fun o => sameName o.name name).find? (·.confirms registry path)).map fun o =>
        Host.time o.env.host := by
  induction os generalizing first with
  | nil => rfl
  | cons o rest ih =>
    obtain ⟨rfl, hrest⟩ := h
    rw [List.filter_cons]
    cases hname : sameName o.name name with
    | false =>
      refine ih hrest ?_
      exact (latchedAt?_evaluate_of_ne hname registry o.root o.env path).trans hfirst
    | true =>
      have hkey : Ledger.latchKey name path = Ledger.latchKey o.name path :=
        Ledger.latchKey_eq_iff.2 ⟨(sameName_comm _ _).trans hname, rfl⟩
      rw [hkey] at hfirst ih
      rw [if_pos rfl, List.find?_cons, ← List.singleton_append, firstTime_append]
      cases hconfirms : o.confirms registry path with
      | true =>
        have htime : firstTime registry path [o] = some (Host.time o.env.host) := by
          obtain ⟨time, htime⟩ := Option.isSome_iff_exists.1 (o.isSome_of_confirms hconfirms)
          rcases time_of_latched hclock htime with hbefore | rfl
          · rw [hfirst] at hbefore
            cases hbefore
          · rw [firstTime, List.findSome?_singleton, if_pos hconfirms]
            exact htime
        rw [htime]
        rfl
      | false =>
        have hnone : firstTime registry path [o] = none := by
          rw [firstTime, List.findSome?_singleton, if_neg (by simp [hconfirms])]
        rw [hnone, Option.none_or]
        refine ih hrest ?_
        have hafter := o.latchedAt?_after registry path
        rwa [hnone, Option.or_none, Ledger.latchedAt?, Ledger.latchedAt?, hfirst] at hafter

end Occasion

end MissionScript

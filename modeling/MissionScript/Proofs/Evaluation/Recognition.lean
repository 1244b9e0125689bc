import MissionScript.Proofs.Evaluation.Sequence
import MissionScript.Proofs.Evaluation.Settled
import Mathlib.Data.List.Chain

/-!
What a sequence makes of a history of evaluations. It is true once all its arguments have been true,
for the first time one not before the other, whatever they say later. If it says before that it is
settled false, that can be premature in one way only.
-/

namespace MissionScript

/-- A relation holds along a row if it holds from each item to those after it. -/
theorem pairwise_of_append {α : Type} {R : α → α → Prop} {l : List α}
    (h : ∀ before a later, l = before ++ a :: later → ∀ b ∈ later, R a b) : l.Pairwise R := by
  induction l with
  | nil => exact .nil
  | cons a rest ih =>
    refine .cons (h [] a rest rfl) (ih fun before a' later heq => ?_)
    exact h (a :: before) a' later (by rw [heq, List.cons_append])

namespace Sequence

variable {registry : Registry} {H : Type} [Host H]

/-- A history of evaluations of a sequence: nothing is remembered of its arguments at first, and
    between two evaluations nothing else changes what is. -/
structure History (s : Sequence registry) (envs : List (Env H)) : Prop where
  fresh : ∀ env ∈ envs.head?, ∀ i ∈ s.places, s.remembered? i env = none
  undisturbed : envs.IsChain fun env env' =>
    ∀ i ∈ s.places, s.remembered? i env' = s.remembered? i (s.after env)

/-- The time of the first evaluation in which an argument was true. -/
def firstTime (s : Sequence registry) (i : Nat) (envs : List (Env H)) : Option Float :=
  (envs.find? (s.confirms i)).map fun env => Host.time env.host

/-- Whether all arguments have been true, for the first time one not before the other. -/
def InOrder (s : Sequence registry) (envs : List (Env H)) : Prop :=
  ∃ times : List Float, s.places.map (s.firstTime · envs) = times.map some ∧ times.IsChain (· ≤ ·)

/-- Whether all arguments have been true, for the first time one before another one that it should not
    have been before. -/
def OutOfOrder (s : Sequence registry) (envs : List (Env H)) : Prop :=
  ∃ times : List Float, s.places.map (s.firstTime · envs) = times.map some ∧ ¬ times.IsChain (· ≤ ·)

/-- Whether what the arguments say respects what they have settled. -/
def Settles (s : Sequence registry) (envs : List (Env H)) : Prop :=
  ∀ i ∈ s.places, envs.Pairwise fun env env' => (s.reading i env).Respects (s.reading i env')

instance (s : Sequence registry) (envs : List (Env H)) : Decidable (s.Settles envs) :=
  inferInstanceAs (Decidable (∀ i ∈ s.places, envs.Pairwise fun env env' =>
    (s.reading i env).Respects (s.reading i env')))

/-- Whether at an evaluation after others, while some argument is still waited for, those arguments that
    are settled false, and there are some, have all been true before. -/
structure Relapses (s : Sequence registry) (before : List (Env H)) (env : Env H) : Prop where
  waits : ∃ i ∈ s.places, s.firstTime i (before ++ [env]) = none
  settled : ∃ i ∈ s.places, s.reading i env = .knownFalse
  relapsed : ∀ i ∈ s.places, s.reading i env = .knownFalse → s.firstTime i before ≠ none

section

variable {s : Sequence registry} {i : Nat} {env env' : Env H} {envs envs' before later : List (Env H)}

theorem firstTime_append : s.firstTime i (envs ++ envs') =
    (s.firstTime i envs).or (s.firstTime i envs') := by
  rw [firstTime, List.find?_append, Option.map_or]
  rfl

theorem firstTime_cons : s.firstTime i (env :: envs) =
    (if s.confirms i env then some (Host.time env.host) else none).or (s.firstTime i envs) := by
  unfold firstTime
  rw [List.find?_cons]
  cases s.confirms i env <;> rfl

theorem exists_firstTime {times : List Float}
    (h : s.places.map (s.firstTime · envs) = times.map some) (hi : i ∈ s.places) :
    ∃ time, s.firstTime i envs = some time := by
  have hsome : s.firstTime i envs ∈ times.map some := h ▸ List.mem_map_of_mem hi
  obtain ⟨time, -, htime⟩ := List.mem_map.1 hsome
  exact ⟨time, htime.symm⟩

/-- Once all arguments have been true, the times at which they were first true do not change. -/
theorem map_firstTime_append {times : List Float}
    (h : s.places.map (s.firstTime · envs) = times.map some) (envs' : List (Env H)) :
    s.places.map (s.firstTime · (envs ++ envs')) = times.map some := by
  rw [← h]
  refine List.map_congr_left fun i hi => ?_
  obtain ⟨time, htime⟩ := exists_firstTime h hi
  rw [firstTime_append, htime, Option.some_or]

theorem InOrder.append (h : s.InOrder envs) (envs' : List (Env H)) : s.InOrder (envs ++ envs') := by
  obtain ⟨times, htimes, hchain⟩ := h
  exact ⟨times, map_firstTime_append htimes envs', hchain⟩

theorem OutOfOrder.append (h : s.OutOfOrder envs) (envs' : List (Env H)) :
    s.OutOfOrder (envs ++ envs') := by
  obtain ⟨times, htimes, hchain⟩ := h
  exact ⟨times, map_firstTime_append htimes envs', hchain⟩

theorem InOrder.firstTime_ne_none (h : s.InOrder envs) (hi : i ∈ s.places) :
    s.firstTime i envs ≠ none := by
  obtain ⟨times, htimes, -⟩ := h
  obtain ⟨time, htime⟩ := exists_firstTime htimes hi
  rw [htime]
  exact Option.some_ne_none time

/-- What is remembered of an argument at the end of a row of undisturbed evaluations. -/
theorem remembered?_of_isChain (hi : i ∈ s.places) {remembered : Option Float}
    (hfirst : ∀ first ∈ (before ++ [env]).head?, s.remembered? i first = remembered)
    (hchain : (before ++ [env]).IsChain fun env env' =>
      ∀ i ∈ s.places, s.remembered? i env' = s.remembered? i (s.after env)) :
    s.remembered? i (s.after env) = remembered.or (s.firstTime i (before ++ [env])) := by
  induction before generalizing remembered with
  | nil =>
    rw [remembered?_after hi, hfirst env rfl, List.nil_append, firstTime_cons]
    exact congrArg _ (Option.or_none ..).symm
  | cons first rest ih =>
    rw [List.cons_append, List.isChain_cons] at hchain
    obtain ⟨hnext, hrest⟩ := hchain
    rw [ih (fun next hmem => hnext next hmem i hi) hrest, remembered?_after hi,
      hfirst first rfl, List.cons_append, firstTime_cons, Option.or_assoc]

/-- A node that lies too deep never evaluates its arguments, so none of them is ever true. -/
theorem firstTime_deep (hpath : maxEvalDepth ≤ s.path.length) : s.firstTime i envs = none := by
  have hquiet : envs.find? (s.confirms i) = none := by
    rw [List.find?_eq_none]
    intro env _
    rw [confirms, reading, (s.run_deep env hpath).2.1]
    decide
  rw [firstTime, hquiet, Option.map_none]

/-- If the arguments of a node have been true, it does not lie too deep. -/
theorem path_lt_of_firstTime {times : List Float}
    (h : s.places.map (s.firstTime · envs) = times.map some) : s.path.length < maxEvalDepth := by
  by_contra hpath
  have hpos := List.length_pos_iff.2 s.nonempty
  have hplace : 1 ∈ s.places := List.mem_range'_1.2 ⟨Nat.le_refl 1, by omega⟩
  obtain ⟨time, htime⟩ := exists_firstTime h hplace
  rw [firstTime_deep (by omega)] at htime
  cases htime

/-- Nor does a node that says something. -/
theorem path_lt_of_truth (h : s.truth env ≠ .unknown) : s.path.length < maxEvalDepth := by
  by_contra hpath
  exact h (s.run_deep env (by omega)).1

theorem map_snd_readings : (s.places.map fun i => (s.reading i env, s.firstTime i envs)).map (·.2) =
    s.places.map (s.firstTime · envs) :=
  List.map_map

namespace History

/-- What is remembered of an argument is when it was first true. -/
theorem remembered?_eq (h : s.History (before ++ env :: later)) (hi : i ∈ s.places) :
    s.remembered? i (s.after env) = s.firstTime i (before ++ [env]) := by
  rw [List.append_cons] at h
  refine (remembered?_of_isChain hi (fun first hmem => ?_) h.undisturbed.left_of_append).trans
    (Option.none_or ..)
  exact h.fresh first (List.mem_head?_append_of_mem_head? hmem) i hi

/-- A sequence answers by what its arguments say and when each of them was first true. -/
theorem truth_eq (h : s.History (before ++ env :: later)) (hpath : s.path.length < maxEvalDepth) :
    s.truth env = Control.sequenceTruth
      (s.places.map fun i => (s.reading i env, s.firstTime i (before ++ [env]))) := by
  rw [Sequence.truth_eq hpath]
  refine congrArg Control.sequenceTruth (List.map_congr_left fun i hi => ?_)
  rw [h.remembered?_eq hi]

/-- A sequence is true exactly if its arguments have been true in order. -/
theorem isTrue_iff (h : s.History (before ++ env :: later)) :
    (s.truth env).isTrue = true ↔ s.InOrder (before ++ [env]) := by
  constructor
  · intro htrue
    have hpath : s.path.length < maxEvalDepth := path_lt_of_truth fun hunknown => by
      rw [hunknown] at htrue
      cases htrue
    rw [h.truth_eq hpath] at htrue
    rcases Control.remembered_cases (s.places.map fun i =>
      (s.reading i env, s.firstTime i (before ++ [env]))) with ⟨times, htimes, -⟩ | ⟨hmissing, -⟩
    · refine ⟨times, map_snd_readings.symm.trans htimes, ?_⟩
      by_contra hchain
      rw [(Control.isTrue_sequenceTruth_of_remembered htimes).2 hchain] at htrue
      cases htrue
    · rw [Control.sequenceTruth_of_missing hmissing] at htrue
      split at htrue <;> cases htrue
  · rintro ⟨times, htimes, hchain⟩
    rw [h.truth_eq (path_lt_of_firstTime htimes)]
    exact (Control.isTrue_sequenceTruth_of_remembered (map_snd_readings.trans htimes)).1 hchain

/-- A sequence whose arguments have been true out of order is settled false. -/
theorem truth_of_outOfOrder (h : s.History (before ++ env :: later))
    (hout : s.OutOfOrder (before ++ [env])) : s.truth env = .knownFalse := by
  obtain ⟨times, htimes, hchain⟩ := hout
  rw [h.truth_eq (path_lt_of_firstTime htimes)]
  exact (Control.isTrue_sequenceTruth_of_remembered (map_snd_readings.trans htimes)).2 hchain

end History

end

/-- The evaluations of a sequence in one game after another, where nothing but the evaluations changes
    anything else. -/
def course (s : Sequence registry) (env : Env H) : List H → List (Env H)
  | [] => []
  | host :: rest => { env with host } :: course s (s.after { env with host }) rest

theorem history_course (s : Sequence registry) {env : Env H}
    (hfresh : ∀ i ∈ s.places, s.remembered? i env = none) (hosts : List H) :
    s.History (s.course env hosts) := by
  constructor
  · cases hosts with
    | nil => exact nofun
    | cons host rest =>
      rintro _ ⟨⟩
      exact hfresh
  · clear hfresh
    induction hosts generalizing env with
    | nil => exact .nil
    | cons host rest ih =>
      refine List.isChain_cons.2 ⟨fun next hnext i _ => ?_, ih⟩
      cases rest with
      | nil => cases hnext
      | cons host' rest =>
        cases hnext
        rfl

/-- A sequence recognises histories in which its arguments were true in order. In a history of its
    evaluations, it is true exactly from the evaluation on by which all arguments have been true, for the
    first time one not before the other; and if they have been true otherwise, it is settled false from
    then on. All arguments are evaluated each time, unless the node lies too deep to be evaluated. -/
theorem recognises_order (s : Sequence registry) {envs : List (Env H)} (h : s.History envs) :
    (s.path.length < maxEvalDepth → ∀ env ∈ envs, ∀ i ∈ s.places, (s.said? i env).isSome = true) ∧
    ∀ before env later, envs = before ++ env :: later →
      ((s.truth env).isTrue = true ↔ s.InOrder (before ++ [env])) ∧
      ((s.truth env).isTrue = true → ∀ env' ∈ later, (s.truth env').isTrue = true) ∧
      (s.OutOfOrder (before ++ [env]) →
        s.truth env = .knownFalse ∧ ∀ env' ∈ later, s.truth env' = .knownFalse) := by
  refine ⟨fun hpath env _ i hi => isSome_said? hpath hi, ?_⟩
  rintro before env later rfl
  -- a later evaluation comes at the end of a longer history
  have hlater {env' : Env H} (henv' : env' ∈ later) : ∃ between rest,
      s.History ((before ++ [env] ++ between) ++ env' :: rest) ∧
        before ++ [env] ++ between ++ [env'] = before ++ [env] ++ (between ++ [env']) := by
    obtain ⟨between, rest, rfl⟩ := List.append_of_mem henv'
    exact ⟨between, rest, by simpa using h, List.append_assoc ..⟩
  refine ⟨h.isTrue_iff, fun htrue env' henv' => ?_, fun hout => ⟨h.truth_of_outOfOrder hout, ?_⟩⟩
  · obtain ⟨between, rest, hhistory, hlonger⟩ := hlater henv'
    rw [hhistory.isTrue_iff, hlonger]
    exact (h.isTrue_iff.1 htrue).append _
  · intro env' henv'
    obtain ⟨between, rest, hhistory, hlonger⟩ := hlater henv'
    refine hhistory.truth_of_outOfOrder ?_
    rw [hlonger]
    exact hout.append _

end Sequence

namespace Vigil

/-- The scout is still there, and later on it is time. -/
def conditions : List Node :=
  [.list [.atom (.operator "not") 0,
      .list [.atom (.operator "is-destroyed") 0, .atom (.text "Scout") 0] 0] 0,
    .list [.atom (.operator "has-time-elapsed") 0, .atom (.number 10) 0] 0]

/-- A formula that is a sequence of these. -/
def sequence : Sequence Registry.builtin where
  formula := "Vigil"
  root := .list (.atom (.operator (Builtin.control .andInSequence).definition.name) 0 :: conditions) 0
  path := []
  name := (Builtin.control .andInSequence).definition.name
  headOffset := 0
  offset := 0
  args := conditions
  applies := Registry.get?_builtin _
  placed := rfl
  nonempty := nofun

/-- The scout is destroyed after five seconds. -/
def game : Simulation :=
  .start ⟨[⟨"Scout", some 0, some 5, none, 100⟩], []⟩ (.rolls [])

/-- Evaluations at some times. -/
def evaluations (times : List Float) : List (Env Simulation) :=
  sequence.course (.start game .empty .empty #[]) (times.map game.setTime)

theorem history (times : List Float) : sequence.History (evaluations times) :=
  sequence.history_course (fun _ _ => rfl) _

end Vigil

open Vigil in
/-- The scout was there before it was time. So the sequence is true from then on, although the scout is
    not there any more. -/
theorem Sequence.recognises_order_vigil : ∃ before env later,
    evaluations [0, 5, 10, 15] = before ++ env :: later ∧
    sequence.History (evaluations [0, 5, 10, 15]) ∧
    (evaluations [0, 5, 10, 15]).map sequence.truth = [.falseNow, .knownFalse, .trueNow, .trueNow] ∧
    (∀ env ∈ evaluations [0, 5, 10, 15], ∀ i ∈ sequence.places, (sequence.said? i env).isSome = true) ∧
    sequence.InOrder (before ++ [env]) ∧ ∀ env' ∈ later, (sequence.truth env').isTrue = true := by
  have hreadings : (evaluations [0, 5, 10, 15]).map sequence.truth =
      [.falseNow, .knownFalse, .trueNow, .trueNow] := by decide +kernel
  obtain ⟨before, rest, hsplit, -, hrest⟩ := List.map_eq_append_iff.1
    (show _ = [Truth.falseNow, .knownFalse] ++ [.trueNow, .trueNow] from hreadings)
  obtain ⟨env, later, rfl, htrue, -⟩ := List.map_eq_cons_iff.1 hrest
  have hhistory := history [0, 5, 10, 15]
  obtain ⟨hsaid, hrun⟩ := recognises_order sequence hhistory
  obtain ⟨horder, hkept, -⟩ := hrun before env later hsplit
  have hnow : (sequence.truth env).isTrue = true := by rw [htrue]; rfl
  exact ⟨before, env, later, hsplit, hhistory, hreadings, hsaid (by decide), horder.1 hnow,
    hkept hnow⟩

namespace Sequence

variable {registry : Registry} {H : Type} [Host H]

section

variable {s : Sequence registry} {i : Nat} {env env' : Env H} {envs before later : List (Env H)}

theorem path_lt_of_reading (h : s.reading i env = .knownFalse) : s.path.length < maxEvalDepth := by
  by_contra hpath
  rw [reading, (s.run_deep env (by omega)).2.1] at h
  cases h

/-- While an argument is waited for, a sequence is settled false exactly if an argument is. -/
theorem History.truth_of_waits (h : s.History (before ++ env :: later))
    (hwaits : ∃ i ∈ s.places, s.firstTime i (before ++ [env]) = none) :
    s.truth env = .knownFalse ↔ ∃ i ∈ s.places, s.reading i env = .knownFalse := by
  have hanswer (hpath : s.path.length < maxEvalDepth) : s.truth env =
      if ∃ i ∈ s.places, s.reading i env = .knownFalse then .knownFalse else .falseNow := by
    have hmissing : none ∈ (s.places.map fun i =>
        (s.reading i env, s.firstTime i (before ++ [env]))).map (·.2) := by
      rw [map_snd_readings]
      obtain ⟨i, hi, hnone⟩ := hwaits
      exact hnone ▸ List.mem_map_of_mem hi
    rw [h.truth_eq hpath, Control.sequenceTruth_of_missing hmissing]
    simp
  constructor
  · intro hfalse
    have hpath : s.path.length < maxEvalDepth := path_lt_of_truth (by rw [hfalse]; decide)
    rw [hanswer hpath] at hfalse
    split at hfalse
    · assumption
    · cases hfalse
  · rintro ⟨i, hi, hreading⟩
    rw [hanswer (path_lt_of_reading hreading), if_pos ⟨i, hi, hreading⟩]

/-- An argument that is settled false before it was ever true is never true. -/
theorem Settles.firstTime_eq_none (hs : s.Settles (before ++ env :: later)) (hi : i ∈ s.places)
    (hreading : s.reading i env = .knownFalse) (hbefore : s.firstTime i before = none) :
    s.firstTime i (before ++ env :: later) = none := by
  have hnow : s.confirms i env = false := by
    rw [confirms, hreading]
    rfl
  have hlater : s.firstTime i later = none := by
    have hpairwise := (List.pairwise_append.1 (hs i hi)).2.1
    have hquiet : later.find? (s.confirms i) = none := List.find?_eq_none.2 fun env' henv' =>
      Bool.eq_false_iff.1 (((List.pairwise_cons.1 hpairwise).1 env' henv').2 hreading)
    rw [firstTime, hquiet, Option.map_none]
  rw [firstTime_append, firstTime_cons, hbefore, hnow, hlater]
  rfl

end

/-- When a sequence is settled false prematurely. If its arguments respect what they have settled, then
    it is never true after it was settled false, unless it relapses on the way to being true: an
    argument that was true is settled false while another one is still waited for. -/
theorem settled_false_iff (s : Sequence registry) {envs : List (Env H)} (h : s.History envs)
    (hs : s.Settles envs) :
    ((envs.map s.truth).Pairwise fun t t' => t = .knownFalse → t'.isTrue = false) ↔
      (s.InOrder envs → ∀ before env later, envs = before ++ env :: later →
        ¬ s.Relapses before env) := by
  rw [List.pairwise_map]
  constructor
  · rintro hpairwise horder before env later rfl ⟨hwaits, hsettled, -⟩
    -- it is true at the end, when nothing is waited for
    rcases List.eq_nil_or_concat later with rfl | ⟨between, last, rfl⟩
    · obtain ⟨i, hi, hnone⟩ := hwaits
      exact horder.firstTime_ne_none hi hnone
    · have hfalse := (h.truth_of_waits hwaits).2 hsettled
      have hlast : s.History ((before ++ env :: between) ++ [last]) := by simpa using h
      have htrue := hlast.isTrue_iff.2 (by simpa using horder)
      have hlater := List.pairwise_cons.1 (List.pairwise_append.1 hpairwise).2.1
      rw [hlater.1 last (by simp) hfalse] at htrue
      cases htrue
  · intro hno
    refine pairwise_of_append fun before env later heq env' henv' hfalse => ?_
    subst heq
    obtain ⟨between, rest, rfl⟩ := List.append_of_mem henv'
    rw [← Bool.not_eq_true]
    intro htrue
    have hhistory : s.History ((before ++ [env] ++ between) ++ env' :: rest) := by simpa using h
    have horder : s.InOrder (before ++ env :: (between ++ env' :: rest)) := by
      simpa using (hhistory.isTrue_iff.1 htrue).append rest
    rcases Control.remembered_cases (s.places.map fun i =>
      (s.reading i env, s.firstTime i (before ++ [env]))) with ⟨times, htimes, -⟩ | ⟨hmissing, -⟩
    · -- all have been true; in order the sequence would be true now, and out of order never again
      by_cases hchain : times.IsChain (· ≤ ·)
      · have hnow := h.isTrue_iff.2 ⟨times, map_snd_readings.symm.trans htimes, hchain⟩
        rw [hfalse] at hnow
        cases hnow
      · have hout : s.OutOfOrder (before ++ [env]) :=
          ⟨times, map_snd_readings.symm.trans htimes, hchain⟩
        have hlater := hhistory.truth_of_outOfOrder (by simpa using hout.append (between ++ [env']))
        rw [hlater] at htrue
        cases htrue
    · rw [map_snd_readings] at hmissing
      obtain ⟨i, hi, hnone⟩ := List.mem_map.1 hmissing
      have hsettled := (h.truth_of_waits ⟨i, hi, hnone⟩).1 hfalse
      refine hno horder before env _ rfl ⟨⟨i, hi, hnone⟩, hsettled, fun j hj hreading hbefore => ?_⟩
      exact horder.firstTime_ne_none hj (hs.firstTime_eq_none hj hreading hbefore)

end Sequence

open Vigil in
/-- If the scout is never there, the sequence is settled false at once, and that is right. -/
theorem Sequence.settled_false_iff_vigil : sequence.History (evaluations [5, 10]) ∧
    sequence.Settles (evaluations [5, 10]) ∧
    (evaluations [5, 10]).map sequence.truth = [.knownFalse, .knownFalse] ∧
    ((evaluations [5, 10]).map sequence.truth).Pairwise fun t t' =>
      t = .knownFalse → t'.isTrue = false := by
  obtain ⟨hsettles, htruths, hnever⟩ : sequence.Settles (evaluations [5, 10]) ∧
      (evaluations [5, 10]).map sequence.truth = [.knownFalse, .knownFalse] ∧
      sequence.firstTime 1 (evaluations [5, 10]) = none := by decide +kernel
  refine ⟨history _, hsettles, htruths, ?_⟩
  refine (settled_false_iff sequence (history _) hsettles).2 fun horder => ?_
  exact absurd hnever (horder.firstTime_ne_none (by decide))

open Vigil in
/-- If it is there at first, the sequence is settled false when it is destroyed, and true later. -/
theorem Sequence.settled_false_prematurely : sequence.History (evaluations [0, 5, 10]) ∧
    sequence.Settles (evaluations [0, 5, 10]) ∧
    (evaluations [0, 5, 10]).map sequence.truth = [.falseNow, .knownFalse, .trueNow] ∧
    ¬ ((evaluations [0, 5, 10]).map sequence.truth).Pairwise fun t t' =>
      t = .knownFalse → t'.isTrue = false := by
  obtain ⟨hsettles, htruths⟩ : sequence.Settles (evaluations [0, 5, 10]) ∧
      (evaluations [0, 5, 10]).map sequence.truth = [.falseNow, .knownFalse, .trueNow] := by
    decide +kernel
  refine ⟨history _, hsettles, htruths, ?_⟩
  rw [htruths]
  decide

end MissionScript

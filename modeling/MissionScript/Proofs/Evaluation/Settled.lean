import MissionScript.Proofs.Evaluation.Yields
import MissionScript.Proofs.Game.Simulation
import MissionScript.Proofs.Ledger

/-!
Settled truths. What a query says of ships, events and goals for good, it says again once the game
and the ledger have gone on; and so do conjunctions and disjunctions of such answers, although what
is not settled yet may change in any way.
-/

namespace MissionScript

namespace Truth

/-- Whether a later reading of a condition does not contradict what an earlier one has settled. -/
def Upholds (earlier later : Truth) : Prop :=
  (earlier = .knownTrue → later = .trueNow ∨ later = .knownTrue) ∧
    (earlier = .knownFalse → later = .falseNow ∨ later = .knownFalse)

/-- Whether a later reading of a condition is true if an earlier one has settled that it is, and is not if
    it has settled that it is not. -/
def Respects (earlier later : Truth) : Prop :=
  (earlier = .knownTrue → later.isTrue = true) ∧ (earlier = .knownFalse → later.isTrue = false)

instance (earlier later : Truth) : Decidable (earlier.Respects later) :=
  inferInstanceAs (Decidable (_ ∧ _))

theorem Upholds.respects {earlier later : Truth} (h : earlier.Upholds later) :
    earlier.Respects later := by
  constructor
  · intro htrue
    rcases h.1 htrue with rfl | rfl <;> rfl
  · intro hfalse
    rcases h.2 hfalse with rfl | rfl <;> rfl

/-- Two readings that both say something, of which the later one does not contradict the earlier. -/
def Keeps (earlier later : Truth) : Prop :=
  earlier ≠ .unknown ∧ later ≠ .unknown ∧ earlier.Upholds later

theorem keeps_of_settled {t t' : Truth} (ht : t ≠ .unknown) (ht' : t' ≠ .unknown)
    (h : t.isSettled = true → t' = t) : t.Keeps t' := by
  refine ⟨ht, ht', fun htrue => Or.inr ?_, fun hfalse => Or.inr ?_⟩
  · rw [h (by rw [htrue]; rfl), htrue]
  · rw [h (by rw [hfalse]; rfl), hfalse]

theorem Keeps.negate {t t' : Truth} (h : t.Keeps t') : t.negate.Keeps t'.negate := by
  obtain ⟨ht, ht', htrue, hfalse⟩ := h
  cases t <;> cases t' <;> simp_all [Keeps, Upholds, Truth.negate]

/-- An answer that may still change settles nothing. -/
theorem keeps_ofBool (b b' : Bool) : (ofBool b).Keeps (ofBool b') := by
  cases b <;> cases b' <;> simp [Keeps, Upholds, ofBool]

/-- A conjunction of which a part may still change does not settle that it holds. -/
theorem all_false_ne_knownTrue (truths : List Truth) : Truth.all false truths ≠ .knownTrue := by
  induction truths with
  | nil => simp [Truth.all]
  | cons t rest ih => cases t <;> simp [Truth.all, ih]

/-- The first part that was false for good is still false, unless an earlier part has become so. -/
theorem keeps_all {truths truths' : List Truth} (h : List.Forall₂ Keeps truths truths')
    (settled settled' : Bool) : (Truth.all settled truths).Keeps (Truth.all settled' truths') := by
  induction h generalizing settled settled' with
  | nil => cases settled <;> cases settled' <;> simp [Keeps, Upholds, Truth.all]
  | @cons t t' rest rest' ht hrest ih =>
    obtain ⟨hknown, hknown', htrue, hfalse⟩ := ht
    have hrest₁ : ∀ s, Truth.all s rest ≠ .unknown := fun s => (ih s true).1
    have hne := all_false_ne_knownTrue rest
    cases t with
    | unknown => exact absurd rfl hknown
    | knownTrue =>
      rcases htrue rfl with rfl | rfl
      · exact ih settled false
      · exact ih settled settled'
    | trueNow =>
      cases t' with
      | unknown => exact absurd rfl hknown'
      | knownTrue => exact ih false settled'
      | trueNow => exact ih false false
      | falseNow => exact ⟨hrest₁ false, by simp [Truth.all], fun h => absurd h hne, fun _ => Or.inl rfl⟩
      | knownFalse => exact ⟨hrest₁ false, by simp [Truth.all], fun h => absurd h hne, fun _ => Or.inr rfl⟩
    | falseNow =>
      have hlater : Truth.all settled' (t' :: rest') ≠ .unknown := by
        cases t' with
        | unknown => exact absurd rfl hknown'
        | knownTrue => exact (ih true settled').2.1
        | trueNow => exact (ih true false).2.1
        | falseNow | knownFalse => simp [Truth.all]
      exact ⟨by simp [Truth.all], hlater, by simp [Truth.all], by simp [Truth.all]⟩
    | knownFalse =>
      rcases hfalse rfl with rfl | rfl
      · exact ⟨by simp [Truth.all], by simp [Truth.all], by simp [Truth.all], fun _ => Or.inl rfl⟩
      · exact ⟨by simp [Truth.all], by simp [Truth.all], by simp [Truth.all], fun _ => Or.inr rfl⟩

/-- A disjunction of conditions that say something is a conjunction of their opposites. -/
theorem any_eq_negate_all {truths : List Truth} (h : ∀ t ∈ truths, t ≠ .unknown) (settled : Bool) :
    Truth.any (if settled then .knownFalse else .falseNow) truths =
      (Truth.all settled (truths.map negate)).negate := by
  induction truths generalizing settled with
  | nil => cases settled <;> rfl
  | cons t rest ih =>
    obtain ⟨ht, hrest⟩ := List.forall_mem_cons.1 h
    cases t with
    | unknown => exact absurd rfl ht
    | knownTrue | trueNow => rfl
    | knownFalse => exact ih hrest settled
    | falseNow =>
      have hfalse := ih hrest false
      cases settled <;> exact hfalse

theorem Keeps.known {truths truths' : List Truth} (h : List.Forall₂ Keeps truths truths') :
    (∀ t ∈ truths, t ≠ .unknown) ∧ ∀ t ∈ truths', t ≠ .unknown := by
  induction h with
  | nil => simp
  | cons ht _ ih =>
    exact ⟨List.forall_mem_cons.2 ⟨ht.1, ih.1⟩, List.forall_mem_cons.2 ⟨ht.2.1, ih.2⟩⟩

theorem keeps_any {truths truths' : List Truth} (h : List.Forall₂ Keeps truths truths') :
    (Truth.any .knownFalse truths).Keeps (Truth.any .knownFalse truths') := by
  have hknown := Keeps.known h
  have hany := any_eq_negate_all hknown.1 true
  have hany' := any_eq_negate_all hknown.2 true
  rw [if_pos rfl] at hany hany'
  rw [hany, hany']
  refine (keeps_all ?_ true true).negate
  rw [List.forall₂_map_left_iff, List.forall₂_map_right_iff]
  exact h.imp fun _ _ ht => ht.negate

end Truth

/-! What queries say of a ship, an event and a goal. -/

theorem keeps_destroyedTruth {s s' : ShipStatus} (h : s.Leads s') :
    (destroyedTruth (some s)).Keeps (destroyedTruth (some s')) := by
  cases s <;> cases s' <;> simp_all [ShipStatus.Leads, destroyedTruth, Truth.Keeps, Truth.Upholds]

theorem keeps_departedTruth {s s' : ShipStatus} (h : s.Leads s') :
    (departedTruth (some s)).Keeps (departedTruth (some s')) := by
  cases s <;> cases s' <;> simp_all [ShipStatus.Leads, departedTruth, Truth.Keeps, Truth.Upholds]

theorem keeps_arrivedTruth {s s' : ShipStatus} (h : s.Leads s') :
    (arrivedTruth (some s)).Keeps (arrivedTruth (some s')) := by
  cases s <;> cases s' <;>
    simp_all [ShipStatus.Leads, arrivedTruth, ShipStatus.hasArrived, Truth.Keeps, Truth.Upholds]

namespace EventRecord

variable {r r' : EventRecord}

theorem Leads.keeps_hasFired (h : r.Leads r') : r.hasFired.Keeps r'.hasFired := by
  have hknown (r : EventRecord) : r.hasFired ≠ .unknown := by
    unfold hasFired
    split
    · simp
    · split <;> simp
  refine Truth.keeps_of_settled (hknown r) (hknown r') fun hsettled => ?_
  unfold hasFired at hsettled ⊢
  by_cases hfired : 0 < r.triggers
  · rw [if_pos hfired, if_pos (h.triggers hfired)]
  · cases hnever : r.neverFires with
    | false => simp [hfired, hnever, Truth.isSettled] at hsettled
    | true =>
      obtain ⟨hnever', htriggers, -⟩ := h.never hnever
      simp [hfired, htriggers, hnever']

/-- The first time that an event fired is recorded for good, so once it is long ago it stays so. -/
theorem Leads.keeps_hasFiredSince (h : r.Leads r') {now later : Float} (htime : NotBefore now later)
    (delay : Float) : (r.hasFiredSince now delay).Keeps (r'.hasFiredSince later delay) := by
  have hknown (r : EventRecord) (now : Float) : r.hasFiredSince now delay ≠ .unknown := by
    unfold hasFiredSince
    split
    · split <;> simp
    · split <;> simp
  refine Truth.keeps_of_settled (hknown r now) (hknown r' later) fun hsettled => ?_
  unfold hasFiredSince at hsettled ⊢
  cases hfirst : r.first with
  | some first =>
    rw [h.first first hfirst]
    by_cases hnow : first + delay ≤ now
    · simp [hnow, htime _ hnow]
    · simp [hfirst, hnow, Truth.isSettled] at hsettled
  | none =>
    cases hnever : r.neverFires with
    | false => simp [hfirst, hnever, Truth.isSettled] at hsettled
    | true =>
      obtain ⟨hnever', -, hfirst'⟩ := h.never hnever
      simp [hfirst'.trans hfirst, hnever']

end EventRecord

theorem GoalRecord.Leads.keeps_hasBecome {r r' : GoalRecord} (h : r.Leads r')
    {target : GoalStatus} (htarget : target.isTerminal = true) :
    (r.status.hasBecome target).Keeps (r'.status.hasBecome target) := by
  have hknown (s : GoalStatus) : s.hasBecome target ≠ .unknown := by
    unfold GoalStatus.hasBecome
    split <;> (try split) <;> simp
  refine Truth.keeps_of_settled (hknown _) (hknown _) fun hsettled => ?_
  cases hterminal : r.status.isTerminal with
  | true => rw [h hterminal]
  | false =>
    have hne : r.status ≠ target := by
      rintro rfl
      rw [hterminal] at htarget
      cases htarget
    simp [GoalStatus.hasBecome, hne, hterminal, Truth.isSettled] at hsettled

end MissionScript

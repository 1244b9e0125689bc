import MissionScript.Proofs.Number.Packing

/-!
Rounding leaves exact results alone. A number that fits into a word of 64 bits is what rounding gives
for each of its other representations; so a product, a quotient or a numeral that denotes such a
number is computed as this very number.
-/

namespace MissionScript.Binary64

open Float.Model (UnpackedFloat Format totalExponent)
open Float.Model.UnpackedFloat

/-- The number that a mantissa and an exponent denote. -/
def magnitude (m : Nat) (e : Int) : ℚ :=
  m * 2 ^ e

theorem magnitude_pos {m : Nat} (hm : 0 < m) (e : Int) : 0 < magnitude m e := by
  unfold magnitude
  positivity

theorem magnitude_mul (m n : Nat) (e f : Int) :
    magnitude m e * magnitude n f = magnitude (m * n) (e + f) := by
  unfold magnitude
  rw [zpow_add₀ (by norm_num)]
  push_cast
  ring

@[simp] theorem magnitude_zero_exponent (m : Nat) : magnitude m 0 = m := by
  simp [magnitude]

/-- Moving factors of two from the exponent into the mantissa. -/
theorem magnitude_shift (m k : Nat) (e : Int) : magnitude (m * 2 ^ k) (e - k) = magnitude m e := by
  unfold magnitude
  rw [zpow_sub₀ (by norm_num), zpow_natCast]
  push_cast
  field_simp

/-- Two representations of a number have the same mantissa at every common lower exponent. -/
theorem mul_two_pow_eq_of_magnitude_eq {m n : Nat} {e f : Int} (low : Int)
    (h : magnitude m e = magnitude n f) (he : low ≤ e) (hf : low ≤ f) :
    m * 2 ^ (e - low).toNat = n * 2 ^ (f - low).toNat := by
  have hm := magnitude_shift m (e - low).toNat e
  have hn := magnitude_shift n (f - low).toNat f
  rw [Int.toNat_of_nonneg (by omega), sub_sub_cancel] at hm hn
  rw [← hm, ← hn] at h
  unfold magnitude at h
  exact_mod_cast mul_right_cancel₀ (zpow_ne_zero low (by norm_num)) h

theorem log2_mul_two_pow {m : Nat} (hm : 0 < m) (k : Nat) : (m * 2 ^ k).log2 = m.log2 + k := by
  have hlow := Nat.log2_self_le (n := m) (by omega)
  have hhigh := Nat.lt_log2_self (n := m)
  rw [Nat.log2_eq_iff (by positivity), show m.log2 + k + 1 = m.log2 + 1 + k by omega, pow_add,
    pow_add _ (m.log2 + 1)]
  exact ⟨Nat.mul_le_mul_right _ hlow, Nat.mul_lt_mul_of_pos_right hhigh (by positivity)⟩

theorem totalExponent_eq_of_magnitude_eq {m n : Nat} {e f : Int} (hm : 0 < m) (hn : 0 < n)
    (h : magnitude m e = magnitude n f) : totalExponent m e = totalExponent n f := by
  have heq := mul_two_pow_eq_of_magnitude_eq _ h (min_le_left e f) (min_le_right e f)
  have hlog := congrArg Nat.log2 heq
  rw [log2_mul_two_pow hm, log2_mul_two_pow hn] at hlog
  unfold totalExponent
  omega

section Exact

variable {s : Sign} {m : Nat} {e : Int} {hpos : 0 < m}

theorem targetExponent_of_isCanonical (h : IsCanonical (.finite s m e hpos)) :
    Format.binary64.targetExponent (totalExponent m e) = e := by
  obtain ⟨hm, hlow, _, hnormal⟩ := h
  have hlog : m.log2 < 53 := (Nat.log2_lt (by omega)).2 hm
  change max ((m.log2 : Int) + 1 + e - (53 : Nat)) (-1074) = e
  rcases hnormal with hlead | rfl
  · have hlead : 52 ≤ m.log2 := (Nat.le_log2 (by omega)).2 hlead
    omega
  · omega

/-- Shifting zeros out of a mantissa leaves no rest. -/
theorem shiftRight_zeros (m k : Nat) :
    (ExtendedMantissa.mk (m * 2 ^ k) false false) >>> k = ⟨m, false, false⟩ := by
  change k.repeat ExtendedMantissa.shiftRightOne _ = _
  induction k generalizing m with
  | zero => simp [Nat.repeat]
  | succ k ih =>
    rw [Nat.repeat, pow_succ', ← mul_assoc, ih]
    simp [ExtendedMantissa.shiftRightOne]

theorem shiftToTargetExponent_exact (h : IsCanonical (.finite s m e hpos)) {n : Nat} {f : Int}
    (hvalue : magnitude n f = magnitude m e) (hle : f ≤ e) :
    shiftToTargetExponent .binary64 n f .exact = (⟨m, false, false⟩, e) := by
  have hshift := mul_two_pow_eq_of_magnitude_eq _ hvalue le_rfl hle
  rw [sub_self, Int.toNat_zero, pow_zero, mul_one] at hshift
  have hn : 0 < n := by
    rw [hshift]
    positivity
  have htarget : Format.binary64.targetExponent (totalExponent n f) = e := by
    rw [totalExponent_eq_of_magnitude_eq hn hpos hvalue, targetExponent_of_isCanonical h]
  unfold shiftToTargetExponent shiftToExponent
  rw [htarget, hshift]
  refine Prod.ext (shiftRight_zeros m _) ?_
  change f + (e - f).toNat = e
  omega

/-- An exact result is not changed by rounding. -/
theorem roundWithAccuracy_exact (h : IsCanonical (.finite s m e hpos)) {n : Nat} {f : Int}
    (hvalue : magnitude n f = magnitude m e) (hle : f ≤ e) :
    roundWithAccuracy .binary64 s n f .exact = .finite s m e hpos := by
  have hfirst := shiftToTargetExponent_exact h hvalue hle
  have hsecond := shiftToTargetExponent_exact h (n := m) rfl le_rfl
  have hrounded : (ExtendedMantissa.mk m false false).roundedMantissa = m := rfl
  unfold roundWithAccuracy
  simp only [hfirst, hrounded, hsecond]
  exact dif_neg (by omega)

theorem round_exact (h : IsCanonical (.finite s m e hpos)) {n : Nat} {f : Int} (hn : 0 < n)
    (hvalue : magnitude n f = magnitude m e) :
    Float.Model.UnpackedFloat.round .binary64 s n f = .finite s m e hpos := by
  have htarget : Format.binary64.targetExponent (totalExponent n f) = e := by
    rw [totalExponent_eq_of_magnitude_eq hn hpos hvalue, targetExponent_of_isCanonical h]
  unfold Float.Model.UnpackedFloat.round decreaseExponent
  simp only [htarget, Nat.shiftLeft_eq]
  refine roundWithAccuracy_exact h ?_ (by omega)
  rw [magnitude_shift, hvalue]

/-- A product that is exact is computed exactly. -/
theorem mul_exact (h : IsCanonical (.finite .positive m e hpos)) {m₁ m₂ : Nat} {e₁ e₂ : Int}
    (hm₁ : 0 < m₁) (hm₂ : 0 < m₂) (hle : e₁ + e₂ ≤ e)
    (hvalue : magnitude m₁ e₁ * magnitude m₂ e₂ = magnitude m e) :
    UnpackedFloat.mul .binary64 (.finite .positive m₁ e₁ hm₁) (.finite .positive m₂ e₂ hm₂) =
      .finite .positive m e hpos := by
  rw [magnitude_mul] at hvalue
  exact roundWithAccuracy_exact h hvalue hle

theorem log2_mul_le {m n : Nat} (hm : 0 < m) (hn : 0 < n) :
    (m * n).log2 ≤ m.log2 + n.log2 + 1 := by
  have hlt : m * n < 2 ^ (m.log2 + 1) * 2 ^ (n.log2 + 1) :=
    Nat.mul_lt_mul'' Nat.lt_log2_self Nat.lt_log2_self
  rw [← pow_add] at hlt
  have hlog := (Nat.log2_lt (Nat.mul_pos hm hn).ne').2 hlt
  omega

/-- A quotient that is exact is computed exactly: the digits that the division keeps reach at least
    as far down as those of the result. -/
theorem div_exact (h : IsCanonical (.finite .positive m e hpos)) {m₁ m₂ : Nat} {e₁ e₂ : Int}
    (hm₁ : 0 < m₁) (hm₂ : 0 < m₂)
    (hvalue : magnitude m₁ e₁ = magnitude m e * magnitude m₂ e₂) :
    UnpackedFloat.div .binary64 (.finite .positive m₁ e₁ hm₁) (.finite .positive m₂ e₂ hm₂) =
      .finite .positive m e hpos := by
  rw [magnitude_mul] at hvalue
  let low := min (e₁ - e₂)
    (Format.binary64.targetExponent (totalExponent m₁ e₁ - totalExponent m₂ e₂))
  have hlow : low ≤ e := by
    have htotal := totalExponent_eq_of_magnitude_eq hm₁ (Nat.mul_pos hpos hm₂) hvalue
    have hlog := log2_mul_le hpos hm₂
    have htarget := targetExponent_of_isCanonical h
    refine (min_le_right _ _).trans (le_trans (max_le_max_right _ ?_) htarget.le)
    unfold totalExponent at htotal ⊢
    omega
  have hshift := mul_two_pow_eq_of_magnitude_eq (low + e₂) hvalue
    (by have := min_le_left (e₁ - e₂) (Format.binary64.targetExponent
          (totalExponent m₁ e₁ - totalExponent m₂ e₂))
        omega)
    (by omega)
  rw [show e₁ - (low + e₂) = e₁ - e₂ - low by ring, show e + e₂ - (low + e₂) = e - low by ring,
    mul_right_comm] at hshift
  have hcore : divCore .binary64 m₁ e₁ m₂ e₂ = (m * 2 ^ (e - low).toNat, low, .exact) := by
    unfold divCore
    change ((m₁ <<< (e₁ - e₂ - low).toNat) / m₂, low,
      accuracyOfFraction ((m₁ <<< (e₁ - e₂ - low).toNat) % m₂) m₂) = _
    rw [Nat.shiftLeft_eq, hshift, Nat.mul_div_cancel _ hm₂, Nat.mul_mod_left]
    rfl
  unfold UnpackedFloat.div
  simp only [hcore]
  refine roundWithAccuracy_exact h ?_ hlow
  have hsame := magnitude_shift m (e - low).toNat e
  rwa [Int.toNat_of_nonneg (by omega), sub_sub_cancel] at hsame

end Exact

end MissionScript.Binary64

import MissionScript.Number.Arithmetic
import MissionScript.Proofs.Number.Exactness
import MissionScript.Proofs.Number.Order

/-!
Numbers that stay finite. Rounding adds at most one bit, so a result whose bits end far enough below the
greatest exponent has a word of its own.
-/

namespace MissionScript

namespace Binary64

open Float.Model (UnpackedFloat Format totalExponent)
open Float.Model.UnpackedFloat

/-- Whether a number is zero, or its exponent is not above the greatest one. -/
def IsBounded : UnpackedFloat → Prop
  | .zero _ => True
  | .finite _ _ e _ => e ≤ 971
  | _ => False

/-- Whether the word of a number is that of a finite one. -/
theorem isFinite_unpack_of_exponent {s : Sign} {e : BitVec 11} {m : BitVec 52} (he : e ≠ -1#11) :
    (UnpackedFloat.unpack .binary64 (packComponents .binary64 s e m)).isFinite = true := by
  unfold UnpackedFloat.unpack
  simp only [unpackMantissa_packComponents, unpackExponent_packComponents, he, if_false]
  split
  · split <;> rfl
  · rfl

/-- A number that is bounded has a word of its own. -/
theorem isFinite_pack {u : UnpackedFloat} (h : IsBounded u) :
    (Float.ofModel (Float.Model.pack u)).isFinite = true := by
  change (UnpackedFloat.unpack .binary64 (UnpackedFloat.pack .binary64 u)).isFinite = true
  cases u with
  | notANumber | infinity => cases h
  | zero s => exact isFinite_unpack_of_exponent (by decide)
  | finite s m e hpos =>
    have hbound : e ≤ 971 := h
    change (UnpackedFloat.unpack .binary64 (if 2 ^ 11 ≤ (e + (1023 : Nat) + (52 : Nat)).toNat + 1
      then packedInfinity .binary64 s
      else if m.log2 + 1 = 1 + 52 then
        packComponents .binary64 s (BitVec.ofNat 11 (e + (1023 : Nat) + (52 : Nat)).toNat)
          (BitVec.ofNat 52 m)
      else packComponents .binary64 s 0#11 (BitVec.ofNat 52 m))).isFinite = true
    rw [if_neg (by omega)]
    split
    · exact isFinite_unpack_of_exponent
        (ofNat_ne_of_toNat (k := 2047) (by omega) (by omega) (by omega))
    · exact isFinite_unpack_of_exponent (by decide)

theorem mantissa_shiftRight (em : ExtendedMantissa) (k : Nat) :
    (em >>> k).mantissa = em.mantissa / 2 ^ k := by
  change (k.repeat ExtendedMantissa.shiftRightOne em).mantissa = _
  induction k with
  | zero => exact (Nat.div_one _).symm
  | succ k ih =>
    rw [Nat.repeat, ExtendedMantissa.shiftRightOne, ih, Nat.div_div_eq_div_mul, pow_succ]

theorem roundedMantissa_le (em : ExtendedMantissa) : em.roundedMantissa ≤ em.mantissa + 1 := by
  unfold ExtendedMantissa.roundedMantissa
  cases em.accuracy with
  | exact => exact Nat.le_succ _
  | inexact relative =>
    cases relative with
    | lt => exact Nat.le_succ _
    | eq =>
      have hparity : em.mantissa % 2 < 2 := Nat.mod_lt _ (by decide)
      exact Nat.add_le_add_left (by omega) _
    | gt => exact Nat.le_refl _

/-- Moved to its target exponent, a mantissa has at most 53 bits. -/
theorem mantissa_shiftToTargetExponent (m : Nat) (e : Int) :
    (shiftToTargetExponent .binary64 m e .exact).1.mantissa < 2 ^ 53 := by
  have hlow : totalExponent m e - 53 ≤ Format.binary64.targetExponent (totalExponent m e) :=
    le_max_left _ _
  unfold shiftToTargetExponent shiftToExponent
  dsimp only
  rw [mantissa_shiftRight]
  change m / 2 ^ (Format.binary64.targetExponent (totalExponent m e) - e).toNat < 2 ^ 53
  generalize Format.binary64.targetExponent (totalExponent m e) = target at hlow
  unfold totalExponent at hlow
  rw [Nat.div_lt_iff_lt_mul (by positivity), ← pow_add]
  exact Nat.lt_log2_self.trans_le (Nat.pow_le_pow_right (by decide) (by omega))

/-- Rounding a number with its leading bit below the greatest one gives a number that is bounded. -/
theorem isBounded_roundWithAccuracy {s : Sign} {m : Nat} {e : Int} (he : e ≤ 970)
    (htotal : totalExponent m e ≤ 1023) :
    IsBounded (roundWithAccuracy .binary64 s m e .exact) := by
  have hmantissa := mantissa_shiftToTargetExponent m e
  have hexponent : (shiftToTargetExponent .binary64 m e .exact).2 ≤ 970 := by
    change e + ((Format.binary64.targetExponent (totalExponent m e) - e).toNat : Int) ≤ 970
    have htarget : Format.binary64.targetExponent (totalExponent m e) ≤ 970 :=
      max_le (by change totalExponent m e - (53 : Nat) ≤ 970; omega) (by decide)
    omega
  unfold roundWithAccuracy
  generalize shiftToTargetExponent .binary64 m e .exact = first at hmantissa hexponent
  obtain ⟨em, e₁⟩ := first
  have hrounded := roundedMantissa_le em
  dsimp only at hmantissa hexponent ⊢
  generalize em.roundedMantissa = r at hrounded
  have hlog : r.log2 ≤ 53 := by
    rcases Nat.eq_zero_or_pos r with rfl | hr
    · exact Nat.zero_le _
    · exact Nat.le_of_lt_succ ((Nat.log2_lt (by omega)).2 (by omega))
  split
  · trivial
  · change e₁ + ((Format.binary64.targetExponent (totalExponent r e₁) - e₁).toNat : Int) ≤ 971
    have htarget : Format.binary64.targetExponent (totalExponent r e₁) ≤ 971 :=
      max_le (by change (r.log2 : Int) + 1 + e₁ - (53 : Nat) ≤ 971; omega) (by decide)
    omega

theorem isBounded_round {s : Sign} {m : Nat} (hm : 0 < m) {e : Int} (htotal : totalExponent m e ≤ 1023) :
    IsBounded (Float.Model.UnpackedFloat.round .binary64 s m e) := by
  have htarget : Format.binary64.targetExponent (totalExponent m e) ≤ 970 :=
    max_le (by change totalExponent m e - (53 : Nat) ≤ 970; omega) (by decide)
  unfold Float.Model.UnpackedFloat.round decreaseExponent
  dsimp only
  generalize Format.binary64.targetExponent (totalExponent m e) = target at htarget
  apply isBounded_roundWithAccuracy (by omega)
  unfold totalExponent at htotal ⊢
  rw [Nat.shiftLeft_eq, log2_mul_two_pow hm]
  push_cast
  omega

theorem isBounded_ofInt {n : Int} (hn : n.natAbs < 2 ^ 64) :
    IsBounded (UnpackedFloat.ofInt .binary64 n) := by
  have hround {s : Sign} {m : Nat} (hpos : 0 < m) (hm : m < 2 ^ 64) :
      IsBounded (Float.Model.UnpackedFloat.round .binary64 s m 0) := by
    refine isBounded_round hpos ?_
    have hlog : m.log2 < 64 := (Nat.log2_lt (by omega)).2 hm
    unfold totalExponent
    omega
  unfold UnpackedFloat.ofInt UnpackedFloat.normalize
  split
  · next hneg =>
    rw [Int.compare_eq_lt] at hneg
    exact hround (by omega) (by omega)
  · trivial
  · next hpos =>
    rw [Int.compare_eq_gt] at hpos
    exact hround (by omega) (by omega)

theorem classKey_le_iff {c e m c' e' m' : Int} :
    classKey c e m ≤ classKey c' e' m' ↔ c < c' ∨ c = c' ∧ (e < e' ∨ e = e' ∧ m ≤ m') := by
  simp [classKey, Prod.Lex.le_iff]

/-- What is not below zero nor above one is zero, or a positive number whose bits end early. -/
theorem unpack_of_le_one {x : Float} (hlow : 0 ≤ x) (hhigh : x ≤ 1) :
    (∃ s, x.toModel.unpack = .zero s) ∨
      ∃ m e hm, x.toModel.unpack = .finite .positive m e hm ∧ e ≤ -52 := by
  obtain ⟨zero, k, hzero, hk, hlow⟩ := le_iff_orderKey.1 hlow
  obtain ⟨k', one, hk', hone, hhigh⟩ := le_iff_orderKey.1 hhigh
  obtain rfl := Option.some.inj (hk.symm.trans hk')
  obtain rfl : classKey 0 0 0 = zero := Option.some.inj hzero
  obtain rfl : classKey 1 (-52) (2 ^ 52) = one := Option.some.inj (.trans (by decide +kernel) hone)
  unfold orderKey? at hk
  cases hunpack : x.toModel.unpack with
  | zero s => exact Or.inl ⟨s, rfl⟩
  | notANumber =>
    rw [hunpack] at hk
    cases hk
  | infinity s =>
    rw [hunpack] at hk
    cases s <;> cases hk <;> rw [classKey_le_iff] at hlow hhigh <;> omega
  | finite s m e hm =>
    rw [hunpack] at hk
    cases s <;> cases hk <;> rw [classKey_le_iff] at hlow hhigh
    · omega
    · exact Or.inr ⟨m, e, hm, rfl, by omega⟩

theorem isBounded_unpack {x : Float} (h : x.isFinite = true) : IsBounded x.toModel.unpack := by
  change x.toModel.unpack.isFinite = true at h
  have hcanonical := isCanonical_unpack x.toModel
  cases hunpack : x.toModel.unpack with
  | notANumber | infinity =>
    rw [hunpack] at h
    cases h
  | zero s => trivial
  | finite s m e hm =>
    rw [hunpack] at hcanonical
    exact hcanonical.2.2.1

end Binary64

open Binary64

theorem isFinite_neg {x : Float} (h : x.isFinite = true) : (-x).isFinite = true := by
  refine isFinite_pack (u := x.toModel.unpack.neg) ?_
  have hbounded := isBounded_unpack h
  cases hunpack : x.toModel.unpack <;> rw [hunpack] at hbounded <;> exact hbounded

theorem isFinite_abs {x : Float} (h : x.isFinite = true) : x.abs.isFinite = true := by
  refine isFinite_pack (u := x.toModel.unpack.abs) ?_
  have hbounded := isBounded_unpack h
  cases hunpack : x.toModel.unpack <;> rw [hunpack] at hbounded <;> exact hbounded

/-- A part of a whole stays finite as a percentage. -/
theorem isFinite_mul_hundred {x : Float} (hlow : 0 ≤ x) (hhigh : x ≤ 1) :
    (x * 100).isFinite = true := by
  refine isFinite_pack (u := .mul .binary64 x.toModel.unpack (100 : Float).toModel.unpack) ?_
  have hhundred : (100 : Float).toModel.unpack =
      .finite .positive (100 * 2 ^ 46) (-46) (by decide) := rfl
  rw [hhundred]
  obtain ⟨s, hzero⟩ | ⟨m, e, hm, hfinite, he⟩ := unpack_of_le_one hlow hhigh
  · rw [hzero]
    trivial
  · have hcanonical := isCanonical_unpack x.toModel
    rw [hfinite] at hcanonical ⊢
    have hlt : m * (100 * 2 ^ 46) < 2 ^ 106 :=
      calc m * (100 * 2 ^ 46) < 2 ^ 53 * 2 ^ 53 := Nat.mul_lt_mul'' hcanonical.1 (by decide)
        _ = 2 ^ 106 := by norm_num
    have hlog := (Nat.log2_lt (by positivity)).2 hlt
    refine isBounded_roundWithAccuracy (by omega) ?_
    unfold Float.Model.totalExponent
    omega

theorem isFinite_floatOfCount (n : Nat) : (floatOfCount n).isFinite = true :=
  isFinite_pack (isBounded_ofInt (by exact (UInt64.ofNat n).toNat_lt))

theorem isFinite_floatOfInt64 (n : Int64) : (floatOfInt64 n).isFinite = true := by
  have hlow := n.le_toInt
  have hhigh := n.toInt_lt
  exact isFinite_pack (isBounded_ofInt (by omega))

end MissionScript

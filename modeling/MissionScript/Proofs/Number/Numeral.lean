import MissionScript.Proofs.Number.Exactness

/-!
Numerals that denote a number exactly. Whether a numeral is short enough for the machine to read it
with one multiplication or division, or is read through whole numbers of any size: if a number of 64
bits is meant, that number is read.
-/

namespace MissionScript.Binary64

open Float.Model (UnpackedFloat Format)
open Float.Model.UnpackedFloat

/-- A number that is finite and positive, and what it denotes. -/
def Denotes (x : Float) (q : ℚ) : Prop :=
  ∃ m e, ∃ hpos : 0 < m, x.toModel.unpack = .finite .positive m e hpos ∧
    IsCanonical (.finite .positive m e hpos) ∧ magnitude m e = q

/-- A whole number of at most 53 bits is converted exactly. -/
theorem denotes_ofNat {n : Nat} (hn : 0 < n) (hlt : n < 2 ^ 53) : Denotes n.toUInt64.toFloat n := by
  have hlog : n.log2 < 53 := (Nat.log2_lt (by omega)).2 hlt
  have hpos : 0 < n * 2 ^ (52 - n.log2) := by positivity
  have hbits : (n * 2 ^ (52 - n.log2)).log2 = 52 := by
    rw [log2_mul_two_pow hn]
    omega
  obtain ⟨hlead, hhigh⟩ := (Nat.log2_eq_iff (by omega)).1 hbits
  have hvalue : magnitude (n * 2 ^ (52 - n.log2)) ((n.log2 : Int) - 52) = n := by
    have hshift := magnitude_shift n (52 - n.log2) 0
    rwa [magnitude_zero_exponent, show (0 : Int) - (52 - n.log2 : Nat) = n.log2 - 52 by omega]
      at hshift
  have hcanonical : IsCanonical (.finite .positive _ ((n.log2 : Int) - 52) hpos) :=
    ⟨hhigh, by omega, by omega, Or.inl hlead⟩
  have hround : UnpackedFloat.ofNat .binary64 n =
      .finite .positive _ ((n.log2 : Int) - 52) hpos := by
    unfold UnpackedFloat.ofNat UnpackedFloat.ofInt UnpackedFloat.normalize
    rw [Int.compare_eq_gt.2 (by omega)]
    exact round_exact hcanonical hn (by rw [hvalue, magnitude_zero_exponent, Int.toNat_natCast])
  refine ⟨_, _, hpos, ?_, hcanonical, hvalue⟩
  change (Float.Model.pack (UnpackedFloat.ofNat .binary64 n.toUInt64.toNat)).unpack = _
  have hword : n.toUInt64.toNat = n := by
    change n % 2 ^ 64 = n
    omega
  rw [hword, hround, unpack_pack hcanonical]

theorem magnitude_eq_of_mul_two_pow {m n : Nat} {e : Int}
    (h : m * 2 ^ e.toNat = n * 2 ^ (-e).toNat) : magnitude m e = n := by
  have hm := magnitude_shift m e.toNat e
  have hn := magnitude_shift n (-e).toNat 0
  rw [← hm, h, show e - e.toNat = 0 - (-e).toNat by omega, hn, magnitude_zero_exponent]

/-- Whether a number is a power of ten, computed with whole numbers. -/
def isPowerOfTen (x : Float) (k : Nat) : Bool :=
  match x.toModel.unpack with
  | .finite .positive m e _ => m * 2 ^ e.toNat == 10 ^ k * 2 ^ (-e).toNat
  | _ => false

theorem denotes_of_isPowerOfTen {x : Float} {k : Nat} (h : isPowerOfTen x k = true) :
    Denotes x (10 ^ k : Nat) := by
  have hcanonical := isCanonical_unpack x.toModel
  unfold isPowerOfTen at h
  split at h
  · next m e hpos hunpack =>
    rw [hunpack] at hcanonical
    exact ⟨m, e, hpos, hunpack, hcanonical, magnitude_eq_of_mul_two_pow (by simpa using h)⟩
  · cases h

theorem denotes_powerOfTen (k : Fin 23) :
    Denotes Float.exactlyRepresentablePowersOfTen[k] (10 ^ k.val : Nat) := by
  apply denotes_of_isPowerOfTen
  revert k
  decide +kernel

section Exact

variable {m : Nat} {e : Int} {hpos : 0 < m}

/-- The product of two numbers, if it fits. -/
theorem Denotes.mul {x y : Float} {p q : ℚ} (hx : Denotes x p) (hy : Denotes y q)
    (h : IsCanonical (.finite .positive m e hpos)) (hvalue : p * q = magnitude m e) :
    x * y = .ofModel (.pack (.finite .positive m e hpos)) := by
  obtain ⟨m₁, e₁, hm₁, hux, hx, rfl⟩ := hx
  obtain ⟨m₂, e₂, hm₂, huy, hy, rfl⟩ := hy
  have hle : e₁ + e₂ ≤ e := by
    by_contra hlt
    have hproduct := (magnitude_mul m₁ m₂ e₁ e₂).symm.trans hvalue
    have hm := mul_two_pow_eq_of_magnitude_eq e hproduct (by omega) le_rfl
    rw [sub_self, Int.toNat_zero, pow_zero, mul_one] at hm
    have htwo : 2 ≤ 2 ^ (e₁ + e₂ - e).toNat := Nat.le_self_pow (by omega) 2
    have hlong : 2 ^ 52 ≤ m₁ * m₂ := by
      rcases hx.2.2.2 with hlead | hleast
      · exact hlead.trans (Nat.le_mul_of_pos_right _ hm₂)
      · rcases hy.2.2.2 with hlead | hleast'
        · exact hlead.trans (Nat.le_mul_of_pos_left _ hm₁)
        · have := h.2.1
          omega
    have hlarge := Nat.mul_le_mul hlong htwo
    have hsmall := h.1
    omega
  change Float.ofModel (Float.Model.pack (UnpackedFloat.mul .binary64 x.toModel.unpack
    y.toModel.unpack)) = _
  rw [hux, huy, mul_exact h hm₁ hm₂ hle hvalue]

/-- The quotient of two numbers, if it fits. -/
theorem Denotes.div {x y : Float} {p q : ℚ} (hx : Denotes x p) (hy : Denotes y q)
    (h : IsCanonical (.finite .positive m e hpos)) (hvalue : p = magnitude m e * q) :
    x / y = .ofModel (.pack (.finite .positive m e hpos)) := by
  obtain ⟨m₁, e₁, hm₁, hux, _, rfl⟩ := hx
  obtain ⟨m₂, e₂, hm₂, huy, _, rfl⟩ := hy
  change Float.ofModel (Float.Model.pack (UnpackedFloat.div .binary64 x.toModel.unpack
    y.toModel.unpack)) = _
  rw [hux, huy, div_exact h hm₁ hm₂ hvalue]

private theorem pos_of_eq_magnitude {n : Nat} (hpos : 0 < m) (hvalue : (n : ℚ) = magnitude m e) :
    0 < n := by
  have hpositive := magnitude_pos hpos e
  rw [← hvalue] at hpositive
  exact_mod_cast hpositive

private theorem ofScientific_whole_slow (h : IsCanonical (.finite .positive m e hpos)) {n : Nat}
    (hvalue : (n : ℚ) = magnitude m e) :
    UnpackedFloat.ofScientific .binary64 n 0 = .finite .positive m e hpos := by
  have hn := pos_of_eq_magnitude hpos hvalue
  have hlow : -53 ≤ e := by
    by_contra hlt
    have hm := mul_two_pow_eq_of_magnitude_eq e (f := 0) (n := n)
      (by rw [← hvalue, magnitude_zero_exponent]) le_rfl (by omega)
    rw [sub_self, Int.toNat_zero, pow_zero, mul_one] at hm
    have hlarge : 2 ^ 53 ≤ 2 ^ (0 - e).toNat := Nat.pow_le_pow_right (by omega) (by omega)
    have hsmall := h.1
    have hle := Nat.le_mul_of_pos_left (2 ^ (0 - e).toNat) hn
    omega
  have hrange : ¬(0 : Int) < -((2 ^ 11 : Int) + n.log2) := by omega
  unfold UnpackedFloat.ofScientific
  rw [dif_neg hn.ne', if_neg (by decide), if_neg hrange, if_pos le_rfl]
  refine mul_exact h _ _ (by simpa [Format.mantissaBits] using hlow) ?_
  have hshift := magnitude_shift n 53 0
  rw [Nat.shiftLeft_eq, ← hvalue]
  change magnitude (n * 2 ^ 53) (-(53 : Nat)) * magnitude 1 0 = n
  rw [magnitude_zero_exponent, ← zero_sub, hshift, magnitude_zero_exponent, Nat.cast_one, mul_one]

/-- A numeral without an exponent that denotes a number of 64 bits. -/
theorem ofScientific_whole (h : IsCanonical (.finite .positive m e hpos)) {n : Nat}
    (hvalue : (n : ℚ) = magnitude m e) :
    Float.ofScientific n false 0 = .ofModel (.pack (.finite .positive m e hpos)) := by
  have hn := pos_of_eq_magnitude hpos hvalue
  unfold Float.ofScientific
  split
  · next hfast =>
    exact (denotes_ofNat hn hfast.1).mul (denotes_powerOfTen 0) h (by simpa using hvalue)
  · change Float.ofModel (Float.Model.pack (UnpackedFloat.ofScientific .binary64 n 0)) = _
    rw [ofScientific_whole_slow h hvalue]

private theorem fraction_in_range (hpos : 0 < m) (h : IsCanonical (.finite .positive m e hpos))
    {n k : Nat} (hn : 0 < n) (hvalue : (n : ℚ) = magnitude m e * (10 ^ k : Nat)) :
    ¬-(k : Int) < -((2 ^ 11 : Int) + n.log2) := by
  have hscale : magnitude n 0 = magnitude (m * 10 ^ k) e := by
    rw [magnitude_zero_exponent, hvalue]
    unfold magnitude
    push_cast
    ring
  have hwhole := mul_two_pow_eq_of_magnitude_eq (-1074) hscale (by omega) h.2.1
  have hten : 2 ^ k ≤ 10 ^ k := Nat.pow_le_pow_left (by omega) k
  have hlarge : 10 ^ k ≤ m * 10 ^ k * 2 ^ (e - -1074).toNat :=
    (Nat.le_mul_of_pos_left _ hpos).trans (Nat.le_mul_of_pos_right _ (by positivity))
  have hlog : k ≤ (n * 2 ^ (0 - -1074 : Int).toNat).log2 :=
    (Nat.le_log2 (by positivity)).2 (by omega)
  rw [log2_mul_two_pow hn] at hlog
  omega

/-- A numeral with a negative exponent that denotes a number of 64 bits. -/
theorem ofScientific_fraction (h : IsCanonical (.finite .positive m e hpos)) {n k : Nat}
    (hvalue : (n : ℚ) = magnitude m e * (10 ^ k : Nat)) :
    Float.ofScientific n true k = .ofModel (.pack (.finite .positive m e hpos)) := by
  have hn : 0 < n := by
    have hten : (0 : ℚ) < (10 ^ k : Nat) := by positivity
    have hpositive := mul_pos (magnitude_pos hpos e) hten
    rw [← hvalue] at hpositive
    exact_mod_cast hpositive
  unfold Float.ofScientific
  split
  · next hfast =>
    exact (denotes_ofNat hn hfast.1).div (denotes_powerOfTen ⟨k, by omega⟩) h hvalue
  · have hslow : UnpackedFloat.ofScientific .binary64 n (-k) = .finite .positive m e hpos := by
      rcases Nat.eq_zero_or_pos k with rfl | hk
      · exact ofScientific_whole_slow h (by simpa using hvalue)
      · have hbound : ¬-(k : Int) > 2 ^ 11 := by omega
        have hneg : ¬0 ≤ -(k : Int) := by omega
        unfold UnpackedFloat.ofScientific
        rw [dif_neg hn.ne', if_neg hbound, if_neg (fraction_in_range hpos h hn hvalue), if_neg hneg]
        refine div_exact h _ _ ?_
        rw [magnitude_zero_exponent, magnitude_zero_exponent, neg_neg, Int.toNat_natCast, hvalue]
    change Float.ofModel (Float.Model.pack (UnpackedFloat.ofScientific .binary64 n
      (Int.negOfNat k))) = _
    rw [Int.negOfNat_eq, Int.ofNat_eq_natCast, hslow]

end Exact

end MissionScript.Binary64

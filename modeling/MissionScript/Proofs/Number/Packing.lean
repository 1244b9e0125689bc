import MissionScript.Number.Shortest
import Mathlib

/-!
Words of 64 bits as numbers. A word is a sign, an exponent and a mantissa side by side; the numbers
that a word stands for are described here by bounds on mantissa and exponent, and packing and
unpacking them loses nothing.
-/

namespace MissionScript.Binary64

open Float.Model (UnpackedFloat)
open Float.Model.UnpackedFloat

theorem toNat_packComponents (s : Sign) (e : BitVec 11) (m : BitVec 52) :
    (packComponents .binary64 s e m).toNat =
      s.toBitVec.toNat * 2 ^ 63 + e.toNat * 2 ^ 52 + m.toNat := by
  have he := e.isLt
  have hm := m.isLt
  have happend : (packComponents .binary64 s e m).toNat =
      (s.toBitVec.toNat <<< 11 ||| e.toNat) <<< 52 ||| m.toNat := by
    simp only [packComponents, BitVec.toNat_append]
  rw [happend, ← Nat.shiftLeft_add_eq_or_of_lt he, ← Nat.shiftLeft_add_eq_or_of_lt hm,
    Nat.shiftLeft_eq, Nat.shiftLeft_eq]
  omega

theorem toNat_unpackMantissa (b : BitVec 64) :
    (@unpackMantissa .binary64 b).toNat = b.toNat % 2 ^ 52 := by
  simp [unpackMantissa, BitVec.extractLsb_toNat]

theorem toNat_unpackExponent (b : BitVec 64) :
    (@unpackExponent .binary64 b).toNat = b.toNat / 2 ^ 52 % 2 ^ 11 := by
  simp [unpackExponent, BitVec.extractLsb_toNat, Nat.shiftRight_eq_div_pow]

theorem toNat_unpackSign (b : BitVec 64) :
    (@unpackSign .binary64 b).toNat = b.toNat / 2 ^ 63 := by
  have hb := b.isLt
  simp only [unpackSign, BitVec.toNat_cast, BitVec.extractLsb_toNat, Nat.shiftRight_eq_div_pow]
  omega

theorem toBitVec_ofBitVec (v : BitVec 1) : (Sign.ofBitVec v).toBitVec = v := by
  revert v
  decide

theorem ofBitVec_toBitVec (s : Sign) : Sign.ofBitVec s.toBitVec = s := by
  cases s <;> rfl

theorem unpackSign_packComponents (s : Sign) (e : BitVec 11) (m : BitVec 52) :
    @unpackSign .binary64 (packComponents .binary64 s e m) = s.toBitVec := by
  have he := e.isLt
  have hm := m.isLt
  apply BitVec.eq_of_toNat_eq
  rw [toNat_unpackSign, toNat_packComponents]
  omega

/-- The components of a word make up the word. -/
theorem packComponents_unpack (b : BitVec 64) :
    packComponents .binary64 (Sign.ofBitVec (@unpackSign .binary64 b))
      (@unpackExponent .binary64 b) (@unpackMantissa .binary64 b) = b := by
  have hb := b.isLt
  apply BitVec.eq_of_toNat_eq
  rw [toNat_packComponents, toBitVec_ofBitVec, toNat_unpackSign, toNat_unpackExponent,
    toNat_unpackMantissa]
  omega

/-- The leading bit of a normal mantissa is not stored. -/
theorem toNat_leadingBit (m : BitVec 52) : (1#1 ++ m).toNat = 2 ^ 52 + m.toNat := by
  rw [BitVec.toNat_append, ← Nat.shiftLeft_add_eq_or_of_lt m.isLt]
  simp

/-- The numbers that words stand for. A finite one has the least exponent, or a mantissa of exactly
    53 bits. -/
def IsCanonical : UnpackedFloat → Prop
  | .finite _ m e _ => m < 2 ^ 53 ∧ -1074 ≤ e ∧ e ≤ 971 ∧ (2 ^ 52 ≤ m ∨ e = -1074)
  | _ => True

theorem isCanonical_unpack (x : Float.Model) : IsCanonical x.unpack := by
  have hm := toNat_unpackMantissa x.toBits.toBitVec
  have he := toNat_unpackExponent x.toBits.toBitVec
  have hbias : (Float.Model.Format.binary64.exponentBias : Int) = 1023 := by decide
  unfold Float.Model.unpack UnpackedFloat.unpack
  dsimp only
  split
  · split <;> trivial
  · next hfinite =>
    have hlt : (@unpackExponent .binary64 x.toBits.toBitVec).toNat ≠ 2047 :=
      fun h => hfinite (BitVec.eq_of_toNat_eq h)
    split
    · next hzero =>
      split
      · trivial
      · refine ⟨by omega, ?_, ?_, Or.inr ?_⟩ <;> rw [hzero] <;> decide
    · next hzero =>
      have hpos : (@unpackExponent .binary64 x.toBits.toBitVec).toNat ≠ 0 :=
        fun h => hzero (BitVec.eq_of_toNat_eq h)
      simp only [IsCanonical, toNat_leadingBit, hbias]
      omega

section Finite

variable {s : Sign} {m : Nat} {e : Int} {hpos : 0 < m}

/-- The word of a number whose mantissa has 53 bits. -/
theorem pack_normal (hlead : 2 ^ 52 ≤ m) (hm : m < 2 ^ 53) (hlow : -1074 ≤ e) (hhigh : e ≤ 971) :
    UnpackedFloat.pack .binary64 (.finite s m e hpos) =
      packComponents .binary64 s (BitVec.ofNat 11 (e + 1075).toNat) (BitVec.ofNat 52 m) := by
  have hlog : m.log2 = 52 := (Nat.log2_eq_iff (by omega)).2 ⟨hlead, hm⟩
  change (if 2 ^ 11 ≤ (e + (1023 : Nat) + (52 : Nat)).toNat + 1 then _ else
    if m.log2 + 1 = 1 + 52 then _ else _) = _
  rw [if_neg (by omega), if_pos (by omega)]
  congr 2
  change (e + (1023 : Nat) + (52 : Nat)).toNat = _
  omega

/-- The word of a number whose mantissa has fewer bits. -/
theorem pack_subnormal (hm : m < 2 ^ 52) :
    UnpackedFloat.pack .binary64 (.finite s m (-1074) hpos) =
      packComponents .binary64 s 0#11 (BitVec.ofNat 52 m) := by
  have hlog : m.log2 < 52 := (Nat.log2_lt (by omega)).2 hm
  have hbits : ¬m.log2 + 1 = 1 + 52 := by omega
  exact if_neg hbits

theorem ofNat_ne_of_toNat {w n k : Nat} (hn : n < 2 ^ w) (hk : k < 2 ^ w) (h : n ≠ k) :
    BitVec.ofNat w n ≠ BitVec.ofNat w k := by
  intro heq
  have hnat := congrArg BitVec.toNat heq
  rw [BitVec.toNat_ofNat, BitVec.toNat_ofNat, Nat.mod_eq_of_lt hn, Nat.mod_eq_of_lt hk] at hnat
  exact h hnat

theorem unpack_pack_normal (hlead : 2 ^ 52 ≤ m) (hm : m < 2 ^ 53) (hlow : -1074 ≤ e)
    (hhigh : e ≤ 971) :
    UnpackedFloat.unpack .binary64 (UnpackedFloat.pack .binary64 (.finite s m e hpos)) =
      .finite s m e hpos := by
  have hexponent : (BitVec.ofNat 11 (e + 1075).toNat).toNat = (e + 1075).toNat := by
    rw [BitVec.toNat_ofNat]
    omega
  have hmantissa : (1#1 ++ BitVec.ofNat 52 m).toNat = m := by
    rw [toNat_leadingBit, BitVec.toNat_ofNat]
    omega
  have hfinite : BitVec.ofNat 11 (e + 1075).toNat ≠ -1#11 :=
    ofNat_ne_of_toNat (k := 2047) (by omega) (by omega) (by omega)
  have hzero : BitVec.ofNat 11 (e + 1075).toNat ≠ 0#11 :=
    ofNat_ne_of_toNat (by omega) (by omega) (by omega)
  have hbias : (Float.Model.Format.binary64.exponentBias : Int) = 1023 := by decide
  rw [pack_normal hlead hm hlow hhigh, UnpackedFloat.unpack]
  simp only [unpackMantissa_packComponents, unpackExponent_packComponents,
    unpackSign_packComponents, hfinite, hzero, if_false, ofBitVec_toBitVec, hexponent, hmantissa,
    hbias]
  congr 1
  omega

theorem unpack_pack_subnormal (hm : m < 2 ^ 52) :
    UnpackedFloat.unpack .binary64 (UnpackedFloat.pack .binary64 (.finite s m (-1074) hpos)) =
      .finite s m (-1074) hpos := by
  have hmantissa : (BitVec.ofNat 52 m).toNat = m := by
    rw [BitVec.toNat_ofNat]
    omega
  have hzero : BitVec.ofNat 52 m ≠ 0#52 := ofNat_ne_of_toNat hm (by omega) (by omega)
  have hfinite : (0#11 : BitVec 11) ≠ -1#11 := by decide
  have hbias : (Float.Model.Format.binary64.exponentBias : Int) = 1023 := by decide
  rw [pack_subnormal hm, UnpackedFloat.unpack]
  simp only [unpackMantissa_packComponents, unpackExponent_packComponents,
    unpackSign_packComponents, hfinite, hzero, if_false, if_true, dite_false, ofBitVec_toBitVec,
    hmantissa, hbias]
  rfl

end Finite

/-- Packing loses nothing of a number that fits. -/
theorem unpack_pack {u : UnpackedFloat} (h : IsCanonical u) : (Float.Model.pack u).unpack = u := by
  change UnpackedFloat.unpack .binary64 (UnpackedFloat.pack .binary64 u) = u
  cases u with
  | notANumber => rfl
  | infinity s => cases s <;> rfl
  | zero s => cases s <;> rfl
  | finite s m e hpos =>
    obtain ⟨hm, hlow, hhigh, hnormal⟩ := h
    by_cases hlead : 2 ^ 52 ≤ m
    · exact unpack_pack_normal hlead hm hlow hhigh
    · obtain rfl := hnormal.resolve_left hlead
      exact unpack_pack_subnormal (by omega)

/-- Unpacking loses nothing of a word. -/
theorem pack_unpack (x : Float.Model) : Float.Model.pack x.unpack = x := by
  obtain ⟨⟨b⟩, hvalid⟩ := x
  have hword := packComponents_unpack b
  have hexponent := toNat_unpackExponent b
  suffices h : UnpackedFloat.pack .binary64 (UnpackedFloat.unpack .binary64 b) = b by
    simp only [Float.Model.pack, Float.Model.unpack, h]
  unfold UnpackedFloat.unpack
  dsimp only
  split
  · next hinfinite =>
    rw [hinfinite] at hword
    split
    · next hzero =>
      rw [hzero] at hword
      exact hword
    · next hzero => exact (hvalid.eq_packedNaN hinfinite hzero).symm
  · next hfinite =>
    have hlt : (@unpackExponent .binary64 b).toNat ≠ 2047 :=
      fun h => hfinite (BitVec.eq_of_toNat_eq h)
    have hm := (@unpackMantissa .binary64 b).isLt
    split
    · next hleast =>
      rw [hleast] at hword
      split
      · next hzero =>
        rw [hzero] at hword
        exact hword
      · rw [hleast]
        refine (pack_subnormal hm).trans ?_
        rw [BitVec.ofNat_toNat, BitVec.setWidth_eq]
        exact hword
    · next hnormal =>
      have hpos : (@unpackExponent .binary64 b).toNat ≠ 0 :=
        fun h => hnormal (BitVec.eq_of_toNat_eq h)
      have hbias : (Float.Model.Format.binary64.exponentBias : Int) = 1023 := by decide
      have hlead := toNat_leadingBit (@unpackMantissa .binary64 b)
      rw [pack_normal (by omega) (by omega) (by rw [hbias]; omega) (by rw [hbias]; omega), hlead]
      refine Eq.trans ?_ hword
      congr 1
      · apply BitVec.eq_of_toNat_eq
        rw [BitVec.toNat_ofNat, hbias]
        omega
      · apply BitVec.eq_of_toNat_eq
        rw [BitVec.toNat_ofNat]
        omega

end MissionScript.Binary64

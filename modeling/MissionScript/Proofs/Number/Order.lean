import Mathlib

/-!
The order of numbers. Apart from what is no number, numbers are compared by a key from a linear
order, so one comparison can be chained with another.
-/

namespace MissionScript.Binary64

open Float.Model (UnpackedFloat)
open Float.Model.UnpackedFloat

/-- What numbers are ordered by: their class, then their exponent, then their mantissa. -/
abbrev Key := ℤ ×ₗ ℤ ×ₗ ℤ

def classKey (c e m : Int) : Key :=
  toLex (c, toLex (e, m))

/-- The key of a number. Below zero, a larger exponent or mantissa comes first. -/
def key? : UnpackedFloat → Option Key
  | .notANumber => none
  | .infinity .negative => some (classKey (-2) 0 0)
  | .finite .negative m e _ => some (classKey (-1) (-e) (-m))
  | .zero _ => some (classKey 0 0 0)
  | .finite .positive m e _ => some (classKey 1 e m)
  | .infinity .positive => some (classKey 2 0 0)

theorem cmp_classKey (c e m c' e' m' : Int) :
    cmp (classKey c e m) (classKey c' e' m') =
      (compare c c').then ((compare e e').then (compare m m')) := by
  simp only [cmp, cmpUsing, classKey, Prod.Lex.toLex_lt_toLex]
  rcases Int.lt_trichotomy c c' with h | rfl | h
  · simp [Int.compare_eq_lt.2 h, h]
  · rcases Int.lt_trichotomy e e' with h | rfl | h
    · simp [Int.compare_eq_lt.2 h, h]
    · rcases Int.lt_trichotomy m m' with h | rfl | h
      · simp [Int.compare_eq_lt.2 h, h]
      · simp
      · simp [Int.compare_eq_gt.2 h, h, Int.lt_asymm h]
    · simp [Int.compare_eq_gt.2 h, h, Int.lt_asymm h, Int.ne_of_gt h]
  · simp [Int.compare_eq_gt.2 h, h, Int.lt_asymm h, Int.ne_of_gt h]

theorem compare_neg_neg (a b : Int) : compare (-a) (-b) = (compare a b).swap := by
  rcases Int.lt_trichotomy a b with h | rfl | h
  · rw [Int.compare_eq_lt.2 h, Int.compare_eq_gt.2 (Int.neg_lt_neg h)]
    rfl
  · simp
  · rw [Int.compare_eq_gt.2 h, Int.compare_eq_lt.2 (Int.neg_lt_neg h)]
    rfl

theorem compare_natCast (a b : Nat) : compare (a : Int) (b : Int) = compare a b := by
  rcases Nat.lt_trichotomy a b with h | rfl | h
  · rw [Nat.compare_eq_lt.2 h, Int.compare_eq_lt.2 (Int.ofNat_lt.2 h)]
  · simp
  · rw [Nat.compare_eq_gt.2 h, Int.compare_eq_gt.2 (Int.ofNat_lt.2 h)]

theorem compare_eq_cmp (a b : UnpackedFloat) :
    a.compare b = (key? a).bind fun k => (key? b).map fun l => cmp k l := by
  rcases a with ⟨⟨⟩⟩ | _ | ⟨⟨⟩⟩ | ⟨⟨⟩, m, e, hm⟩ <;>
    rcases b with ⟨⟨⟩⟩ | _ | ⟨⟨⟩⟩ | ⟨⟨⟩, n, f, hn⟩ <;>
    simp only [UnpackedFloat.compare, key?, Option.bind_some, Option.bind_none, Option.map_some,
      Option.map_none, cmp_classKey, compare_neg_neg, compare_natCast]
  all_goals first
    | rfl
    | cases compare e f <;> rfl

theorem le_iff {a b : UnpackedFloat} :
    a.le b = true ↔ ∃ k l, key? a = some k ∧ key? b = some l ∧ k ≤ l := by
  rw [UnpackedFloat.le, compare_eq_cmp]
  cases key? a with
  | none => simp
  | some k =>
    cases key? b with
    | none => simp
    | some l =>
      have hcmp : (cmp k l).isLE = true ↔ k ≤ l := by
        rw [← not_lt, ← cmp_eq_gt_iff, Ordering.isLE_iff_ne_gt]
      simp [hcmp]

theorem lt_iff {a b : UnpackedFloat} :
    a.lt b = true ↔ ∃ k l, key? a = some k ∧ key? b = some l ∧ k < l := by
  rw [UnpackedFloat.lt, compare_eq_cmp]
  cases key? a with
  | none => simp
  | some k =>
    cases key? b with
    | none => simp
    | some l => simp [cmp_eq_lt_iff]

end MissionScript.Binary64

namespace MissionScript

open Binary64

/-- The key that a number is ordered by. -/
def orderKey? (x : Float) : Option Key :=
  key? x.toModel.unpack

theorem le_iff_orderKey {x y : Float} :
    x ≤ y ↔ ∃ k l, orderKey? x = some k ∧ orderKey? y = some l ∧ k ≤ l := by
  have hmodel : x ≤ y ↔ x.toModel.unpack.le y.toModel.unpack = true := decide_eq_true_iff
  rw [hmodel, le_iff]
  rfl

theorem lt_iff_orderKey {x y : Float} :
    x < y ↔ ∃ k l, orderKey? x = some k ∧ orderKey? y = some l ∧ k < l := by
  have hmodel : x < y ↔ x.toModel.unpack.lt y.toModel.unpack = true := decide_eq_true_iff
  rw [hmodel, lt_iff]
  rfl

theorem float_le_trans {x y z : Float} (hxy : x ≤ y) (hyz : y ≤ z) : x ≤ z := by
  obtain ⟨k, l, hk, hl, hkl⟩ := le_iff_orderKey.1 hxy
  obtain ⟨l', m, hl', hm, hlm⟩ := le_iff_orderKey.1 hyz
  obtain rfl := Option.some.inj (hl.symm.trans hl')
  exact le_iff_orderKey.2 ⟨k, m, hk, hm, hkl.trans hlm⟩

/-- What another number is compared with is a number, and it can be compared with itself. -/
theorem float_le_self_of_le {x y : Float} (h : x ≤ y) : y ≤ y ∧ y.isNaN = false := by
  obtain ⟨-, k, -, hk, -⟩ := le_iff_orderKey.1 h
  refine ⟨le_iff_orderKey.2 ⟨k, k, hk, hk, le_rfl⟩, ?_⟩
  unfold Float.isNaN Float.Model.isNaN
  rw [orderKey?] at hk
  cases hunpack : y.toModel.unpack with
  | notANumber =>
    rw [hunpack] at hk
    cases hk
  | infinity | zero | finite => rfl

theorem float_le_of_lt {x y : Float} (hxy : x < y) : x ≤ y := by
  obtain ⟨k, l, hk, hl, hkl⟩ := lt_iff_orderKey.1 hxy
  exact le_iff_orderKey.2 ⟨k, l, hk, hl, hkl.le⟩

/-- Of two numbers that a third is compared with, the one that is not below it is above the one
    that is. -/
theorem float_lt_of_le_of_not_le {x y z z' : Float} (hxz : x ≤ z) (hyz : ¬ y ≤ z) (hyz' : y ≤ z') :
    x < y := by
  obtain ⟨k, m, hk, hm, hkm⟩ := le_iff_orderKey.1 hxz
  obtain ⟨l, -, hl, -, -⟩ := le_iff_orderKey.1 hyz'
  have hlm : ¬ l ≤ m := fun hle => hyz (le_iff_orderKey.2 ⟨l, m, hl, hm, hle⟩)
  exact lt_iff_orderKey.2 ⟨k, l, hk, hl, hkm.trans_lt (not_le.1 hlm)⟩

end MissionScript

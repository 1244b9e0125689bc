import MissionScript.Proofs.Number.Numeral
import MissionScript.Number.Layout
import MissionScript.Number.Reading

/-!
The plain text of a finite number is read as that very number, the sign of zero included. The
digits that were chosen are read back from their layout, and whichever digits are chosen denote the
number.
-/

namespace MissionScript

theorem digitsValue_eq (start : Nat) (digits : List Char) :
    digitsValue start digits = Nat.ofDigitChars 10 digits start := by
  rw [Nat.ofDigitChars_eq_foldl]
  simp only [digitsValue, Nat.mul_comm]

theorem isDigit_of_mem_digitsOf {n : Nat} {c : Char} (hmem : c ∈ digitsOf n) : isDigit c = true :=
  Nat.isDigit_of_mem_toDigits (by omega) (by omega) hmem

theorem digitsValue_digitsOf (n : Nat) : digitsValue 0 (digitsOf n) = n := by
  rw [digitsValue_eq]
  exact Nat.ofDigitChars_toDigits (by omega) (by omega)

/-- Zeros in front of digits do not count. -/
theorem digitsValue_zeros (k : Nat) (digits : List Char) :
    digitsValue 0 (List.replicate k '0' ++ digits) = digitsValue 0 digits := by
  rw [digitsValue_eq, digitsValue_eq, Nat.ofDigitChars_append, Nat.ofDigitChars_replicate_zero,
    Nat.mul_zero]

theorem digitsValue_append (start : Nat) (whole fraction : List Char) :
    digitsValue (digitsValue start whole) fraction = digitsValue start (whole ++ fraction) := by
  simp only [digitsValue, List.foldl_append]

theorem takeWhile_isDigit {digits : List Char} (rest : List Char)
    (hdigits : ∀ c ∈ digits, isDigit c = true) (hrest : ∀ c ∈ rest.head?, isDigit c = false) :
    (digits ++ rest).takeWhile isDigit = digits ∧ (digits ++ rest).dropWhile isDigit = rest := by
  rw [List.takeWhile_append_of_pos hdigits, List.dropWhile_append_of_pos hdigits]
  cases rest with
  | nil => simp
  | cons c rest =>
    have hc := hrest c rfl
    simp [hc]

namespace Decimal

/-- The digits of a numeral as they are written: those before the point, and those after it. -/
def plainDigits (d : Decimal) : List Char × List Char :=
  if 0 ≤ d.exponent then (digitsOf (d.coefficient * Nat.pow 10 d.exponent.toNat), [])
  else
    let digits := digitsOf d.coefficient
    let padded := List.replicate (d.exponent.natAbs + 1 - digits.length) '0' ++ digits
    padded.splitAt (padded.length - d.exponent.natAbs)

theorem text_plain (d : Decimal) :
    d.text .plain = signText d.negative ++ d.plainDigits.1 ++
      (if 0 ≤ d.exponent then [] else '.' :: d.plainDigits.2) := by
  have hplain : d.text .plain = signText d.negative ++ d.positionalText [] := rfl
  rw [hplain]
  unfold positionalText plainDigits
  by_cases hexponent : 0 ≤ d.exponent
  · rw [if_pos hexponent, if_pos hexponent, if_pos hexponent, List.append_nil, List.append_nil]
  · rw [if_neg hexponent, if_neg hexponent, if_neg hexponent]
    simp only [List.splitAt_eq, List.append_assoc]

theorem isDigit_of_mem_plainDigits {d : Decimal} {c : Char}
    (hmem : c ∈ d.plainDigits.1 ∨ c ∈ d.plainDigits.2) : isDigit c = true := by
  unfold plainDigits at hmem
  split at hmem
  · rcases hmem with hmem | hmem
    · exact isDigit_of_mem_digitsOf hmem
    · cases hmem
  · simp only [List.splitAt_eq] at hmem
    have hpadded : c ∈ List.replicate (d.exponent.natAbs + 1 - (digitsOf d.coefficient).length) '0'
        ++ digitsOf d.coefficient :=
      hmem.elim List.mem_of_mem_take List.mem_of_mem_drop
    rcases List.mem_append.1 hpadded with hzero | hdigit
    · rw [List.eq_of_mem_replicate hzero]
      rfl
    · exact isDigit_of_mem_digitsOf hdigit

theorem plainDigits_ne_nil (d : Decimal) : d.plainDigits.1 ≠ [] := by
  unfold plainDigits
  split
  · exact Nat.toDigits_ne_nil
  · simp only [List.splitAt_eq]
    intro hnil
    have hlength := congrArg List.length hnil
    simp only [List.length_take, List.length_append, List.length_replicate, List.length_nil]
      at hlength
    omega

theorem length_plainDigits_snd (d : Decimal) : (d.plainDigits.2.length : Int) = -d.spread.exponent := by
  unfold plainDigits spread
  split <;> split <;>
    simp only [List.splitAt_eq, List.length_drop, List.length_append, List.length_replicate,
      List.length_nil] <;>
    omega

theorem digitsValue_plainDigits (d : Decimal) :
    digitsValue (digitsValue 0 d.plainDigits.1) d.plainDigits.2 = d.spread.coefficient := by
  rw [digitsValue_append]
  unfold plainDigits spread
  by_cases hexponent : 0 ≤ d.exponent
  · rw [if_pos hexponent, List.append_nil, digitsValue_digitsOf]
    split
    · rfl
    · have hzero : d.exponent.toNat = 0 := by omega
      rw [hzero, Nat.pow_eq, Nat.pow_zero, Nat.mul_one]
  · rw [if_neg hexponent, if_neg (by omega), List.splitAt_eq, List.take_append_drop,
      digitsValue_zeros, digitsValue_digitsOf]

theorem spread_negative (d : Decimal) : d.spread.negative = d.negative := by
  unfold spread
  split <;> rfl

theorem readSign_signText (negative : Bool) {digits : List Char} {c : Char}
    (hhead : digits.head? = some c) (hdigit : isDigit c = true) :
    readSign (signText negative ++ digits) = (negative, digits) := by
  obtain ⟨rest, rfl⟩ := List.head?_eq_some_iff.1 hhead
  cases negative with
  | true => rfl
  | false =>
    change readSign (c :: rest) = _
    unfold readSign
    split
    · next heq =>
      obtain ⟨rfl, -⟩ := List.cons.inj heq
      exact absurd hdigit (by decide)
    · next heq =>
      obtain ⟨rfl, -⟩ := List.cons.inj heq
      exact absurd hdigit (by decide)
    · rfl

/-- What is written for a numeral is read as the numeral with its zeros written out. -/
theorem read?_text_plain (d : Decimal) : read? (d.text .plain) = some d.spread := by
  have hfirst : ∀ c ∈ d.plainDigits.1, isDigit c = true := fun c hc =>
    isDigit_of_mem_plainDigits (Or.inl hc)
  have hsecond : ∀ c ∈ d.plainDigits.2, isDigit c = true := fun c hc =>
    isDigit_of_mem_plainDigits (Or.inr hc)
  obtain ⟨first, digits, hcons⟩ := List.exists_cons_of_ne_nil d.plainDigits_ne_nil
  have hsign : readSign (d.text .plain) = (d.negative, d.plainDigits.1 ++
      (if 0 ≤ d.exponent then [] else '.' :: d.plainDigits.2)) := by
    rw [text_plain, List.append_assoc]
    refine readSign_signText d.negative (c := first) ?_ (hfirst first (by simp [hcons]))
    simp [hcons]
  have hdigits : readDigits (d.plainDigits.1 ++
      (if 0 ≤ d.exponent then [] else '.' :: d.plainDigits.2)) =
        (d.plainDigits.1, d.plainDigits.2, []) := by
    unfold readDigits
    by_cases hexponent : 0 ≤ d.exponent
    · have hempty : d.plainDigits.2 = [] := by simp [plainDigits, hexponent]
      obtain ⟨htake, hdrop⟩ := takeWhile_isDigit [] hfirst (by simp)
      rw [if_pos hexponent, htake, hdrop, hempty]
    · obtain ⟨htake, hdrop⟩ := takeWhile_isDigit ('.' :: d.plainDigits.2) hfirst (by
        rintro _ ⟨⟩
        decide)
      obtain ⟨htake', hdrop'⟩ := takeWhile_isDigit [] hsecond (by simp)
      rw [List.append_nil] at htake' hdrop'
      rw [if_neg hexponent, htake, hdrop]
      simp only [htake', hdrop']
  have hnonempty : d.plainDigits.1.isEmpty = false := by simp [hcons]
  have hexponent : (0 : Int) - d.plainDigits.2.length = d.spread.exponent := by
    rw [length_plainDigits_snd]
    omega
  have hspread : (⟨d.negative, d.spread.coefficient, d.spread.exponent⟩ : Decimal) = d.spread := by
    rw [← spread_negative d]
  unfold read?
  simp only [hsign, hdigits, hnonempty, Bool.false_and, readExponent, digitsValue_plainDigits,
    hexponent, Option.map_some, hspread]
  rfl

/-- The characters of a plain numeral: at most a sign at the beginning, then a digit, then digits
    and a point among them. -/
theorem exists_text_plain (d : Decimal) : ∃ digit rest,
    d.text .plain = signText d.negative ++ digit :: rest ∧ isDigit digit = true ∧
      ∀ c ∈ rest, isDigit c = true ∨ c = '.' := by
  obtain ⟨digit, digits, hcons⟩ := List.exists_cons_of_ne_nil d.plainDigits_ne_nil
  refine ⟨digit, digits ++ (if 0 ≤ d.exponent then [] else '.' :: d.plainDigits.2), ?_,
    isDigit_of_mem_plainDigits (d := d) (Or.inl (by simp [hcons])), ?_⟩
  · rw [text_plain, hcons, List.append_assoc, List.cons_append]
  · intro c hmem
    rcases List.mem_append.1 hmem with hwhole | hfraction
    · exact Or.inl (isDigit_of_mem_plainDigits (d := d) (Or.inl (by simp [hcons, hwhole])))
    · split at hfraction
      · cases hfraction
      · rcases List.mem_cons.1 hfraction with rfl | hdigit
        · exact Or.inr rfl
        · exact Or.inl (isDigit_of_mem_plainDigits (Or.inr hdigit))

end Decimal

open Binary64 Float.Model.UnpackedFloat

theorem eq_of_toBits_eq {x y : Float} (h : x.toBits = y.toBits) : x = y := by
  obtain ⟨⟨bits, hbits⟩⟩ := x
  obtain ⟨⟨bits', hbits'⟩⟩ := y
  obtain rfl : bits = bits' := h
  rfl

theorem exists_floatParts {x : Float} (h : x.isFinite = true) :
    ∃ negative m e, floatParts x = .finite negative m e := by
  change x.toModel.unpack.isFinite = true at h
  unfold floatParts
  cases hunpack : x.toModel.unpack with
  | notANumber | infinity => simp [hunpack, isFinite] at h
  | zero s => exact ⟨_, _, _, rfl⟩
  | finite s m e hpos => exact ⟨_, _, _, rfl⟩

theorem neg_pack {u : Float.Model.UnpackedFloat} (h : IsCanonical u) :
    -Float.ofModel (.pack u) = .ofModel (.pack u.neg) := by
  change Float.ofModel (Float.Model.pack (Float.Model.pack u).unpack.neg) = _
  rw [unpack_pack h]

namespace Decimal

/-- The numeral with all digits of a positive number denotes it. -/
theorem toFloat_exact {m : Nat} {e : Int} {hpos : 0 < m}
    (h : IsCanonical (.finite .positive m e hpos)) :
    (exact false m e).spread.toFloat = .ofModel (.pack (.finite .positive m e hpos)) := by
  unfold exact
  by_cases hexponent : 0 ≤ e
  · rw [if_pos hexponent]
    refine ofScientific_whole h ?_
    have hshift := magnitude_shift m e.toNat e
    rw [show e - e.toNat = 0 by omega, magnitude_zero_exponent] at hshift
    exact hshift
  · rw [if_neg hexponent, spread_eq_self_iff.2 (by simp only; omega)]
    obtain ⟨k, rfl⟩ : ∃ k : Nat, e = -(k : Int) := ⟨e.natAbs, by omega⟩
    have hnegative : decide (-(k : Int) < 0) = true := by
      rw [decide_eq_true_eq]
      omega
    unfold toFloat
    simp only [hnegative, neg_neg, Int.toNat_natCast, Int.natAbs_neg, Int.natAbs_natCast]
    refine ofScientific_fraction h ?_
    have hten : (10 : ℚ) ^ k = 2 ^ k * 5 ^ k := by
      rw [← mul_pow]
      norm_num
    unfold magnitude
    rw [Nat.pow_eq, zpow_neg, zpow_natCast]
    push_cast
    rw [hten]
    field_simp

/-- The sign of a numeral is the sign of the number it denotes. -/
theorem toFloat_exact_negative (m : Nat) (e : Int) :
    (exact true m e).spread.toFloat = -(exact false m e).spread.toFloat := by
  unfold exact
  split
  · rfl
  · rw [spread_eq_self_iff.2 (by simp only; omega), spread_eq_self_iff.2 (by simp only; omega)]
    rfl

theorem readsAs_iff {x : Float} {d : Decimal} : readsAs x d = true ↔ d.spread.toFloat = x := by
  unfold readsAs
  rw [beq_iff_eq]
  exact ⟨eq_of_toBits_eq, fun h => by rw [h]⟩

/-- A numeral with all digits of a number is read as the number. -/
theorem readsAs_exact {x : Float} {negative : Bool} {m : Nat} {e : Int} (hm : m ≠ 0)
    (h : floatParts x = .finite negative m e) : readsAs x (exact negative m e) = true := by
  have hcanonical := isCanonical_unpack x.toModel
  have hx : x = .ofModel (.pack x.toModel.unpack) := by
    rw [pack_unpack]
  rw [readsAs_iff]
  unfold floatParts at h
  split at h <;> cases h
  · exact absurd rfl hm
  · next s hpos hunpack =>
    rw [hunpack] at hcanonical hx
    have hpositive : (exact false m e).spread.toFloat = .ofModel (.pack (.finite .positive m e hpos)) :=
      toFloat_exact hcanonical
    cases s with
    | positive => exact hpositive.trans hx.symm
    | negative =>
      refine (toFloat_exact_negative m e).trans ?_
      rw [hpositive, neg_pack (u := .finite .positive m e hpos) hcanonical]
      exact hx.symm

/-- The numeral that is chosen for a number is read as the number. -/
theorem toFloat_shortest {x : Float} {negative : Bool} {m : Nat} {e : Int} (tie : Tie)
    (h : floatParts x = .finite negative m e) :
    (shortest tie x negative m e).spread.toFloat = x := by
  rw [← readsAs_iff]
  unfold shortest
  split
  · next hm =>
    subst hm
    unfold floatParts at h
    split at h <;> cases h
    · next s hunpack =>
      have hx : x = .ofModel (.pack (.zero s)) := by
        rw [← hunpack, pack_unpack]
      rw [readsAs_iff, hx]
      cases s <;> decide +kernel
    · next hpos _ => exact absurd hpos (by omega)
  · next hm =>
    simp only
    cases hfind : List.find? (readsAs x) _ with
    | none => exact readsAs_exact hm h
    | some d => exact readsAs_of_find? hfind

end Decimal

/-- The text of a finite number is read as the number. -/
theorem readNumber?_numberText {x : Float} (h : x.isFinite = true) :
    readNumber? (numberText .plain x) = some x := by
  obtain ⟨negative, m, e, hparts⟩ := exists_floatParts h
  unfold readNumber? numberText
  simp only [hparts, Decimal.read?_text_plain, Option.map_some, Decimal.toFloat_shortest _ hparts,
    Option.filter_some, h, if_true]

end MissionScript

import ExchangeRates.Decimal.Exact
import Mathlib.Algebra.Order.Ring.Int

namespace ExchangeRates.Decimal

open Float.Model

/-- The fraction bits of a float. -/
def fractionBits (x : Float) : BitVec 52 :=
  @UnpackedFloat.unpackMantissa Format.binary64 x.toModel.toBits.toBitVec

/-- The exponent bits of a float. -/
def exponentBits (x : Float) : BitVec 11 :=
  @UnpackedFloat.unpackExponent Format.binary64 x.toModel.toBits.toBitVec

theorem toNat_fractionBits (x : Float) :
    (fractionBits x).toNat = x.toBits.toNat % twoPow 52 := by
  rw [fractionBits, UnpackedFloat.unpackMantissa, BitVec.toNat_cast, BitVec.extractLsb_toNat]
  rfl

theorem toNat_exponentBits (x : Float) :
    (exponentBits x).toNat = x.toBits.toNat / twoPow 52 % twoPow 11 := by
  rw [exponentBits, UnpackedFloat.unpackExponent, BitVec.toNat_cast, BitVec.extractLsb_toNat,
    Nat.shiftRight_eq_div_pow]
  rfl

theorem significand_of_exponentBits_eq_zero {x : Float} (h : exponentBits x = 0#11) :
    significand x = ((fractionBits x).toNat, -1074) := by
  have hzero : x.toBits.toNat / twoPow 52 % twoPow 11 = 0 := by
    rw [← toNat_exponentBits, h]
    rfl
  rw [significand, if_pos hzero, toNat_fractionBits]

theorem significand_of_exponentBits_ne_zero {x : Float} (h : exponentBits x ≠ 0#11) :
    significand x = ((1#1 ++ fractionBits x).toNat, ((exponentBits x).toNat : Int) - 1075) := by
  have hzero : x.toBits.toNat / twoPow 52 % twoPow 11 ≠ 0 := by
    rw [← toNat_exponentBits]
    exact fun hzero => h (BitVec.eq_of_toNat_eq hzero)
  have hbits : (1#1 ++ fractionBits x).toNat = (fractionBits x).toNat + twoPow 52 := by
    rw [BitVec.toNat_append, ← Nat.shiftLeft_add_eq_or_of_lt (fractionBits x).isLt, Nat.add_comm]
    rfl
  rw [significand, if_neg hzero, hbits, toNat_fractionBits, toNat_exponentBits]

/-- The bits of a significand, the first of which is set unless the power is the least. -/
structure Scaled (digits : Nat) (exponent : Int) : Prop where
  digits_lt : digits < twoPow 53
  digits_ge : twoPow 52 ≤ digits ∨ exponent = -1074

theorem scaled_significand (x : Float) : Scaled (significand x).1 (significand x).2 := by
  have hfraction : x.toBits.toNat % twoPow 52 < twoPow 52 := Nat.mod_lt _ (Nat.two_pow_pos 52)
  have hdouble : twoPow 53 = twoPow 52 + twoPow 52 := by decide
  unfold significand
  dsimp only
  split
  · exact ⟨by dsimp only; omega, .inr rfl⟩
  · exact ⟨by dsimp only; omega, .inl (Nat.le_add_left _ _)⟩

theorem not_isFinite_of_exponentBits {x : Float} (h : exponentBits x = -1#11) :
    x.isFinite = false := by
  change UnpackedFloat.isFinite (ite (exponentBits x = -1#11) _ _) = false
  rw [if_pos h]
  split <;> rfl

theorem unpack_of_normal {x : Float} (hspecial : exponentBits x ≠ -1#11)
    (hnormal : exponentBits x ≠ 0#11) :
    ∃ sign hpos, x.toModel.unpack =
      .finite sign (1#1 ++ fractionBits x).toNat ((exponentBits x).toNat - 1075) hpos :=
  ⟨_, _, (if_neg hspecial).trans (if_neg hnormal)⟩

theorem unpack_of_subnormal {x : Float} (h : exponentBits x = 0#11) :
    ∃ sign, fractionBits x = 0#52 ∧ x.toModel.unpack = .zero sign ∨
      ∃ hpos, x.toModel.unpack = .finite sign (fractionBits x).toNat (-1074) hpos := by
  have hspecial : exponentBits x ≠ -1#11 := by
    rw [h]
    decide
  by_cases hfraction : fractionBits x = 0#52
  · exact ⟨_, .inl ⟨hfraction, (if_neg hspecial).trans ((if_pos h).trans (dif_pos hfraction))⟩⟩
  · obtain ⟨sign, hpos, hunpack⟩ : ∃ sign hpos, x.toModel.unpack =
        .finite sign (fractionBits x).toNat ((exponentBits x).toNat - 1075 + 1) hpos :=
      ⟨_, _, (if_neg hspecial).trans ((if_pos h).trans (dif_neg hfraction))⟩
    rw [h] at hunpack
    exact ⟨sign, .inr ⟨hpos, hunpack⟩⟩

/-- A finite float is zero or made of its significand and a sign. -/
theorem unpack_of_isFinite {x : Float} (h : x.isFinite = true) :
    ∃ sign, (significand x).1 = 0 ∧ x.toModel.unpack = .zero sign ∨ ∃ hpos,
      x.toModel.unpack = .finite sign (significand x).1 (significand x).2 hpos := by
  have hspecial : exponentBits x ≠ -1#11 := by
    intro hbits
    rw [not_isFinite_of_exponentBits hbits] at h
    cases h
  by_cases hbits : exponentBits x = 0#11
  · rw [significand_of_exponentBits_eq_zero hbits]
    obtain ⟨sign, ⟨hzero, hunpack⟩ | hunpack⟩ := unpack_of_subnormal hbits
    · exact ⟨sign, .inl ⟨by rw [hzero]; rfl, hunpack⟩⟩
    · exact ⟨sign, .inr hunpack⟩
  · rw [significand_of_exponentBits_ne_zero hbits]
    obtain ⟨sign, hunpack⟩ := unpack_of_normal hspecial hbits
    exact ⟨sign, .inr hunpack⟩

theorem lt_iff_unpack {x y : Float} : x < y ↔ x.toModel.unpack.lt y.toModel.unpack = true := by
  change decide (x.toModel < y.toModel) = true ↔ _
  rw [decide_eq_true_iff]
  rfl

theorem le_iff_unpack {x y : Float} : x ≤ y ↔ x.toModel.unpack.le y.toModel.unpack = true := by
  change decide (x.toModel ≤ y.toModel) = true ↔ _
  rw [decide_eq_true_iff]
  rfl

/-- A float is equal to itself, unless it is no number. -/
theorem beq_self_or_isNaN (x : Float) : (x == x || x.isNaN) = true := by
  change (x.toModel.unpack.beq x.toModel.unpack || x.toModel.unpack.isNaN) = true
  cases x.toModel.unpack with
  | notANumber => rfl
  | infinity sign => cases sign <;> rfl
  | zero sign => rfl
  | finite sign digits power hpos =>
    have hcompare : (compare power power).then (compare digits digits) = .eq := by
      rw [Std.compare_self, Std.compare_self]
      rfl
    cases sign with
    | positive =>
      change (some ((compare power power).then (compare digits digits)) == some .eq || false) = true
      rw [hcompare]
      rfl
    | negative =>
      change (some ((compare power power).then (compare digits digits)).swap == some .eq || false) =
        true
      rw [hcompare]
      rfl

theorem isFinite_eq_false_of_isNaN {x : Float} (h : x.isNaN = true) : x.isFinite = false := by
  change x.toModel.unpack.isNaN = true at h
  change x.toModel.unpack.isFinite = false
  cases hunpack : x.toModel.unpack with
  | notANumber => rfl
  | _ =>
    rw [hunpack] at h
    cases h

/-- A finite float that is not negative is zero or made of its significand. -/
theorem unpack_of_nonneg {x : Float} (hfinite : x.isFinite = true) (hnonneg : 0.0 ≤ x) :
    (∃ sign, (significand x).1 = 0 ∧ x.toModel.unpack = .zero sign) ∨ ∃ hpos,
      x.toModel.unpack = .finite .positive (significand x).1 (significand x).2 hpos := by
  obtain ⟨sign, hzero | ⟨hpos, hunpack⟩⟩ := unpack_of_isFinite hfinite
  · exact .inl ⟨sign, hzero⟩
  · cases sign with
    | positive => exact .inr ⟨hpos, hunpack⟩
    | negative =>
      rw [le_iff_unpack, hunpack] at hnonneg
      cases hnonneg

theorem not_lt_zero_of_nonneg {x : Float} (hfinite : x.isFinite = true) (hnonneg : 0.0 ≤ x) :
    ¬ x < 0.0 := by
  rw [lt_iff_unpack]
  obtain ⟨sign, -, hunpack⟩ | ⟨hpos, hunpack⟩ := unpack_of_nonneg hfinite hnonneg
  all_goals
    rw [hunpack]
    rintro ⟨⟩

/-- The exact value of a finite float is at least a power of two. -/
def AtLeastTwoPow (n : Nat) (x : Float) : Prop :=
  twoPow n * twoPow (-(significand x).2).toNat ≤
    (significand x).1 * twoPow (significand x).2.toNat

instance (n : Nat) (x : Float) : Decidable (AtLeastTwoPow n x) :=
  inferInstanceAs (Decidable (_ ≤ _))

/-- Below `2 ^ 64` are the significands with a power below `2 ^ 12`. -/
theorem Scaled.mul_lt_iff {digits : Nat} {exponent : Int} (h : Scaled digits exponent) :
    digits * twoPow exponent.toNat < twoPow 64 * twoPow (-exponent).toNat ↔ exponent < 12 := by
  obtain ⟨hlt, hge⟩ := h
  unfold twoPow at *
  rcases lt_or_ge exponent 0 with hnegative | hnonneg
  · rw [Int.toNat_of_nonpos hnegative.le]
    have hone : 0 < 2 ^ (-exponent).toNat := Nat.two_pow_pos _
    exact iff_of_true (by simp only [Nat.pow_eq] at *; omega) (by omega)
  · obtain ⟨n, rfl⟩ := Int.eq_ofNat_of_zero_le hnonneg
    rw [Int.toNat_of_nonpos (by omega : -(n : Int) ≤ 0), Int.toNat_natCast]
    rcases lt_or_ge n 12 with hsmall | hlarge
    · refine iff_of_true ?_ (by omega)
      have hpow : 2 ^ n ≤ 2 ^ 11 := Nat.pow_le_pow_right (by decide) (by omega)
      calc digits * 2 ^ n ≤ digits * 2 ^ 11 := Nat.mul_le_mul_left _ hpow
        _ < 2 ^ 53 * 2 ^ 11 := Nat.mul_lt_mul_of_pos_right hlt (by decide)
        _ = 2 ^ 64 * 2 ^ 0 := by decide
    · refine iff_of_false (Nat.not_lt.mpr ?_) (by omega)
      have hpow : 2 ^ 12 ≤ 2 ^ n := Nat.pow_le_pow_right (by decide) hlarge
      calc 2 ^ 64 * 2 ^ 0 = 2 ^ 52 * 2 ^ 12 := by decide
        _ ≤ digits * 2 ^ n := Nat.mul_le_mul (hge.resolve_right (by omega)) hpow

theorem lt_twoPow_64_iff {x : Float} (hfinite : x.isFinite = true) (hnonneg : 0.0 ≤ x) :
    x < 18446744073709551616.0 ↔ ¬ AtLeastTwoPow 64 x := by
  have hbound : (18446744073709551616.0 : Float).toModel.unpack =
      .finite .positive (twoPow 52) 12 (by decide) := rfl
  have hscaled := scaled_significand x
  rw [lt_iff_unpack, hbound, AtLeastTwoPow, not_le, hscaled.mul_lt_iff]
  obtain ⟨sign, hzero, hunpack⟩ | ⟨hpos, hunpack⟩ := unpack_of_nonneg hfinite hnonneg
  · rw [hunpack]
    refine iff_of_true rfl ?_
    have hdigits := hscaled.digits_ge
    rw [hzero] at hdigits
    exact hdigits.elim (fun h => absurd h (by decide)) fun h => by omega
  · rw [hunpack]
    change (some ((compare (significand x).2 12).then (compare (significand x).1 (twoPow 52))) ==
      some .lt) = true ↔ _
    rw [beq_iff_eq, Option.some_inj, Ordering.then_eq_lt, compare_lt_iff_lt, compare_lt_iff_lt,
      compare_eq_iff_eq]
    have hdigits := hscaled.digits_ge
    omega

/-- A division rounds to zero exactly if the quotient is at most one half. -/
theorem roundDiv_eq_zero_iff {num den : Nat} (hden : 0 < den) :
    roundDiv num den = 0 ↔ 2 * num ≤ den := by
  unfold roundDiv
  dsimp only
  by_cases hlt : num < den
  · rw [Nat.div_eq_of_lt hlt, Nat.mod_eq_of_lt hlt]
    split <;> omega
  · have hquotient : 0 < num / den := Nat.div_pos (Nat.le_of_not_lt hlt) hden
    split <;> omega

end ExchangeRates.Decimal

import ExchangeRates.Duration
import ExchangeRates.Proofs.Decimal.Exact

namespace ExchangeRates.Duration

variable {x : Float}

/-- A float number of seconds is a duration. -/
def Fits (x : Float) : Prop := ¬ x < 0.0 ∧ x < 18446744073709551616.0

theorem ofFloat_of_fits (h : Fits x) : ofFloat x = .ok ⟨nearestNanos x⟩ := by
  rw [ofFloat, if_neg h.1, if_pos h.2]

theorem ofFloat_of_not_fits (h : ¬ Fits x) : ∃ cause, ofFloat x = .error cause := by
  unfold ofFloat
  split
  · exact ⟨_, rfl⟩
  · next hnegative =>
    rw [if_neg fun hbelow => h ⟨hnegative, hbelow⟩]
    exact ⟨_, rfl⟩

theorem ofFloat_eq_ok_iff {d : Duration} :
    ofFloat x = .ok d ↔ Fits x ∧ d = ⟨nearestNanos x⟩ := by
  by_cases hfits : Fits x
  · simp [ofFloat_of_fits hfits, hfits, eq_comm]
  · obtain ⟨cause, hcause⟩ := ofFloat_of_not_fits hfits
    simp [hcause, hfits]

theorem fits_iff (hfinite : x.isFinite = true) (hnonneg : 0.0 ≤ x) :
    Fits x ↔ ¬ Decimal.AtLeastTwoPow 64 x := by
  rw [Fits, and_iff_right (Decimal.not_lt_zero_of_nonneg hfinite hnonneg),
    Decimal.lt_twoPow_64_iff hfinite hnonneg]

theorem ofFloat_of_atLeastTwoPow (hfinite : x.isFinite = true) (hnonneg : 0.0 ≤ x)
    (h : Decimal.AtLeastTwoPow 64 x) : ofFloat x = .error .tooBigOrNaN := by
  have hbelow : ¬ x < 18446744073709551616.0 := by
    rw [Decimal.lt_twoPow_64_iff hfinite hnonneg]
    exact not_not_intro h
  rw [ofFloat, if_neg (Decimal.not_lt_zero_of_nonneg hfinite hnonneg), if_neg hbelow]

/-- The exact value of a float number of seconds is at most half a nanosecond. -/
def AtMostHalfNano (x : Float) : Prop :=
  2 * ((Decimal.significand x).1 * nanosPerSecond *
    Decimal.twoPow (Decimal.significand x).2.toNat) ≤
      Decimal.twoPow (-(Decimal.significand x).2).toNat

instance (x : Float) : Decidable (AtMostHalfNano x) := inferInstanceAs (Decidable (_ ≤ _))

theorem nearestNanos_eq_zero_iff (x : Float) : nearestNanos x = 0 ↔ AtMostHalfNano x := by
  unfold nearestNanos AtMostHalfNano
  cases Decimal.significand x with
  | mk digits exponent =>
    dsimp only
    have hpow (n : Nat) : 0 < Decimal.twoPow n := Nat.two_pow_pos n
    split
    · next hneg =>
      obtain ⟨k, rfl⟩ := Int.eq_negSucc_of_lt_zero hneg
      rw [Decimal.roundDiv_eq_zero_iff (hpow _)]
      simp [Decimal.twoPow]
    · next hpos =>
      obtain ⟨k, rfl⟩ := Int.eq_ofNat_of_zero_le (Int.not_lt.mp hpos)
      have hone : Decimal.twoPow (-(k : Int)).toNat = 1 := by simp [Decimal.twoPow]
      rw [hone, Int.natAbs_natCast, Int.toNat_natCast]
      omega

end ExchangeRates.Duration

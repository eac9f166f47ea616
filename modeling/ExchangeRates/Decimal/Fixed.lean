import ExchangeRates.Decimal.Exact

namespace ExchangeRates.Decimal

/-- The nearest multiple of `10 ^ -places` to a finite float's magnitude, in such units. -/
def nearestUnits (places : Nat) (x : Float) : Nat :=
  let (digits, exponent) := significand x
  if exponent < 0 then roundDiv (digits * tenPow places) (twoPow exponent.natAbs)
  else digits * tenPow places * twoPow exponent.natAbs

/-- A number with zeros in front of it, up to a width. -/
def padded (width n : Nat) : String :=
  let digits := toString n
  "".pushn '0' (width - digits.length) ++ digits

/-- The text of a finite float with at least one place after the point. -/
def fixed (places : Nat) (x : Float) : String :=
  let units := nearestUnits places x
  let sign := if isNegative x then "-" else ""
  sign ++ toString (units / tenPow places) ++ "." ++ padded places (units % tenPow places)

end ExchangeRates.Decimal

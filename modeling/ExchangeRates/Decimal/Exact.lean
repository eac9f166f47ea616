namespace ExchangeRates.Decimal

/-- A power of two. -/
def twoPow (n : Nat) : Nat := Nat.pow 2 n

/-- A power of ten. -/
def tenPow (n : Nat) : Nat := Nat.pow 10 n

/-- The quotient of two numbers rounded to the nearest number, a tie going to the even one. -/
def roundDiv (num den : Nat) : Nat :=
  let quotient := num / den
  let twice := 2 * (num % den)
  if twice < den ∨ twice = den ∧ quotient % 2 = 0 then quotient else quotient + 1

/-- The fraction bits of a finite float, with the hidden bit if it has one, and the power of two
they are to be multiplied by. -/
def significand (x : Float) : Nat × Int :=
  let bits := x.toBits.toNat
  let fraction := bits % twoPow 52
  let exponent : Nat := bits / twoPow 52 % twoPow 11
  if exponent = 0 then (fraction, -1074) else (fraction + twoPow 52, (exponent : Int) - 1075)

/-- Whether a float has its sign bit set. -/
def isNegative (x : Float) : Bool := twoPow 63 ≤ x.toBits.toNat

end ExchangeRates.Decimal

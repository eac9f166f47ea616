import ExchangeRates.Decimal.Exact

namespace ExchangeRates.Decimal

/-- A decimal number: digits and the power of ten they are to be multiplied by. -/
structure Scientific where
  digits : Nat
  exponent : Int
deriving DecidableEq, Repr

/-- The reals that round to a positive float, as multiples of `unit / den`. -/
structure Interval where
  low : Nat
  value : Nat
  high : Nat
  /-- Whether the ends belong to the interval. -/
  closed : Bool
  unit : Nat
  den : Nat

/-- The interval of a positive finite float. Below a power of two the floats are closer together. -/
def Interval.around (x : Float) : Interval :=
  let (m, q) := significand x
  let below := if m = twoPow 52 ∧ -1074 < q then 1 else 2
  let exponent := q - 2
  ⟨4 * m - below, 4 * m, 4 * m + 2, m % 2 = 0,
    if 0 ≤ exponent then twoPow exponent.natAbs else 1,
    if exponent < 0 then twoPow exponent.natAbs else 1⟩

namespace Interval

/-- A point of the grid of a power of ten, in the units that the bounds times `boundFactor` are
in. -/
def pointFactor (i : Interval) (power : Int) : Nat :=
  i.den * (if 0 ≤ power then tenPow power.natAbs else 1)

/-- What a bound is to be multiplied by to be compared with a point of the grid. -/
def boundFactor (i : Interval) (power : Int) : Nat :=
  i.unit * (if power < 0 then tenPow power.natAbs else 1)

/-- Whether a point of the grid lies in the interval. -/
def contains (i : Interval) (power : Int) (digits : Nat) : Bool :=
  let point := digits * i.pointFactor power
  let low := i.low * i.boundFactor power
  let high := i.high * i.boundFactor power
  low < point && point < high || i.closed && (point == low || point == high)

/-- The power of ten of the first digit of the value. -/
def order (i : Interval) : Int :=
  ((Nat.toDigits 10 (i.value * i.unit * tenPow 340 / i.den)).length : Int) - 341

/-- The point nearest to the value, of those of a grid that lie in the interval. -/
def point? (i : Interval) (power : Int) : Option Nat :=
  let exact := i.value * i.boundFactor power
  let step := i.pointFactor power
  let below := exact / step
  let rest := exact % step
  match i.contains power below, i.contains power (below + 1) with
  | true, true =>
    some (if 2 * rest < step ∨ 2 * rest = step ∧ below % 2 = 0 then below else below + 1)
  | true, false => some below
  | false, true => some (below + 1)
  | false, false => none

/-- The number with the fewest digits in the interval, which has no more than 17. Of the grids of
one digit, two digits and so on, it is on the first that has a point in the interval. -/
def shortest (i : Interval) : Scientific :=
  let found := (List.range 17).findSome? fun (n : Nat) =>
    let power := i.order - n
    (i.point? power).map fun digits => Scientific.mk digits power
  found.getD ⟨0, 0⟩

end Interval

/-- Whole tens are taken out of the digits. -/
def Scientific.strip (s : Scientific) : Scientific :=
  if h : s.digits ≠ 0 ∧ s.digits % 10 = 0 then
    Scientific.strip ⟨s.digits / 10, s.exponent + 1⟩
  else s
termination_by s.digits
decreasing_by exact Nat.div_lt_self (Nat.pos_of_ne_zero h.1) (by decide)

/-- The fewest digits that read back as a finite float's magnitude. -/
def shortest (x : Float) : Scientific :=
  if x == 0.0 then ⟨0, 0⟩ else (Interval.around x).shortest.strip

/-- When a float is written without a power of ten: if the power of its first digit lies between
these bounds. -/
structure FloatStyle where
  leastOrder : Int
  greatestOrder : Int

/-- The text of a finite float. -/
def FloatStyle.text (style : FloatStyle) (x : Float) : String :=
  let s := shortest x
  let digits := toString s.digits
  let order := s.exponent + digits.length - 1
  let sign := if isNegative x then "-" else ""
  let body :=
    if s.digits = 0 then "0.0"
    else if order < style.leastOrder ∨ style.greatestOrder < order then
      let fraction := digits.drop 1
      (digits.take 1).toString ++ (if fraction.isEmpty then "" else "." ++ fraction.toString) ++
        "e" ++ toString order
    else if order < 0 then "0." ++ "".pushn '0' (order.natAbs - 1) ++ digits
    else
      let places := order.natAbs + 1
      let whole := (digits.take places).toString.pushn '0' (places - digits.length)
      let fraction := (digits.drop places).toString
      whole ++ "." ++ (if fraction.isEmpty then "0" else fraction)
  sign ++ body

end ExchangeRates.Decimal

import ExchangeRates.Decimal.Exact

namespace ExchangeRates

/-- A span of time. -/
structure Duration where
  nanos : Nat
deriving DecidableEq, Repr

/-- A point in time: the nanoseconds since the clock began. -/
abbrev Instant := Nat

namespace Duration

def nanosPerSecond : Nat := 1000000000

def nanosPerMilli : Nat := 1000000

def zero : Duration := ⟨0⟩

def ofSeconds (n : Nat) : Duration := ⟨n * nanosPerSecond⟩

def ofMillis (n : Nat) : Duration := ⟨n * nanosPerMilli⟩

/-- Whether a duration is no time at all. -/
def isZero (d : Duration) : Bool := d.nanos == 0

/-- The whole seconds. -/
def seconds (d : Duration) : Nat := d.nanos / nanosPerSecond

/-- The nanoseconds beyond the whole seconds. -/
def subsecond (d : Duration) : Nat := d.nanos % nanosPerSecond

/-- The whole milliseconds. -/
def millis (d : Duration) : Nat := d.nanos / nanosPerMilli

/-- The duration as a float: the seconds and the fraction are rounded, and so is their sum. -/
def toSeconds (d : Duration) : Float :=
  Float.ofNat d.seconds + Float.ofNat d.subsecond / 1e9

/-- Why a float is no duration. -/
inductive FloatError where
  | negative
  | tooBigOrNaN
deriving DecidableEq, Repr

def FloatError.message : FloatError → String
  | negative => "cannot convert float seconds to Duration: value is negative"
  | tooBigOrNaN => "cannot convert float seconds to Duration: value is either too big or NaN"

/-- The nanoseconds nearest to a finite float number of seconds that is not negative, of two equally
near ones the even one. -/
def nearestNanos (x : Float) : Nat :=
  let (digits, exponent) := Decimal.significand x
  if exponent < 0 then Decimal.roundDiv (digits * nanosPerSecond) (Decimal.twoPow exponent.natAbs)
  else digits * nanosPerSecond * Decimal.twoPow exponent.natAbs

/-- The duration of a float number of seconds, which has to be less than `2 ^ 64`. -/
def ofFloat (x : Float) : Except FloatError Duration :=
  if x < 0.0 then .error .negative
  else if x < 18446744073709551616.0 then .ok ⟨nearestNanos x⟩
  else .error .tooBigOrNaN

end Duration

end ExchangeRates

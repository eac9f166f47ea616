import ExchangeRates.Duration

namespace ExchangeRates

/-- What ends a computation, or a background task, without a result. -/
inductive Fault where
  /-- A float number of seconds is no duration. -/
  | noDuration (cause : Duration.FloatError)
  /-- A ticker would tick without end at one instant. -/
  | zeroPeriod
  /-- A deadline lies beyond the end of the clock. -/
  | clockOverflow
  /-- A feed broke down with a text. -/
  | breakdown (text : String)
  /-- A feed broke down without a text. -/
  | silentBreakdown
deriving DecidableEq, Repr

def Fault.message : Fault → String
  | noDuration cause => cause.message
  | zeroPeriod => "`period` must be non-zero."
  | clockOverflow => "overflow when adding duration to instant"
  | breakdown text => text
  | silentBreakdown => "unknown panic"

end ExchangeRates

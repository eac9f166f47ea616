namespace ExchangeRates

/-- A latch. It is armed until its report has been let through, and never again. -/
structure Latch where
  armed : Bool
deriving DecidableEq, Repr

namespace Latch

/-- A new latch is armed. -/
def new : Latch := ⟨true⟩

/-- Whether this is the first report, after which the latch is disarmed. -/
def trip (l : Latch) : Bool × Latch := (l.armed, ⟨false⟩)

/-- Silences further reports. -/
def silence (_ : Latch) : Latch := ⟨false⟩

end Latch

/-- The latches of one engine. -/
structure Latches where
  /-- Feeds that did not become ready in time. -/
  gate : Latch
  /-- Configured assets that their feed has no price for. -/
  miss : Latch
  /-- Conversions that could not start polling. -/
  start : Latch
deriving DecidableEq, Repr

/-- New latches are armed. -/
def Latches.new : Latches := ⟨.new, .new, .new⟩

end ExchangeRates

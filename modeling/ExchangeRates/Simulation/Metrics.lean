import ExchangeRates.Json

namespace ExchangeRates

/-- How a conversion that was tried came out. -/
inductive ProbeResult where
  | success
  /-- A rate was not known. -/
  | unresolvable
  /-- It was refused for another reason. -/
  | failure
deriving DecidableEq, Repr

/-- The counts of a simulation. -/
structure Metrics where
  /-- Reports made. -/
  reports : Nat
  /-- Conversions tried. -/
  total : Nat
  successful : Nat
  unresolvable : Nat
  failed : Nat
  /-- The greatest age of a snapshot seen at a report, in milliseconds. -/
  greatestAge : Int
deriving DecidableEq, Repr

namespace Metrics

def zero : Metrics := ⟨0, 0, 0, 0, 0, 0⟩

/-- Counts a report. -/
def recordReport (m : Metrics) : Metrics := { m with reports := m.reports + 1 }

/-- Counts a conversion. -/
def record (m : Metrics) : ProbeResult → Metrics
  | .success => { m with total := m.total + 1, successful := m.successful + 1 }
  | .unresolvable => { m with total := m.total + 1, unresolvable := m.unresolvable + 1 }
  | .failure => { m with total := m.total + 1, failed := m.failed + 1 }

/-- Takes note of the age of a snapshot. -/
def recordAge (m : Metrics) (age : Int) : Metrics :=
  { m with greatestAge := max m.greatestAge age }

/-- The part of the conversions that succeeded; zero if there were none. -/
def successShare (m : Metrics) : Float :=
  if m.total = 0 then 0.0 else Float.ofNat m.successful / Float.ofNat m.total

def toJson (m : Metrics) : Json :=
  .object [("ticks", .ofNat m.reports), ("total_conversions", .ofNat m.total),
    ("successful_conversions", .ofNat m.successful), ("unresolvable", .ofNat m.unresolvable),
    ("failed_conversions", .ofNat m.failed),
    ("max_snapshot_age_ms", .number (.integer m.greatestAge))]

end Metrics

end ExchangeRates

import ExchangeRates.Engine.Clock
import ExchangeRates.Engine.Lifecycle
import ExchangeRates.Simulation.Basic

namespace ExchangeRates

/-- What may interrupt a run. -/
inductive Interruption where
  /-- The user does. -/
  | signal
  /-- It is no longer possible to listen for the user's signal. -/
  | listenerFailed (reason : String)
deriving DecidableEq, Repr

/-- How far a run can go. -/
inductive Horizon where
  /-- It ends after a duration. -/
  | deadline (after : Duration)
  /-- It has no deadline and is interrupted. -/
  | interruption (after : Duration) (cause : Interruption)
  /-- It has a deadline, and an interruption may come before. -/
  | either (limit after : Duration) (cause : Interruption)

/-- Why a run ends with an error. -/
inductive RunError where
  /-- The engine cannot be started. -/
  | engine (error : RateError)
  /-- It is no longer possible to listen for the user's signal. -/
  | listener (reason : String)

def RunError.message : RunError → String
  | engine error => error.message
  | listener reason => reason

/-- Why a run does not come to a regular end. -/
inductive RunFailure where
  | fault (cause : Fault)
  | error (cause : RunError)

namespace Horizon

/-- The duration of a run. -/
def duration? : Horizon → Option Duration
  | deadline after | either after _ _ => some after
  | interruption _ _ => none

/-- When a run ends, and the interruption that ends it. Of a deadline and an interruption at one
instant the deadline ends it. -/
def ending : Horizon → Duration × Option Interruption
  | deadline after => (after, none)
  | interruption after cause => (after, some cause)
  | either limit after cause =>
    if after.nanos < limit.nanos then (after, some cause) else (limit, none)

end Horizon

/-- The seconds that the clock can count from the start of a run on. A clock counts from the start
of the machine, so the real limit is less than this by the time that has passed until the run. -/
def clockSeconds : Nat := 0x7fffffffffffffff

/-- A simulation that is running. It reports at regular distances, for the first time at once, until
it ends. At one instant the end of the run comes first, then a report, and then whatever else is
due. -/
structure Run where
  simulation : Simulation
  /-- The notifier of this run of the engine. -/
  notifier : Nat
  /-- The distance between two reports. -/
  every : Duration
  every_pos : 0 < every.nanos
  /-- When the next report is due. -/
  nextReport : Instant

namespace Run

/-- Starts the engine and begins to report. It is a fault if the deadline is out of reach, or if
the reports have no distance. -/
def begin (s : Simulation) (every : Duration) (duration : Option Duration) :
    Except (RunFailure × Simulation) Run :=
  let s := s.note [.scenarioRunning s.scenario.name s.scenario.description
    s.engine.feeds.length]
  match s.engine.start with
  | (.error error, engine) => .error (.error (.engine error), { s with engine })
  | (.ok _, engine) =>
    let s : Simulation := { s with engine }
    if duration.any fun d => clockSeconds ≤ Duration.seconds ⟨engine.now + d.nanos⟩ then
      .error (.fault .clockOverflow, s)
    else if h : 0 < every.nanos then .ok ⟨s, engine.notifier, every, h, engine.now⟩
    else .error (.fault .zeroPeriod, s)

/-- Whether this run of the engine has completed a refresh. -/
def isReady (r : Run) : Bool := r.simulation.engine.notifiers.getD r.notifier false

/-- Makes the report that is due. Before the engine has completed a refresh a report only says that
this is waited for. -/
def report (r : Run) : Run :=
  { r with
    simulation := if r.isReady then r.simulation.report else r.simulation.note [.awaitingRates]
    nextReport := r.nextReport + r.every.nanos }

/-- Lets time pass up to an instant. -/
def passTo (r : Run) (limit : Instant) : Run :=
  let engine := r.simulation.engine
  { r with simulation := { r.simulation with engine := engine.sleep ⟨limit - engine.now⟩ } }

/-- Makes all reports that are due before an instant, and lets time pass up to it. -/
def goTo (r : Run) (limit : Instant) : Run :=
  if r.nextReport < limit then (r.passTo r.nextReport).report.goTo limit
  else r.passTo limit
termination_by limit - r.nextReport
decreasing_by
  next hdue => exact Nat.sub_lt_sub_left hdue (Nat.lt_add_of_pos_right r.every_pos)

/-- Ends the run. The engine is stopped, but not if the run ends with an error. -/
def finish (r : Run) : Option Interruption → Except RunFailure Unit × Simulation
  | none => (.ok (), { r.simulation with engine := r.simulation.engine.stop })
  | some .signal =>
    let s := r.simulation.note [.interrupted]
    (.ok (), { s with engine := s.engine.stop })
  | some (.listenerFailed reason) => (.error (.error (.listener reason)), r.simulation)

/-- Goes on until the run ends. -/
def toEnd (r : Run) (horizon : Horizon) : Except RunFailure Unit × Simulation :=
  let (after, interruption) := horizon.ending
  (r.goTo (r.simulation.engine.now + after.nanos)).finish interruption

end Run

/-- Runs a simulation. -/
def Simulation.run (s : Simulation) (every : Duration) (horizon : Horizon) :
    Except RunFailure Unit × Simulation :=
  match Run.begin s every horizon.duration? with
  | .error (failure, s) => (.error failure, s)
  | .ok r => r.toEnd horizon

end ExchangeRates

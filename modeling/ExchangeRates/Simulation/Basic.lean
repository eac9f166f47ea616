import ExchangeRates.Engine.Query
import ExchangeRates.Feed.Walking
import ExchangeRates.Scenario
import ExchangeRates.Simulation.Metrics

namespace ExchangeRates

/-- A simulation: an engine over the simulated feeds of a scenario. -/
structure Simulation where
  scenario : Scenario
  engine : Engine WalkingFeed
  metrics : Metrics

namespace Simulation

/-- The feeds of a scenario; `draws` has the random draws of each. -/
def feedsOf (scenario : Scenario) (draws : Nat → Draws) : List WalkingFeed :=
  scenario.feeds.mapIdx fun i profile => .new profile (draws i)

/-- The simulation of a scenario, unless the settings have a defect. A scenario without a usable
configuration is reported. -/
def ofScenario (scenario : Scenario) (settings : Settings) (draws : Nat → Draws)
    (runtime : Bool) : Except Settings.Defect Simulation :=
  match settings.defect? with
  | some defect => .error defect
  | none =>
    let feeds := feedsOf scenario draws
    let engine : Engine WalkingFeed :=
      .new settings (.lists scenario.rates) feeds (List.range feeds.length) .empty runtime
    let events := if engine.config.isEmpty then [.scenarioUnusable scenario.name] else []
    .ok ⟨scenario, engine.note events, .zero⟩

/-- Writes events to the log. -/
def note (s : Simulation) (events : List LogEvent) : Simulation :=
  { s with engine := s.engine.note events }

/-- How a conversion came out. -/
def resultOf : Except RateError Float → ProbeResult
  | .ok _ => .success
  | .error (.rateNotKnown ..) => .unresolvable
  | .error _ => .failure

/-- What is reported of a conversion; `dollars` is the value of the amount in dollars, if it is
known. -/
def probeEvent (probe : Probe) (dollars : Except RateError Float) :
    Except RateError Float → LogEvent
  | .ok value =>
    .converted probe.amount probe.source probe.target
      (probe.rateSource.getD Engine.mergedSource) value (dollars.toOption.getD noRate)
  | .error (.rateNotKnown source target) => .rateUnknown source target
  | .error error => .conversionFailed error probe.source probe.target

/-- Tries a conversion; if it succeeds, the value of the amount in dollars is asked for too. -/
def tryProbe (s : Simulation) (probe : Probe) : Simulation :=
  let (value, engine) :=
    s.engine.askConversion probe.amount probe.source probe.target probe.rateSource
  let (dollars, engine) :=
    if value.isOk then engine.askDollars probe.source probe.amount probe.rateSource
    else (value, engine)
  { s with
    engine := engine.note [probeEvent probe dollars value]
    metrics := s.metrics.record (resultOf value) }

/-- Takes note of how old the prices of a feed are. -/
def observeAge (engine : Engine WalkingFeed) (m : Metrics) (feed : WalkingFeed) : Metrics :=
  match engine.book.age? engine.now feed.name with
  | some age => m.recordAge age.millis
  | none => m

/-- Reports: tries every conversion of the scenario, and looks at the age of the prices. -/
def report (s : Simulation) : Simulation :=
  let counted : Simulation := { s with metrics := s.metrics.recordReport }
  let tried := s.scenario.probes.foldl tryProbe counted
  { tried with metrics := tried.engine.feeds.foldl (observeAge tried.engine) tried.metrics }

end Simulation

end ExchangeRates

import ExchangeRates.Error
import ExchangeRates.Fault

namespace ExchangeRates

inductive LogLevel where
  | info
  | warn
  | error
deriving DecidableEq, Repr

/-- An event worth a line in the log. -/
inductive LogEvent where
  | feedFailed (feed : String) (error : RateError)
  | assetMissing (asset : Symbol) (feed : String)
  | feedNotReady (feed : String) (timeout : Duration)
  | pollingNotStarted (error : RateError)
  | refreshFailed (error : RateError)
  | refreshBroken (fault : Fault)
  | configRejected (error : RateError)
  | defaultFeedUnknown (feed : String)
  | pollingStarted (feeds : Nat)
  | walkReady (feed : String)
  | walkNotStarted (feed : String)
  | scenarioUnusable (scenario : String)
  | scenarioRunning (scenario description : String) (feeds : Nat)
  | awaitingRates
  | converted (amount : Float) (source target rateSource : String) (value dollars : Float)
  | rateUnknown (source target : Symbol)
  | conversionFailed (error : RateError) (source target : String)
  | programStarting
  | programSettings (intervalMillis feedTimeoutMillis : Nat)
  | interruptHint
  | interrupted
  | simulationComplete
  | summary (line : String)

/-- The value of a field of an event. -/
inductive LogField where
  | text (value : String)
  | count (value : Nat)
  | number (value : Float)

namespace LogEvent

def level : LogEvent → LogLevel
  | feedFailed .. | assetMissing .. | feedNotReady .. | pollingNotStarted ..
  | walkNotStarted .. | scenarioUnusable .. | rateUnknown .. | conversionFailed .. => .warn
  | refreshFailed .. | refreshBroken .. | configRejected .. | defaultFeedUnknown .. => .error
  | _ => .info

def message : LogEvent → String
  | feedFailed .. => "Data feed failed to return prices"
  | assetMissing .. => "No data found for asset in data feed, check the exchange rate config"
  | feedNotReady .. => "Error initializing data feed"
  | pollingNotStarted .. => "Exchange rate polling not started, serving cached rates"
  | refreshFailed .. => "Error updating exchange rates"
  | refreshBroken .. => "Exchange rate refresh panicked"
  | configRejected .. => "Error initiating config for exchange rate conversion"
  | defaultFeedUnknown .. => "Default data feed has no rates"
  | pollingStarted .. => "Exchange rate polling started"
  | walkReady .. => "Simulated feed ready"
  | walkNotStarted .. => "Cannot start simulated feed outside a runtime"
  | scenarioUnusable .. => "Scenario has no usable exchange rate config"
  | scenarioRunning .. => "Running scenario"
  | awaitingRates => "Waiting for the first exchange rate refresh"
  | converted .. => "Converted"
  | rateUnknown .. => "Rate not known yet"
  | conversionFailed .. => "Conversion failed"
  | programStarting => "Starting Ratefeed Simulator"
  | programSettings .. => "Engine settings"
  | interruptHint => "Press Ctrl+C to stop"
  | interrupted => "Interrupted"
  | simulationComplete => "Simulation complete"
  | summary line => line

/-- The fields of an event, in the order in which they are written. -/
def fields : LogEvent → List (String × LogField)
  | feedFailed feed error => [("feed", .text feed), ("error", .text error.message)]
  | assetMissing asset feed => [("asset", .text asset.text), ("feed", .text feed)]
  | feedNotReady feed timeout => [("feed", .text feed), ("timeout_secs", .number timeout.toSeconds)]
  | pollingNotStarted error => [("error", .text error.message)]
  | refreshFailed error => [("error", .text error.message)]
  | refreshBroken fault => [("panic", .text fault.message)]
  | configRejected error => [("error", .text error.message)]
  | defaultFeedUnknown feed => [("feed", .text feed)]
  | pollingStarted feeds => [("feeds", .count feeds)]
  | walkReady feed => [("feed", .text feed)]
  | walkNotStarted feed => [("feed", .text feed)]
  | scenarioUnusable scenario => [("scenario", .text scenario)]
  | scenarioRunning scenario description feeds =>
    [("scenario", .text scenario), ("description", .text description), ("feeds", .count feeds)]
  | converted amount source target rateSource value dollars =>
    [("amount", .number amount), ("from", .text source), ("to", .text target),
      ("source", .text rateSource), ("value", .number value), ("usd", .number dollars)]
  | rateUnknown source target => [("from", .text source.text), ("to", .text target.text)]
  | conversionFailed error source target =>
    [("error", .text error.message), ("from", .text source), ("to", .text target)]
  | programSettings intervalMillis feedTimeoutMillis =>
    [("interval_ms", .count intervalMillis), ("feed_timeout_ms", .count feedTimeoutMillis)]
  | awaitingRates | programStarting | interruptHint | interrupted | simulationComplete
  | summary _ => []

end LogEvent

end ExchangeRates

import ExchangeRates.Decimal.Literal
import ExchangeRates.Environment
import ExchangeRates.Fault

namespace ExchangeRates

/-- Settings of the engine. -/
structure Settings where
  /-- The pause between two refreshes. -/
  interval : Duration
  /-- How long to wait for each feed to become ready. -/
  gateTimeout : Duration
  /-- The feed whose rates are the default rates. -/
  defaultFeed : String
deriving DecidableEq, Repr

namespace Settings

def default : Settings := ⟨.ofSeconds 5, .ofSeconds 30, "coin_gecko_api"⟩

/-- The duration that a variable gives in seconds. A variable that is unset, no number, negative or
not finite leaves the earlier duration as it is. -/
def readDuration (env : Environment) (name : String) (earlier : Duration) :
    Except Fault Duration :=
  match (env.text? name).bind Decimal.readFloat with
  | some x =>
    if x.isFinite && 0.0 ≤ x then (Duration.ofFloat x).mapError .noDuration else .ok earlier
  | none => .ok earlier

/-- The settings of an environment. -/
def ofEnvironment (env : Environment) : Except Fault Settings := do
  let interval ← readDuration env "FX_UPDATE_INTERVAL_SECS" default.interval
  let gateTimeout ← readDuration env "FX_FEED_READY_TIMEOUT_SECS" default.gateTimeout
  return {
    interval, gateTimeout
    defaultFeed := (env.text? "FX_DEFAULT_FEED_NAME").getD default.defaultFeed }

/-- What is wrong with settings. -/
inductive Defect where
  | zeroInterval
  | zeroGateTimeout
  | noDefaultFeed
deriving DecidableEq, Repr

def Defect.message : Defect → String
  | zeroInterval => "Update interval cannot be 0"
  | zeroGateTimeout => "Feed ready timeout cannot be 0"
  | noDefaultFeed => "Default feed name cannot be empty"

/-- The first defect of settings, if they have one. -/
def defect? (s : Settings) : Option Defect :=
  if s.interval.isZero then some .zeroInterval
  else if s.gateTimeout.isZero then some .zeroGateTimeout
  else if s.defaultFeed.isEmpty then some .noDefaultFeed
  else none

end Settings

end ExchangeRates

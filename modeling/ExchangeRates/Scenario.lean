import ExchangeRates.Config.RateLists
import ExchangeRates.Feed.WalkProfile

namespace ExchangeRates

/-- A conversion to be tried. -/
structure Probe where
  amount : Float
  source : String
  target : String
  /-- The source of the rates; without one the merged rates are used. -/
  rateSource : Option String

/-- A scenario: simulated feeds, and the conversions that are tried again and again. -/
structure Scenario where
  name : String
  description : String
  rates : RateLists
  feeds : List WalkProfile
  probes : List Probe

end ExchangeRates

import ExchangeRates.Scenario

namespace ExchangeRates.Scenario

/-- A feed with a short warm-up. -/
def builtInFeed (name : String) (prices : List (String × Float)) : WalkProfile :=
  { WalkProfile.new name (.ofList prices) with warmup := 500 }

def steadyFeed : WalkProfile :=
  builtInFeed "sim_gecko" [("BTC", 50000.0), ("ETH", 3000.0), ("USDT", 1.0)]

def otherFeed : WalkProfile :=
  builtInFeed "sim_cap" [("SOL", 100.0), ("DAI", 1.0), ("ETH", 3010.0)]

def builtInRates : RateLists where
  fetched := [["BTC", "sim_gecko"], ["SOL", "sim_cap"]]
  converted :=
    [["USDT", "1.0", "sim_gecko"], ["DAI", "1.0", "sim_cap"], ["ETH", "3000", "sim_gecko"]]

def builtInProbes : List Probe :=
  [⟨1.0, "BTC", "USDT", none⟩, ⟨10.0, "ETH", "DAI", none⟩, ⟨2.0, "ETH", "WETH", none⟩,
    ⟨1.0, "ETH", "DAI", some "sim_cap"⟩]

/-- Two feeds that always answer. -/
def basic : Scenario where
  name := "basic"
  description := "Two healthy feeds"
  rates := builtInRates
  feeds := [steadyFeed, otherFeed]
  probes := builtInProbes

/-- One feed fails after some ticks. -/
def outage : Scenario :=
  { basic with
    name := "feed-outage"
    description := "sim_cap fails after five fetches"
    feeds := [steadyFeed, { otherFeed with failAfter := some 5 }] }

/-- The warm-up of one feed is long. -/
def slow : Scenario :=
  { basic with
    name := "slow-start"
    description := "sim_cap needs 10s before its first fetch"
    feeds := [steadyFeed, { otherFeed with warmup := 10000 }] }

/-- The built-in scenario of a name. -/
def builtIn? (name : String) : Option Scenario :=
  [basic, outage, slow].find? fun s => s.name == name

end ExchangeRates.Scenario

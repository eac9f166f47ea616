import ExchangeRates.Feed

namespace ExchangeRates

/-- A feed that does as it is told, and counts how often it is started, stopped and asked. -/
structure ScriptedFeed where
  name : String
  prices : Rates
  started : Bool
  ready : Bool
  /-- When the feed becomes ready by itself. -/
  readyAt : Option Instant
  /-- Whether the feed answers with an error. -/
  failing : Bool
  delay : Duration
  /-- The fault that every request ends in. -/
  fault : Option Fault
  starts : Nat
  stops : Nat
  fetches : Nat

namespace ScriptedFeed

/-- A feed that is ready and has no prices. -/
def new (name : String) : ScriptedFeed where
  name
  prices := .empty
  started := false
  ready := true
  readyAt := none
  failing := false
  delay := .zero
  fault := none
  starts := 0
  stops := 0
  fetches := 0

/-- Sets the price of an asset. -/
def quote (f : ScriptedFeed) (asset : String) (price : Float) : ScriptedFeed :=
  { f with prices := f.prices.insert (.ofText asset) price }

/-- Removes the price of the asset whose symbol is written exactly as given. -/
def withdraw (f : ScriptedFeed) (symbol : String) : ScriptedFeed :=
  { f with prices := f.prices.filter fun asset _ => asset.text != symbol }

def makeReady (f : ScriptedFeed) : ScriptedFeed := { f with ready := true, readyAt := none }

/-- Starts the feed and counts it. -/
def start (f : ScriptedFeed) : ScriptedFeed :=
  { f with started := true, starts := f.starts + 1 }

/-- Stops the feed and counts it. -/
def stop (f : ScriptedFeed) : ScriptedFeed :=
  { f with started := false, stops := f.stops + 1 }

/-- Answers a request and counts it, unless the feed breaks down. -/
def fetch (f : ScriptedFeed) : ScriptedFeed × FetchResult :=
  match f.fault with
  | some fault => (f, .error fault)
  | none =>
    let answer : Answer :=
      if f.failing then .error (.feedDown f.name "mock failure") else .ok f.prices
    ({ f with fetches := f.fetches + 1 }, .ok answer)

instance : PriceFeed ScriptedFeed where
  name := ScriptedFeed.name
  started := ScriptedFeed.started
  start _ f := f.start
  stop := ScriptedFeed.stop
  ready := ScriptedFeed.ready
  delay := ScriptedFeed.delay
  fetch := ScriptedFeed.fetch
  wakesAt := ScriptedFeed.readyAt
  wake _ f := (f.makeReady, [])

end ScriptedFeed

end ExchangeRates

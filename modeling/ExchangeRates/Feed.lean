import ExchangeRates.RateBook

namespace ExchangeRates

/-- What comes of asking a feed for its prices: an answer, or the feed breaks down. -/
abbrev FetchResult := Except Fault Answer

/-- A kind of feeds: sources of prices that become ready at some time, and are asked for all their
prices at once. A feed may do work of its own in the background, at instants it names. -/
class PriceFeed (φ : Type) where
  /-- The name of the feed, to be compared without case to the sources of assets. -/
  name : φ → String
  /-- Whether the feed has been started and not been stopped since. -/
  started : φ → Bool
  /-- Starts the feed at an instant. -/
  start : Instant → φ → φ
  /-- Stops the feed. -/
  stop : φ → φ
  /-- Whether the feed has had a first success. -/
  ready : φ → Bool
  /-- How long the feed takes to answer. -/
  delay : φ → Duration
  /-- Asks the feed for its prices, at the end of its delay. -/
  fetch : φ → φ × FetchResult
  /-- When the feed has work to do next. -/
  wakesAt : φ → Option Instant
  /-- Does the work that is due at an instant. -/
  wake : Instant → φ → φ × List LogEvent

/-- The price of one asset in the answer of a feed. -/
def Answer.price? (answer : Answer) (asset : Symbol) : Option Float :=
  match answer with
  | .ok prices => prices.get? asset
  | .error _ => none

/-- The place of a feed in a list of feeds. -/
abbrev FeedId := Nat

/-- Changes the feed at a place. -/
def updateFeed {φ : Type} (feeds : List φ) (id : FeedId) (f : φ → φ) : List φ :=
  feeds.modify id f

end ExchangeRates

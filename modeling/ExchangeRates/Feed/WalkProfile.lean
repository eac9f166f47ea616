import ExchangeRates.Json.Fields

namespace ExchangeRates

/-- How a simulated feed behaves. Spans of time are in milliseconds. -/
structure WalkProfile where
  name : String
  /-- The prices in dollars to start from; an asset may be spelled in any way. -/
  prices : Table String Float
  /-- The greatest relative move of a price in one tick. -/
  volatility : Float
  /-- The time from a start to the first tick. -/
  warmup : Nat
  /-- The time between two ticks. -/
  tick : Nat
  /-- The number of ticks after which the feed fails. -/
  failAfter : Option Nat

namespace WalkProfile

def usualVolatility : Float := 0.005

def usualTick : Nat := 1000

/-- A profile with default moves and ticks, without warm-up and without failure. -/
def new (name : String) (prices : Table String Float) : WalkProfile where
  name
  prices
  volatility := usualVolatility
  warmup := 0
  tick := usualTick
  failAfter := none

def toJson (p : WalkProfile) : Json :=
  .object [("name", .text p.name), ("prices", .ofTable id Json.ofFloat p.prices),
    ("volatility", .ofFloat p.volatility), ("warmup_ms", .ofNat p.warmup),
    ("tick_ms", .ofNat p.tick), ("fail_after_ticks", .ofOption Json.ofNat p.failAfter)]

/-- The names of the fields, in the order in which an array gives them. -/
def fieldNames : List String :=
  ["name", "prices", "volatility", "warmup_ms", "tick_ms", "fail_after_ticks"]

/-- Reads a profile; all but the name and the prices may be missing. -/
def ofJson? (j : Json) : Option WalkProfile := do
  match ← j.fields? fieldNames with
  | [name, prices, volatility, warmup, tick, failAfter] =>
    some {
      name := ← Json.required Json.toText? name
      prices := ← Json.required (Json.toTable? id Json.toFloat?) prices
      volatility := ← Json.optional usualVolatility Json.toFloat? volatility
      warmup := ← Json.optional 0 Json.toNat? warmup
      tick := ← Json.optional usualTick Json.toNat? tick
      failAfter := ← Json.optional none (Json.toOption? Json.toNat?) failAfter }
  | _ => none

end WalkProfile

end ExchangeRates

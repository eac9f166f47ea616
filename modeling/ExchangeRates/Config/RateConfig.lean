import ExchangeRates.Config.RateSource

namespace ExchangeRates

/-- A map from assets to their source configs. -/
abbrev SourceTable := Table Symbol RateSource

/-- An effective configuration. -/
structure RateConfig where
  /-- The assets that amounts are converted with. -/
  required : SourceTable
  /-- Every asset with a declared source. -/
  global : SourceTable

namespace RateConfig

def empty : RateConfig := ⟨.empty, .empty⟩

/-- Adds the assets of the second map to the first, where they win. -/
def merge (global required : SourceTable) : RateConfig :=
  ⟨required, global.override required⟩

def isEmpty (c : RateConfig) : Bool := c.global.isEmpty

/-- Whether amounts of an asset are converted with its rate. -/
def requires (c : RateConfig) (asset : Symbol) : Bool := c.required.contains asset

/-- The default rate of every asset. -/
def initialRates (c : RateConfig) : Rates := c.global.map fun _ s => s.initialRate

/-- Whether two maps give equal configs to the same assets. -/
def sameTable (t u : SourceTable) : Bool :=
  t.size == u.size && t.entries.all fun e =>
    match u.get? e.1 with
    | some c => e.2 == c
    | none => false

instance : BEq RateConfig where
  beq a b := sameTable a.required b.required && sameTable a.global b.global

end RateConfig

end ExchangeRates

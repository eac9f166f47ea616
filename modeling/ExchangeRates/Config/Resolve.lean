import ExchangeRates.Config.Override
import ExchangeRates.Config.RateLists
import ExchangeRates.Error

namespace ExchangeRates

/-- Reads the entries of a list in order, up to the first that is malformed. -/
def readEntries (read : List String → Except EntryError (Symbol × RateSource))
    (fault : List String → EntryError → ConfigFault) (entries : List (List String)) :
    Except RateError SourceTable := do
  let pairs ← entries.mapM fun entry => (read entry).mapError fun e => .badConfig (fault entry e)
  return .ofList pairs

/-- The effective configuration of raw lists. Of several entries for one asset the last counts. The
first malformed entry is the error, those of the fetched assets coming first. -/
def resolveLists (raw : RateLists) : Except RateError RateConfig := do
  let global ← readEntries RateSource.ofFetcherEntry .fetcherEntry raw.fetched
  let required ← readEntries RateSource.ofConversionEntry .conversionEntry raw.converted
  return .merge global required

/-- The effective configuration of an override. -/
def resolveOverride (o : RateOverride) : RateConfig :=
  .merge (RateOverride.normalize o.global) (RateOverride.normalize o.required)

/-- The effective configuration of raw lists, unless an override takes their place. -/
def resolve (raw : RateLists) : Option RateOverride → Except RateError RateConfig
  | some o => .ok (resolveOverride o)
  | none => resolveLists raw

end ExchangeRates

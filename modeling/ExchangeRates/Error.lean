import ExchangeRates.Config.Entry

namespace ExchangeRates

/-- Why raw rate lists have no effective configuration. -/
inductive ConfigFault where
  /-- An entry for a fetched asset is malformed. -/
  | fetcherEntry (entry : List String) (cause : EntryError)
  /-- An entry for a converted asset is malformed. -/
  | conversionEntry (entry : List String) (cause : EntryError)
  /-- The text of an environment variable is no list of entries. -/
  | unreadableVariable (name : String)
  /-- The lists could not be loaded. -/
  | notLoaded (detail : String)
deriving DecidableEq, Repr

def ConfigFault.message : ConfigFault → String
  | fetcherEntry entry cause => s!"fetcher entry {Text.quoteList entry}: {cause.message}"
  | conversionEntry entry cause => s!"conversion entry {Text.quoteList entry}: {cause.message}"
  | unreadableVariable name => s!"{name}: <json>"
  | notLoaded detail => detail

/-- An error of the engine. -/
inductive RateError where
  /-- The name of a rate source is neither reserved nor that of a known feed. -/
  | unknownSource (name : String)
  /-- One side of a conversion has no known rate. -/
  | rateNotKnown (source target : Symbol)
  /-- The raw rate lists have no effective configuration. -/
  | badConfig (fault : ConfigFault)
  /-- A feed failed to return its prices. -/
  | feedDown (feed reason : String)
  /-- Every feed failed in one refresh. -/
  | noAnswer
  /-- Polling was requested where no task can run in the background. -/
  | noRuntime
deriving DecidableEq

def RateError.message : RateError → String
  | unknownSource name => s!"Source name for exchange rate is not valid: {name}"
  | rateNotKnown source target => s!"Unable to convert '{source.text}' to '{target.text}'"
  | badConfig fault => s!"Invalid exchange rate config: {fault.message}"
  | feedDown feed reason => s!"Data feed {feed} unavailable: {reason}"
  | noAnswer => "No data feed returned prices"
  | noRuntime => "No tokio runtime available to run the polling loop"

end ExchangeRates

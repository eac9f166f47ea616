import ExchangeRates.Config.RateLists
import ExchangeRates.Environment
import ExchangeRates.Error
import ExchangeRates.Json.Reader
import ExchangeRates.Text.WhiteSpace

namespace ExchangeRates

/-- An origin of raw rate lists. -/
inductive ConfigOrigin where
  /-- Lists held in memory. -/
  | lists (raw : RateLists)
  /-- Loading fails. -/
  | failing (detail : String)
  /-- Two environment variables hold the lists as JSON. -/
  | environment

namespace ConfigOrigin

/-- The variable that holds the entries of fetched assets. -/
def fetcherVariable : String := "EXCHANGE_RATE_FETCHER"

/-- The variable that holds the entries of converted assets. -/
def conversionVariable : String := "EXCHANGE_RATE_CONVERSION"

/-- Reads a variable as a list of entries; an unset or blank one is the empty list. -/
def readVariable (env : Environment) (name : String) : Except RateError (List (List String)) :=
  match env.text? name with
  | none => .ok []
  | some text =>
    if Text.trim text.toList = [] then .ok []
    else
      match (Json.ofText? text).bind RateLists.entriesOfJson? with
      | some entries => .ok entries
      | none => .error (.badConfig (.unreadableVariable name))

/-- Reads both variables. -/
def readEnvironment (env : Environment) : Except RateError RateLists := do
  let fetched ← readVariable env fetcherVariable
  let converted ← readVariable env conversionVariable
  return ⟨fetched, converted⟩

/-- Loads the lists. -/
def load (env : Environment) : ConfigOrigin → Except RateError RateLists
  | lists raw => .ok raw
  | failing detail => .error (.badConfig (.notLoaded detail))
  | environment => readEnvironment env

end ConfigOrigin

end ExchangeRates

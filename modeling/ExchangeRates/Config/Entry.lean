import ExchangeRates.Config.RateSource
import ExchangeRates.Text.Quoted

namespace ExchangeRates

/-- Why an entry is malformed. -/
inductive EntryError where
  | wrongLength (expected actual : Nat)
  | noNumber (text : String)
deriving DecidableEq, Repr

def EntryError.message : EntryError → String
  | wrongLength expected actual => s!"expected {expected} fields, got {actual}"
  | noNumber text => s!"default rate {Text.quote text} is not a number"

namespace RateSource

/-- Reads the entry `[asset, source]` of an asset that is only fetched. -/
def ofFetcherEntry : List String → Except EntryError (Symbol × RateSource)
  | [asset, source] => .ok (.ofText asset, withoutRate source)
  | entry => .error (.wrongLength 2 entry.length)

/-- Reads the entry `[asset, default rate, source]` of an asset that amounts are converted with.
White space may surround the default rate. -/
def ofConversionEntry : List String → Except EntryError (Symbol × RateSource)
  | [asset, initialRate, source] =>
    let text := String.ofList (Text.trim initialRate.toList)
    match Decimal.readFloat text with
    | some rate => .ok (.ofText asset, ⟨rate, source⟩)
    | none => .error (.noNumber text)
  | entry => .error (.wrongLength 3 entry.length)

end RateSource

end ExchangeRates

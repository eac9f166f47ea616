import ExchangeRates.Config.RateConfig

namespace ExchangeRates

/-- An installed configuration: two maps that are yet to be merged. -/
structure RateOverride where
  required : SourceTable
  global : SourceTable

namespace RateOverride

/-- Writes a map from assets to source configs. -/
def tableToJson (t : SourceTable) : Json := .ofTable Symbol.text RateSource.toJson t

/-- Reads a map from assets to source configs, whose keys may have any spelling. -/
def tableOfJson? : Json → Option SourceTable := Json.toTable? Symbol.ofText RateSource.ofJson?

def toJson (o : RateOverride) : Json :=
  .object [("conversion_required", tableToJson o.required), ("global_config", tableToJson o.global)]

/-- Reads an override; a missing map is empty. -/
def ofJson? (j : Json) : Option RateOverride := do
  match ← j.fields? ["conversion_required", "global_config"] with
  | [required, global] =>
    some ⟨← Json.optional .empty tableOfJson? required, ← Json.optional .empty tableOfJson? global⟩
  | _ => none

/-- Gives every key of a map its normal form. -/
def normalize (t : SourceTable) : SourceTable :=
  .ofList (t.entries.map fun e => (.ofText e.1.text, e.2))

end RateOverride

end ExchangeRates

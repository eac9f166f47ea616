import ExchangeRates.Json.Fields

namespace ExchangeRates

/-- Raw rate lists. -/
structure RateLists where
  /-- Entries of assets that are only fetched. -/
  fetched : List (List String)
  /-- Entries of assets that amounts are converted with. -/
  converted : List (List String)
deriving DecidableEq, Repr

namespace RateLists

def empty : RateLists := ⟨[], []⟩

/-- Reads a list of entries. -/
def entriesOfJson? : Json → Option (List (List String)) := Json.toList? Json.toTexts?

def entriesToJson (entries : List (List String)) : Json :=
  .array (entries.map Json.ofTexts)

/-- The names of the two lists in an object. -/
def fieldNames : List String := ["exchange_rate_fetcher", "exchange_rate_conversion"]

/-- The members that hold the two lists in an object. -/
def toMembers (raw : RateLists) : List (String × Json) :=
  [("exchange_rate_fetcher", entriesToJson raw.fetched),
    ("exchange_rate_conversion", entriesToJson raw.converted)]

def toJson (raw : RateLists) : Json := .object raw.toMembers

/-- Reads the lists from the values of their fields; a missing list is empty. -/
def ofFields? (fetched converted : Option Json) : Option RateLists := do
  some ⟨← Json.optional [] entriesOfJson? fetched, ← Json.optional [] entriesOfJson? converted⟩

def ofJson? (j : Json) : Option RateLists := do
  match ← j.fields? fieldNames with
  | [fetched, converted] => ofFields? fetched converted
  | _ => none

end RateLists

end ExchangeRates

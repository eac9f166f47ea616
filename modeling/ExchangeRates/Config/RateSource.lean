import ExchangeRates.Decimal.Literal
import ExchangeRates.Json.Fields
import ExchangeRates.Symbol

namespace ExchangeRates

/-- A map from assets to their rates in dollars; a rate that is not known is no number. -/
abbrev Rates := Table Symbol Float

/-- The rate that marks an unknown rate. -/
def noRate : Float := Decimal.notANumber

/-- Where an asset's rate comes from: the feed that is authoritative for it, and the rate that
stands for it until that feed has delivered one. -/
structure RateSource where
  initialRate : Float
  feed : String

namespace RateSource

/-- An asset that is only fetched, without a known rate. -/
def withoutRate (feed : String) : RateSource := ⟨noRate, feed⟩

/-- Whether two names are equal when their ASCII letters are compared without case. -/
def sameName (a b : String) : Bool :=
  a.toList.map Char.toLower == b.toList.map Char.toLower

/-- Whether this config names a feed. -/
def isFrom (c : RateSource) (name : String) : Bool := sameName c.feed name

/-- Two configs are equal if their sources are and their rates are equal or both unknown. -/
instance : BEq RateSource where
  beq a b := (a.initialRate == b.initialRate || a.initialRate.isNaN && b.initialRate.isNaN) &&
    a.feed == b.feed

def toJson (c : RateSource) : Json :=
  .object [("default", .ofFloat c.initialRate), ("source", .text c.feed)]

/-- Reads a config; without a default rate the rate is unknown. -/
def ofJson? (j : Json) : Option RateSource := do
  match ← j.fields? ["default", "source"] with
  | [initialRate, source] =>
    some ⟨← Json.optional noRate Json.toFloat? initialRate,
      ← Json.required Json.toText? source⟩
  | _ => none

end RateSource

end ExchangeRates

import ExchangeRates.Json.Fields
import ExchangeRates.Symbol

namespace ExchangeRates.Symbol

def toJson (a : Symbol) : Json := .text a.text

def ofJson? (j : Json) : Option Symbol := j.toText?.map ofText

end ExchangeRates.Symbol

import ExchangeRates.Json.Writer
import ExchangeRates.Log

namespace ExchangeRates

def LogLevel.name : LogLevel → String
  | info => "INFO"
  | warn => "WARN"
  | error => "ERROR"

namespace LogField

/-- A number in a line is written with a power of ten from `10 ^ 16` on, and below `10 ^ -4`. -/
def floatStyle : Decimal.FloatStyle := ⟨-4, 15⟩

/-- A field's value in a line. -/
def line : LogField → String
  | text value => value
  | count value => toString value
  | number value =>
    if value.isFinite then floatStyle.text value
    else if value.isNaN then "NaN"
    else if 0.0 < value then "inf"
    else "-inf"

def toJson : LogField → Json
  | text value => .text value
  | count value => .ofNat value
  | number value => .ofFloat value

end LogField

namespace LogEvent

/-- An event as a line: its message and its fields. -/
def line (e : LogEvent) : String :=
  " ".intercalate (e.message :: e.fields.map fun f => f.1 ++ "=" ++ f.2.line)

/-- An event as JSON: its level, and its fields with the message in front. -/
def toJson (e : LogEvent) : Json :=
  .object [("level", .text e.level.name),
    ("fields", .object (("message", .text e.message) :: e.fields.map fun f => (f.1, f.2.toJson)))]

end LogEvent

end ExchangeRates

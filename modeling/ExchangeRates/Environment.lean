import ExchangeRates.Table

namespace ExchangeRates

/-- Environment variables and their values, which are any sequences of bytes. -/
structure Environment where
  values : Table String ByteArray

namespace Environment

def empty : Environment := ⟨.empty⟩

/-- The environment of a list of variables. -/
def ofList (values : List (String × ByteArray)) : Environment := ⟨.ofList values⟩

/-- The text of a variable. One that is not UTF-8 counts as unset. -/
def text? (env : Environment) (name : String) : Option String :=
  (env.values.get? name).bind String.fromUTF8?

end Environment

end ExchangeRates

import ExchangeRates.Json.Reader
import ExchangeRates.Scenario.BuiltIn
import ExchangeRates.Scenario.Format

namespace ExchangeRates.Scenario

/-- Why a scenario cannot be loaded. -/
inductive LoadError where
  /-- No scenario has the name. -/
  | unknown (name : String)
  /-- The file cannot be read. -/
  | unreadable (reason : String)
  /-- The file holds no scenario. -/
  | malformed
deriving DecidableEq, Repr

def LoadError.message : LoadError → String
  | unknown name => s!"Unknown scenario: {name}"
  | unreadable reason => reason
  | malformed => "<json>"

/-- Reads the text of a file as a scenario. -/
def ofText (text : String) : Except LoadError Scenario :=
  match (Json.ofText? text).bind ofJson? with
  | some s => .ok s
  | none => .error .malformed

/-- Loads a scenario, given what there is to read in the files: a text, or the reason why there is
none. -/
def load (readFile : String → Except String String) (name : String) : Except LoadError Scenario :=
  match builtIn? name with
  | some s => .ok s
  | none =>
    if name.endsWith ".json" then
      match readFile name with
      | .ok text => ofText text
      | .error reason => .error (.unreadable reason)
    else .error (.unknown name)

end ExchangeRates.Scenario

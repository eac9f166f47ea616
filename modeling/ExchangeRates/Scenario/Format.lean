import ExchangeRates.Scenario

namespace ExchangeRates

namespace Probe

def toJson (p : Probe) : Json :=
  .object [("amount", .ofFloat p.amount), ("from", .text p.source), ("to", .text p.target),
    ("source", .ofOption Json.text p.rateSource)]

/-- Reads a probe; the source of the rates may be missing. -/
def ofJson? (j : Json) : Option Probe := do
  match ← j.fields? ["amount", "from", "to", "source"] with
  | [amount, source, target, rateSource] =>
    some {
      amount := ← Json.required Json.toFloat? amount
      source := ← Json.required Json.toText? source
      target := ← Json.required Json.toText? target
      rateSource := ← Json.optional none (Json.toOption? Json.toText?) rateSource }
  | _ => none

end Probe

namespace Scenario

def toJson (s : Scenario) : Json :=
  .object ([("name", .text s.name), ("description", .text s.description)] ++ s.rates.toMembers ++
    [("feeds", .array (s.feeds.map WalkProfile.toJson)),
      ("conversions", .array (s.probes.map Probe.toJson))])

/-- The names of the members that are not rate lists. -/
def memberNames : List String := ["name", "description", "feeds", "conversions"]

/-- How deep a member that is kept aside may be nested. -/
def maxDepth : Nat := 126

/-- Whether a member may be kept aside until the others are read, as the rate lists are and the
members that are passed over. -/
def canBeKept (value : Json) : Bool := value.isSound && value.depth ≤ maxDepth

/-- Reads a scenario; the description, the rate lists and the conversions may be missing. -/
def ofJson? : Json → Option Scenario
  | .object members => do
    guard (members.all fun m => memberNames.contains m.1 || canBeKept m.2)
    match ← memberNames.mapM (Json.onlyMember? members),
      ← RateLists.fieldNames.mapM (Json.onlyMember? members) with
    | [name, description, feeds, probes], [fetched, converted] =>
      some {
        name := ← Json.required Json.toText? name
        description := ← Json.optional "" Json.toText? description
        rates := ← RateLists.ofFields? fetched converted
        feeds := ← Json.required (Json.toList? WalkProfile.ofJson?) feeds
        probes := ← Json.optional [] (Json.toList? Probe.ofJson?) probes }
    | _, _ => none
  | _ => none

end Scenario

end ExchangeRates

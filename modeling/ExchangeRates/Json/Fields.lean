import ExchangeRates.Json
import ExchangeRates.Table

namespace ExchangeRates.Json

/-- The only value that the members of an object give to a name: nothing if there are two. -/
def onlyMember? (members : List (String × Json)) (name : String) : Option (Option Json) :=
  match (members.filter fun m => m.1 == name).map Prod.snd with
  | [] => some none
  | [value] => some (some value)
  | _ => none

/-- The values that a value gives to the fields of a record, each of which may be missing. A record
is an object with named members, of which the unknown are passed over, or an array of its fields in
order, of which the last may be missing. -/
def fields? (names : List String) : Json → Option (List (Option Json))
  | object members => names.mapM (onlyMember? members)
  | array items =>
    if items.length ≤ names.length then
      some (items.map some ++ List.replicate (names.length - items.length) none)
    else none
  | _ => none

/-- Reads a field that must be there. -/
def required {α : Type} (read : Json → Option α) : Option Json → Option α
  | some value => read value
  | none => none

/-- Reads a field that has a value of its own if it is missing. -/
def optional {α : Type} (fallback : α) (read : Json → Option α) : Option Json → Option α
  | some value => read value
  | none => some fallback

def toText? : Json → Option String
  | text s => some s
  | _ => none

/-- Reads a finite float; an integer stands for the float nearest to it. -/
def toFloat? : Json → Option Float
  | number (.float x) => if x.isFinite then some x else none
  | number (.integer i) => let x := Float.ofInt i; if x.isFinite then some x else none
  | _ => none

/-- Reads a natural number. -/
def toNat? : Json → Option Nat
  | number (.integer i) => if 0 ≤ i then some i.toNat else none
  | _ => none

/-- Reads a value that may be absent. -/
def toOption? {α : Type} (read : Json → Option α) : Json → Option (Option α)
  | null => some none
  | value => (read value).map some

def toList? {α : Type} (read : Json → Option α) : Json → Option (List α)
  | array items => items.mapM read
  | _ => none

def toTexts? : Json → Option (List String) := toList? toText?

/-- Reads an object as a map; of several members with one key the last counts. -/
def toTable? {κ ν : Type} [DecidableEq κ] (key : String → κ) (read : Json → Option ν) :
    Json → Option (Table κ ν)
  | object members => do
    let entries ← members.mapM fun m => (read m.2).map fun value => (key m.1, value)
    some (Table.ofList entries)
  | _ => none

/-- Writes a map as an object. -/
def ofTable {κ ν : Type} (key : κ → String) (write : ν → Json) (t : Table κ ν) : Json :=
  object (t.entries.map fun e => (key e.1, write e.2))

end ExchangeRates.Json

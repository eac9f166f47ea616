namespace ExchangeRates

/-- A number: an integer of 64 bits, with or without sign, or else a float. -/
inductive Json.Number where
  | integer (value : Int)
  | float (value : Float)

/-- A JSON value, with the members of an object in the order in which they are written. A literal
may be well formed and yet denote nothing (a number beyond every float, a text with half a surrogate
pair); its place is held by `malformed`, so that a value nobody looks at may hold one. -/
inductive Json where
  | null
  | bool (value : Bool)
  | number (value : Json.Number)
  | text (value : String)
  | array (items : List Json)
  | object (members : List (String × Json))
  | malformed

namespace Json

instance : Inhabited Json := ⟨null⟩

mutual

/-- How deep arrays and objects are nested in a value. -/
def depth : Json → Nat
  | array items => depthItems items + 1
  | object members => depthMembers members + 1
  | _ => 0

/-- The greatest depth among the items of an array. -/
def depthItems : List Json → Nat
  | [] => 0
  | item :: rest => max (depth item) (depthItems rest)

/-- The greatest depth among the members of an object. -/
def depthMembers : List (String × Json) → Nat
  | [] => 0
  | (_, value) :: rest => max (depth value) (depthMembers rest)

end

mutual

/-- Whether every literal of a value denotes something. -/
def isSound : Json → Bool
  | array items => areSoundItems items
  | object members => areSoundMembers members
  | malformed => false
  | _ => true

/-- Whether all items of an array are sound. -/
def areSoundItems : List Json → Bool
  | [] => true
  | item :: rest => isSound item && areSoundItems rest

/-- Whether all members of an object are sound. -/
def areSoundMembers : List (String × Json) → Bool
  | [] => true
  | (_, value) :: rest => isSound value && areSoundMembers rest

end

/-- A number for a finite float; no number stands for the others. -/
def ofFloat (x : Float) : Json :=
  if x.isFinite then number (.float x) else null

def ofNat (n : Nat) : Json := number (.integer n)

def ofTexts (texts : List String) : Json := array (texts.map text)

/-- A value that may be absent; `null` stands for absence. -/
def ofOption {α : Type} (f : α → Json) : Option α → Json
  | some a => f a
  | none => null

end Json

end ExchangeRates

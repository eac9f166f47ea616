import ExchangeRates.Json

namespace ExchangeRates.Json

/-- A number as it is written. -/
structure Numeral where
  negative : Bool
  whole : List Char
  fraction : Option (List Char)
  exponent : Option (Bool × List Char)

namespace Numeral

/-- The greatest significand. -/
def significandMax : Nat := 0xffffffffffffffff

/-- The greatest power of ten that is read. -/
def exponentMax : Nat := 0x7fffffff

/-- Appends digits to a significand as long as they fit, and counts those that fit; the others are
dropped. -/
def gather (significand : Nat) : List Char → Nat × Nat
  | [] => (significand, 0)
  | c :: rest =>
    let next := 10 * significand + (c.toNat - '0'.toNat)
    if next ≤ significandMax then
      let (result, count) := gather next rest
      (result, count + 1)
    else (significand, 0)

/-- A power of ten, up to `10 ^ 308`. -/
def powerOfTen (n : Nat) : Float := Float.ofScientific 1 false n

/-- Divides by a power of ten, in factors of at most `10 ^ 308`. -/
def scaleDown (x : Float) (n : Nat) : Float :=
  if n ≤ 308 then x / powerOfTen n
  else if x == 0.0 then x
  else scaleDown (x / powerOfTen 308) (n - 308)
termination_by n

/-- Multiplies by a power of ten; nothing if the product is beyond the floats. -/
def scaleUp (x : Float) (n : Nat) : Option Float :=
  if n ≤ 308 then
    let y := x * powerOfTen n
    if y.isFinite then some y else none
  else if x == 0.0 then some x
  else none

/-- The float that is `significand * 10 ^ exponent`, rounded once for the significand and once for
each factor. -/
def scale (significand : Nat) (exponent : Int) : Option Float :=
  let x := Float.ofNat significand
  if 0 ≤ exponent then scaleUp x exponent.natAbs else some (scaleDown x exponent.natAbs)

/-- The magnitude of a numeral that is not an integer in range; `shift` counts the digits dropped
in front of the point. -/
def floatValue (n : Numeral) : Option Float :=
  let (whole, kept) := gather 0 n.whole
  let shift : Int := n.whole.length - kept
  let (significand, places) := gather whole (n.fraction.getD [])
  let start := shift - places
  match n.exponent with
  | none => scale significand start
  | some (negative, digits) =>
    let power := digits.foldl (fun k c => 10 * k + (c.toNat - '0'.toNat)) 0
    if power ≤ exponentMax then
      scale significand (if negative then start - power else start + power)
    else if significand = 0 ∨ negative then some 0.0
    else none

/-- The value of a numeral; nothing if it is beyond the floats. -/
def value (n : Numeral) : Option Number :=
  let (whole, kept) := gather 0 n.whole
  let isWhole := n.fraction.isNone && n.exponent.isNone && kept == n.whole.length
  if isWhole && !n.negative then some (.integer whole)
  else if isWhole && 0 < whole && whole ≤ 0x8000000000000000 then some (.integer (-whole))
  else
    n.floatValue.map fun x => .float (if n.negative then -x else x)

end Numeral

end ExchangeRates.Json

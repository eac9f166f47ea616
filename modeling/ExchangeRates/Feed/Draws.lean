namespace ExchangeRates

/-- An endless sequence of random draws from zero to one, one excluded. A draw is a function of its
place in the sequence. -/
abbrev Draws := Nat → Float

namespace Draws

/-- The distance between two values of the counter: `2 ^ 64` divided by the golden ratio. -/
def goldenStep : UInt64 := 0x9e3779b97f4a7c15

/-- Mixes the bits of a word. -/
def mix (word : UInt64) : UInt64 :=
  let word := (word ^^^ (word >>> 30)) * 0xbf58476d1ce4e5b9
  let word := (word ^^^ (word >>> 27)) * 0x94d049bb133111eb
  word ^^^ (word >>> 31)

/-- The float of the first 52 bits of a word. -/
def ofWord (word : UInt64) : Float := (word >>> 12).toFloat / 4503599627370496.0

/-- The draws of a seed: a counter of 64 bits is stepped, and its bits are mixed. -/
def ofSeed (seed : UInt64) : Draws := fun n => ofWord (mix (seed + goldenStep * (n + 1).toUInt64))

end Draws

end ExchangeRates

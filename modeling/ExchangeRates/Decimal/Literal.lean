namespace ExchangeRates.Decimal

/-- What a literal denotes apart from its sign. -/
inductive Magnitude where
  | infinite
  | notANumber
  | scaled (digits : Nat) (exponent : Int)
deriving DecidableEq, Repr

/-- A number literal. -/
structure Literal where
  negative : Bool
  magnitude : Magnitude
deriving DecidableEq, Repr

/-- The value of a decimal digit. -/
def digitValue (c : Char) : Nat := c.toNat - '0'.toNat

/-- The number that digits write after the digits of `start`. -/
def digitsFrom (start : Nat) (cs : List Char) : Nat :=
  cs.foldl (fun n c => 10 * n + digitValue c) start

/-- The sign in front of a text, and the rest of it. -/
def takeSign : List Char → Bool × List Char
  | '-' :: rest => (true, rest)
  | '+' :: rest => (false, rest)
  | cs => (false, cs)

/-- Reads the power of ten that ends a literal; nothing stands for the power zero. -/
def readExponent : List Char → Option Int
  | [] => some 0
  | c :: rest =>
    if c = 'e' ∨ c = 'E' then
      let (negative, digits) := takeSign rest
      if digits = [] ∨ !digits.all Char.isDigit then none
      else
        let n : Int := digitsFrom 0 digits
        some (if negative then -n else n)
    else none

/-- Reads digits with an optional point, at least one digit, and a power of ten. -/
def readScaled (cs : List Char) : Option Magnitude :=
  let whole := cs.takeWhile Char.isDigit
  let rest := cs.dropWhile Char.isDigit
  let (fraction, tail) := match rest with
    | '.' :: after => (after.takeWhile Char.isDigit, after.dropWhile Char.isDigit)
    | _ => ([], rest)
  if whole = [] ∧ fraction = [] then none
  else
    (readExponent tail).map fun exponent =>
      .scaled (digitsFrom (digitsFrom 0 whole) fraction) (exponent - fraction.length)

/-- Reads a literal without its sign: `inf`, `infinity` or `nan` in any case, or digits. -/
def readMagnitude (cs : List Char) : Option Magnitude :=
  let word := String.ofList (cs.map Char.toLower)
  if word = "inf" ∨ word = "infinity" then some .infinite
  else if word = "nan" then some .notANumber
  else readScaled cs

/-- Reads a whole text as a literal. -/
def read (cs : List Char) : Option Literal :=
  let (negative, rest) := takeSign cs
  (readMagnitude rest).map fun magnitude => ⟨negative, magnitude⟩

/-- The float that is greater than every number. -/
def infinity : Float := 1.0 / 0.0

/-- The float that is no number. -/
def notANumber : Float := 0.0 / 0.0

/-- The float nearest to `digits * 10 ^ exponent`. A number with its first digit more than 310
places above or 330 places below the point is beyond the floats on that side. -/
def nearest (digits : Nat) (exponent : Int) : Float :=
  let place := exponent + (Nat.toDigits 10 digits).length
  if digits = 0 ∨ place < -330 then 0.0
  else if 310 < place then infinity
  else Float.ofScientific digits (decide (exponent < 0)) exponent.natAbs

/-- The float a magnitude denotes. -/
def Magnitude.toFloat : Magnitude → Float
  | infinite => infinity
  | notANumber => Decimal.notANumber
  | scaled digits exponent => nearest digits exponent

/-- The float a literal denotes. -/
def Literal.toFloat (l : Literal) : Float :=
  if l.negative then -l.magnitude.toFloat else l.magnitude.toFloat

/-- Reads a text as a float. -/
def readFloat (text : String) : Option Float :=
  (read text.toList).map Literal.toFloat

end ExchangeRates.Decimal

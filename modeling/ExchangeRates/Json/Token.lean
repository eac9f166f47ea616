import ExchangeRates.Json.Number

namespace ExchangeRates.Json

/-- A token. A text literal with half a surrogate pair, and a number beyond the floats, have no
value. -/
inductive Token where
  | openArray
  | closeArray
  | openObject
  | closeObject
  | comma
  | colon
  | null
  | bool (value : Bool)
  | number (value : Option Number)
  | text (value : Option String)

namespace Token

/-- The value of a hexadecimal digit. -/
def hexValue (c : Char) : Option Nat :=
  if c.isDigit then some (c.toNat - '0'.toNat)
  else if 'a' ≤ c ∧ c ≤ 'f' then some (c.toNat - 'a'.toNat + 10)
  else if 'A' ≤ c ∧ c ≤ 'F' then some (c.toNat - 'A'.toNat + 10)
  else none

/-- The code unit of four hexadecimal digits. -/
def hexUnit (a b c d : Char) : Option Nat := do
  some ((((← hexValue a) * 16 + (← hexValue b)) * 16 + (← hexValue c)) * 16 + (← hexValue d))

/-- The character that a letter after a backslash stands for. -/
def shortEscape : Char → Option Char
  | '"' => some '"'
  | '\\' => some '\\'
  | '/' => some '/'
  | 'b' => some '\x08'
  | 'f' => some '\x0c'
  | 'n' => some '\n'
  | 'r' => some '\r'
  | 't' => some '\t'
  | _ => none

/-- Reads the inside of a text literal up to its closing quote: the code points of its characters,
with the surrogates that its escapes write, and the text after it. -/
def readUnits : List Char → Option (List Nat × List Char)
  | [] => none
  | '"' :: rest => some ([], rest)
  | '\\' :: 'u' :: a :: b :: c :: d :: rest => do
    let unit ← hexUnit a b c d
    let (units, after) ← readUnits rest
    some (unit :: units, after)
  | '\\' :: escape :: rest => do
    let c ← shortEscape escape
    let (units, after) ← readUnits rest
    some (c.toNat :: units, after)
  | c :: rest =>
    if c.toNat < 0x20 then none
    else do
      let (units, after) ← readUnits rest
      some (c.toNat :: units, after)

/-- Whether a code unit is the first half of a surrogate pair. -/
def isHigh (unit : Nat) : Bool := 0xd800 ≤ unit && unit ≤ 0xdbff

/-- Whether a code unit is the second half of a surrogate pair. -/
def isLow (unit : Nat) : Bool := 0xdc00 ≤ unit && unit ≤ 0xdfff

/-- The characters of code points and surrogates; nothing if a surrogate stands alone. -/
def joinSurrogates : List Nat → Option (List Char)
  | [] => some []
  | high :: low :: rest =>
    if isHigh high then
      if isLow low then
        (joinSurrogates rest).map
          (Char.ofNat (0x10000 + (high - 0xd800) * 0x400 + (low - 0xdc00)) :: ·)
      else none
    else if isLow high then none
    else (joinSurrogates (low :: rest)).map (Char.ofNat high :: ·)
  | [unit] => if isHigh unit || isLow unit then none else some [Char.ofNat unit]

/-- Reads a text literal after its opening quote. -/
def readText (cs : List Char) : Option (Token × List Char) :=
  (readUnits cs).map fun (units, rest) => (text ((joinSurrogates units).map String.ofList), rest)

/-- Splits off the digits in front. -/
def splitDigits (cs : List Char) : List Char × List Char :=
  (cs.takeWhile Char.isDigit, cs.dropWhile Char.isDigit)

/-- Reads the digits after a point, if there is one. -/
def readFraction : List Char → Option (Option (List Char) × List Char)
  | '.' :: rest =>
    let (digits, after) := splitDigits rest
    if digits.isEmpty then none else some (some digits, after)
  | cs => some (none, cs)

/-- Reads a power of ten, if there is one: whether it is negative, and its digits. -/
def readExponent : List Char → Option (Option (Bool × List Char) × List Char)
  | c :: rest =>
    if c = 'e' ∨ c = 'E' then
      let (negative, unsigned) := match rest with
        | '-' :: after => (true, after)
        | '+' :: after => (false, after)
        | _ => (false, rest)
      let (digits, after) := splitDigits unsigned
      if digits.isEmpty then none else some (some (negative, digits), after)
    else some (none, c :: rest)
  | [] => some (none, [])

/-- Reads a number after its sign; an integer part of several digits begins with no zero. -/
def readNumber (negative : Bool) (cs : List Char) : Option (Token × List Char) := do
  let (whole, afterWhole) := splitDigits cs
  if whole.isEmpty ∨ whole.head? = some '0' ∧ whole.length ≠ 1 then none
  else
    let (fraction, afterFraction) ← readFraction afterWhole
    let (exponent, rest) ← readExponent afterFraction
    some (number (Numeral.value ⟨negative, whole, fraction, exponent⟩), rest)

/-- The text after a word, if the text begins with it. -/
def dropWord (word : List Char) (cs : List Char) : Option (List Char) :=
  if word.isPrefixOf cs then some (cs.drop word.length) else none

/-- Reads one token, given its first character and the text after that. -/
def readToken (c : Char) (rest : List Char) : Option (Token × List Char) :=
  match c with
  | '[' => some (openArray, rest)
  | ']' => some (closeArray, rest)
  | '\x7b' => some (openObject, rest)
  | '\x7d' => some (closeObject, rest)
  | ',' => some (comma, rest)
  | ':' => some (colon, rest)
  | '"' => readText rest
  | 'n' => (dropWord ['u', 'l', 'l'] rest).map (null, ·)
  | 't' => (dropWord ['r', 'u', 'e'] rest).map (bool true, ·)
  | 'f' => (dropWord ['a', 'l', 's', 'e'] rest).map (bool false, ·)
  | '-' => readNumber true rest
  | _ => readNumber false (c :: rest)

/-- Whether a character may stand between tokens. -/
def isBlank (c : Char) : Bool := c == ' ' || c == '\t' || c == '\n' || c == '\r'

/-- Reads at most `count` tokens, and nothing may follow them. -/
def readAll : (count : Nat) → List Char → Option (List Token)
  | _, [] => some []
  | 0, _ => none
  | count + 1, c :: rest =>
    if isBlank c then readAll count rest
    else do
      let (token, after) ← readToken c rest
      let tokens ← readAll count after
      some (token :: tokens)

/-- The tokens of a text. -/
def ofText (text : String) : Option (List Token) :=
  readAll text.length text.toList

end Token

end ExchangeRates.Json

import ExchangeRates.Decimal.Shortest
import ExchangeRates.Json

namespace ExchangeRates.Json

/-- A float is written with a power of ten from `10 ^ 16` on, and below `10 ^ -5`. -/
def floatStyle : Decimal.FloatStyle := ⟨-5, 15⟩

/-- How a character stands in a text. -/
def escapeChar (c : Char) : String :=
  if c = '"' then "\\\""
  else if c = '\\' then "\\\\"
  else if c = '\n' then "\\n"
  else if c = '\r' then "\\r"
  else if c = '\t' then "\\t"
  else if c = '\x08' then "\\b"
  else if c = '\x0c' then "\\f"
  else if c.toNat < 0x20 then
    "\\u00" ++ (if c.toNat < 0x10 then "0" else "") ++ String.ofList (Nat.toDigits 16 c.toNat)
  else c.toString

/-- A text between quotes. -/
def quoted (text : String) : String :=
  "\"" ++ String.join (text.toList.map escapeChar) ++ "\""

def Number.text : Number → String
  | integer value => toString value
  | float value => if value.isFinite then floatStyle.text value else "null"

/-- Where the items of arrays and the members of objects are written. -/
inductive Layout where
  /-- Side by side. -/
  | compact
  /-- Each on a line of its own, with two blanks in front for every array or object around it. -/
  | pretty

/-- The break between two items at some depth. -/
def Layout.break (layout : Layout) (depth : Nat) : String :=
  match layout with
  | compact => ""
  | pretty => "\n".pushn ' ' (2 * depth)

/-- What stands between the key and the value of a member. -/
def Layout.colon : Layout → String
  | compact => ":"
  | pretty => ": "

/-- Puts items between brackets. -/
def enclose (layout : Layout) (depth : Nat) (first last : String) (items : List String) : String :=
  if items.isEmpty then first ++ last
  else
    first ++ layout.break (depth + 1) ++
      ("," ++ layout.break (depth + 1)).intercalate items ++ layout.break depth ++ last

mutual

/-- The text of a value inside of `depth` arrays and objects. -/
def textAt (layout : Layout) (depth : Nat) : Json → String
  | null | malformed => "null"
  | bool value => if value then "true" else "false"
  | number value => value.text
  | text value => quoted value
  | array items => enclose layout depth "[" "]" (itemTexts layout (depth + 1) items)
  | object members =>
    enclose layout depth "\x7b" "\x7d" (memberTexts layout (depth + 1) members)

/-- The texts of the items of an array. -/
def itemTexts (layout : Layout) (depth : Nat) : List Json → List String
  | [] => []
  | item :: rest => textAt layout depth item :: itemTexts layout depth rest

/-- The texts of the members of an object. -/
def memberTexts (layout : Layout) (depth : Nat) : List (String × Json) → List String
  | [] => []
  | (key, value) :: rest =>
    (quoted key ++ layout.colon ++ textAt layout depth value) :: memberTexts layout depth rest

end

/-- A value on one line. -/
def compactText (j : Json) : String := j.textAt .compact 0

/-- A value over several lines. -/
def prettyText (j : Json) : String := j.textAt .pretty 0

end ExchangeRates.Json

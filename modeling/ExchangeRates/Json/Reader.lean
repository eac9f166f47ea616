import ExchangeRates.Json.Token

namespace ExchangeRates.Json

/-- An array or object that is not closed yet, with what it holds in reverse. The key of a member
that denotes nothing spoils the object. -/
inductive Frame where
  | inArray (items : List Json)
  | inObject (members : List (String × Json)) (sound : Bool)
  | afterKey (members : List (String × Json)) (sound : Bool) (key : Option String)

/-- What may come next. -/
inductive Expected where
  | value
  | valueOrClose
  | keyOrClose
  | key
  | colon
  | commaOrClose

/-- A state of the reader: the open arrays and objects from the inside out and what may come next,
or the value that has been read. -/
inductive ReaderState where
  | reading (frames : List Frame) (next : Expected)
  | finished (value : Json)

namespace ReaderState

/-- Hands a complete value to the array or object around it. -/
def complete (value : Json) : List Frame → Option ReaderState
  | [] => some (finished value)
  | .inArray items :: outer => some (reading (.inArray (value :: items) :: outer) .commaOrClose)
  | .afterKey members sound key :: outer =>
    match key with
    | some k => some (reading (.inObject ((k, value) :: members) sound :: outer) .commaOrClose)
    | none => some (reading (.inObject members false :: outer) .commaOrClose)
  | .inObject _ _ :: _ => none

/-- Reads a token where a value may begin. -/
def beginValue (frames : List Frame) : Token → Option ReaderState
  | .null => complete .null frames
  | .bool b => complete (.bool b) frames
  | .number (some n) => complete (.number n) frames
  | .number none => complete .malformed frames
  | .text (some s) => complete (.text s) frames
  | .text none => complete .malformed frames
  | .openArray => some (reading (.inArray [] :: frames) .valueOrClose)
  | .openObject => some (reading (.inObject [] true :: frames) .keyOrClose)
  | _ => none

/-- Closes the innermost array or object. -/
def close (frames : List Frame) (token : Token) : Option ReaderState :=
  match token, frames with
  | .closeArray, .inArray items :: outer => complete (.array items.reverse) outer
  | .closeObject, .inObject members sound :: outer =>
    complete (if sound then .object members.reverse else .malformed) outer
  | _, _ => none

/-- Reads a key. -/
def beginMember (frames : List Frame) (token : Token) : Option ReaderState :=
  match token, frames with
  | .text key, .inObject members sound :: outer =>
    some (reading (.afterKey members sound key :: outer) .colon)
  | _, _ => none

/-- Reads one token. -/
def step : ReaderState → Token → Option ReaderState
  | finished _, _ => none
  | reading frames next, token =>
    match next with
    | .value => beginValue frames token
    | .valueOrClose =>
      match token with
      | .closeArray => close frames token
      | _ => beginValue frames token
    | .keyOrClose =>
      match token with
      | .closeObject => close frames token
      | _ => beginMember frames token
    | .key => beginMember frames token
    | .colon =>
      match token with
      | .colon => some (reading frames .value)
      | _ => none
    | .commaOrClose =>
      match token, frames with
      | .comma, .inArray _ :: _ => some (reading frames .value)
      | .comma, .inObject _ _ :: _ => some (reading frames .key)
      | _, _ => close frames token

end ReaderState

/-- Reads a text that holds one value and nothing after it. -/
def ofText? (text : String) : Option Json := do
  let tokens ← Token.ofText text
  match ← tokens.foldlM ReaderState.step (.reading [] .value) with
  | .finished value => some value
  | .reading _ _ => none

end ExchangeRates.Json

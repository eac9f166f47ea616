import ExchangeRates.Decimal.Literal

namespace ExchangeRates

/-- An option that has a value. -/
inductive ValueOption where
  | config
  | interval
  | feedTimeout
  | reportEvery
  | seed
  | duration
deriving DecidableEq, Repr

/-- The arguments of the simulator. Spans of time are in seconds. -/
structure Arguments where
  config : String
  interval : Option Float
  feedTimeout : Option Float
  reportEvery : Float
  seed : Option UInt64
  /-- How long to run; without end if zero. -/
  duration : Nat
  json : Bool

/-- What is wrong with arguments. -/
inductive UsageError where
  | unexpected (argument : String)
  | valueMissing (option : ValueOption)
  | valueInvalid (option : ValueOption) (text : String)
  | valueUnwanted (option : String)
  | repeated (option : String)
deriving DecidableEq, Repr

def ValueOption.name : ValueOption → String
  | config => "config"
  | interval => "interval"
  | feedTimeout => "feed-timeout"
  | reportEvery => "report-every"
  | seed => "seed"
  | duration => "duration"

def UsageError.message : UsageError → String
  | unexpected argument => s!"unexpected argument '{argument}' found"
  | valueMissing option => s!"a value is required for '--{option.name}' but none was supplied"
  | valueInvalid option text => s!"invalid value '{text}' for '--{option.name}'"
  | valueUnwanted option => s!"unexpected value for '--{option}' found; no more were expected"
  | repeated option => s!"the argument '--{option}' cannot be used multiple times"

/-- Why the reading of arguments ends before they are complete. -/
inductive ReadingEnd where
  | help
  | error (cause : UsageError)
deriving DecidableEq, Repr

namespace Arguments

def optionNames : List (String × ValueOption) :=
  [ValueOption.config, .interval, .feedTimeout, .reportEvery, .seed, .duration].map fun o =>
    (o.name, o)

/-- Reads a natural number of at most 64 bits; a plus sign may precede it. -/
def readWord (text : String) : Option Nat :=
  let digits := match text.toList with
    | '+' :: rest => rest
    | cs => cs
  if digits = [] ∨ !digits.all Char.isDigit then none
  else
    let n := Decimal.digitsFrom 0 digits
    if n ≤ 0xffffffffffffffff then some n else none

/-- The values given so far. -/
structure Given where
  config : Option String
  interval : Option Float
  feedTimeout : Option Float
  reportEvery : Option Float
  seed : Option Nat
  duration : Option Nat
  json : Bool

namespace Given

def nothing : Given := ⟨none, none, none, none, none, none, false⟩

/-- Whether an option has been given. -/
def has (g : Given) : ValueOption → Bool
  | .config => g.config.isSome
  | .interval => g.interval.isSome
  | .feedTimeout => g.feedTimeout.isSome
  | .reportEvery => g.reportEvery.isSome
  | .seed => g.seed.isSome
  | .duration => g.duration.isSome

/-- Gives an option the value that a text has for it. -/
def set? (g : Given) (text : String) : ValueOption → Option Given
  | .config => some { g with config := some text }
  | .interval => (Decimal.readFloat text).map fun x => { g with interval := some x }
  | .feedTimeout => (Decimal.readFloat text).map fun x => { g with feedTimeout := some x }
  | .reportEvery => (Decimal.readFloat text).map fun x => { g with reportEvery := some x }
  | .seed => (readWord text).map fun n => { g with seed := some n }
  | .duration => (readWord text).map fun n => { g with duration := some n }

/-- Gives an option a value; it must not have one yet. -/
def give (g : Given) (option : ValueOption) (text : String) : Except ReadingEnd Given :=
  match g.set? text option with
  | none => .error (.error (.valueInvalid option text))
  | some given => if g.has option then .error (.error (.repeated option.name)) else .ok given

/-- The arguments, with their defaults in the place of those that were not given. -/
def toArguments (g : Given) : Arguments where
  config := g.config.getD "basic"
  interval := g.interval
  feedTimeout := g.feedTimeout
  reportEvery := g.reportEvery.getD 1.0
  seed := g.seed.map Nat.toUInt64
  duration := g.duration.getD 0
  json := g.json

end Given

/-- What stands between two arguments. -/
inductive Pending where
  | nothing
  /-- An option that has no value yet. -/
  | option (option : ValueOption)
  /-- An option and its value, which has not been looked at. -/
  | value (option : ValueOption) (text : String)

/-- A state of the reader. -/
structure Reader where
  given : Given
  pending : Pending
  /-- Whether options are no longer recognized. -/
  optionsEnded : Bool

namespace Reader

def initial : Reader := ⟨.nothing, .nothing, false⟩

/-- Looks at the value of the option that came last, when the next one begins or at the end. -/
def settle (r : Reader) : Except ReadingEnd Given :=
  match r.pending with
  | .nothing => .ok r.given
  | .option option => .error (.error (.valueMissing option))
  | .value option text => r.given.give option text

/-- Begins an option whose value follows, if it does not stand in the same argument. -/
def beginOption (r : Reader) (option : ValueOption) (attached : Option String) :
    Except ReadingEnd Reader := do
  let given ← r.settle
  match attached with
  | some text => return ⟨← given.give option text, .nothing, r.optionsEnded⟩
  | none => return ⟨given, .option option, r.optionsEnded⟩

/-- Reads the option that turns JSON on. -/
def turnJsonOn (r : Reader) : Except ReadingEnd Reader := do
  let given ← r.settle
  if given.json then throw (.error (.repeated "json"))
  return ⟨{ given with json := true }, .nothing, r.optionsEnded⟩

/-- Reads the request for help. -/
def requestHelp (r : Reader) : Except ReadingEnd Reader := do
  let _ ← r.settle
  throw .help

/-- The name of a long option, and the value behind the first equals sign. -/
def splitLong (cs : List Char) : String × Option String :=
  (String.ofList (cs.takeWhile (· != '=')),
    match cs.dropWhile (· != '=') with
    | [] => none
    | _ :: value => some (String.ofList value))

/-- Reads an argument that begins with two dashes. -/
def readLong (r : Reader) (cs : List Char) : Except ReadingEnd Reader :=
  let (name, attached) := splitLong cs
  match optionNames.lookup name with
  | some option => r.beginOption option attached
  | none =>
    if name = "json" ∨ name = "help" then
      if attached.isSome then .error (.error (.valueUnwanted name))
      else if name = "json" then r.turnJsonOn
      else r.requestHelp
    else .error (.error (.unexpected ("--" ++ name)))

/-- Reads an argument that begins with one dash. The value may follow the letter directly, or behind
an equals sign. -/
def readShort (r : Reader) (cs : List Char) : Except ReadingEnd Reader :=
  match cs with
  | 'h' :: _ => r.requestHelp
  | ['c'] => r.beginOption .config none
  | 'c' :: '=' :: value => r.beginOption .config (some (String.ofList value))
  | 'c' :: value => r.beginOption .config (some (String.ofList value))
  | c :: _ => .error (.error (.unexpected ("-" ++ c.toString)))
  | [] => .error (.error (.unexpected "-"))

/-- Reads an argument that is no option. -/
def readPlain (r : Reader) (argument : String) : Except ReadingEnd Reader :=
  match r.pending, r.optionsEnded with
  | .option option, false => .ok { r with pending := .value option argument }
  | _, _ => .error (.error (.unexpected argument))

/-- Reads one argument. -/
def read (r : Reader) (argument : String) : Except ReadingEnd Reader :=
  if r.optionsEnded then r.readPlain argument
  else
    match argument.toList with
    | ['-', '-'] => .ok { r with optionsEnded := true }
    | '-' :: '-' :: rest => r.readLong rest
    | '-' :: c :: rest => r.readShort (c :: rest)
    | _ => r.readPlain argument

end Reader

/-- Reads the arguments of the simulator, from left to right. What is wrong first, or a request for
help, ends the reading. -/
def ofList (arguments : List String) : Except ReadingEnd Arguments := do
  let r ← arguments.foldlM Reader.read .initial
  return (← r.settle).toArguments

end Arguments

end ExchangeRates

import ExchangeRates.CommandLine.Program

namespace ExchangeRates.Executable

/-- The variables that the program looks at. -/
def variableNames : List String :=
  ["FX_UPDATE_INTERVAL_SECS", "FX_FEED_READY_TIMEOUT_SECS", "FX_DEFAULT_FEED_NAME",
    ConfigOrigin.fetcherVariable, ConfigOrigin.conversionVariable]

def readEnvironment : IO Environment := do
  let pairs ← variableNames.filterMapM fun name => do
    return (← IO.getEnv name).map fun value => (name, value.toUTF8)
  return .ofList pairs

/-- How the system says that a file cannot be read. The numbers are the system's own: the code that
the error carries is not the same on every platform. -/
def reasonOf : IO.Error → String
  | .noFileOrDirectory .. => "No such file or directory (os error 2)"
  | .permissionDenied .. => "Permission denied (os error 13)"
  | .inappropriateType .. => "Is a directory (os error 21)"
  | error => toString error

def readScenarioFile (name : String) : IO (Except String String) := do
  try
    return .ok (← IO.FS.readFile name)
  catch error =>
    return .error (reasonOf error)

def randomSeed : IO UInt64 := do
  let bytes ← IO.getRandomBytes 8
  return bytes.toList.foldl (fun word byte => word * 256 + byte.toUInt64) 0

/-- A line of the output, with events as text or as JSON. -/
def render (json : Bool) : OutputLine → String
  | .event e => if json then e.toJson.compactText else s!"{e.level.name} {e.line}"
  | .text line => line

def printLines (json : Bool) (lines : List OutputLine) : IO Unit := do
  let out ← IO.getStdout
  for line in lines do
    out.putStrLn (render json line)
  out.flush

def printOutcome (json : Bool) (o : Outcome) : IO UInt32 := do
  printLines json o.output
  (← IO.getStderr).putStr o.errors
  return o.code.toUInt32

/-- Waits as long as a duration lasts, hour by hour. -/
def pauseFor (d : Duration) : IO Unit := do
  for _ in [0:d.millis / 3600000] do
    IO.sleep 3600000
  IO.sleep (d.millis % 3600000).toUInt32

/-- Goes on with a run as time passes, and prints each report, until its deadline. -/
partial def follow (args : Arguments) (deadline : Option Instant) (r : Run) : IO UInt32 := do
  let soon := r.nextReport + 1
  let limit := match deadline with
    | some t => min t soon
    | none => soon
  pauseFor ⟨limit - r.simulation.engine.now⟩
  let later := r.goTo limit
  let (logged, engine) := later.simulation.engine.takeLog
  printLines args.json (logged.map .event)
  let silent : Run := { later with simulation := { later.simulation with engine } }
  if deadline = some limit then
    printOutcome args.json (Program.outcomeOfRun args [] (silent.finish none))
  else follow args deadline silent

/-- Prepares a run and follows it. -/
def run (args : Arguments) : IO UInt32 := do
  let env ← readEnvironment
  let file ← readScenarioFile args.config
  match Program.prepare args env (fun _ => file) (← randomSeed) with
  | (.error abort, events) => printOutcome args.json (Program.outcomeOfAbort events abort)
  | (.ok r, events) =>
    printLines args.json (events.map .event)
    let deadline := (Program.durationOfRun args).map fun d => r.nextReport + d.nanos
    follow args deadline r

end ExchangeRates.Executable

def main (arguments : List String) : IO UInt32 :=
  match ExchangeRates.Arguments.ofList arguments with
  | .error ending =>
    ExchangeRates.Executable.printOutcome false (ExchangeRates.Program.outcomeOfReading ending)
  | .ok args => ExchangeRates.Executable.run args

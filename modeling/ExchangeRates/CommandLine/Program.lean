import ExchangeRates.CommandLine.Arguments
import ExchangeRates.Decimal.Fixed
import ExchangeRates.Log.Line
import ExchangeRates.Scenario.Load
import ExchangeRates.Simulation.Run

namespace ExchangeRates

/-- Why the program ends with an error. -/
inductive ProgramError where
  /-- The value of an option is no duration. -/
  | noDuration (option : ValueOption) (cause : Duration.FloatError)
  | scenario (cause : Scenario.LoadError)
  | settings (defect : Settings.Defect)
  | run (cause : RunError)

def ProgramError.message : ProgramError → String
  | noDuration option cause => s!"Invalid value for --{option.name}: {cause.message}"
  | scenario cause => cause.message
  | settings defect => defect.message
  | run cause => cause.message

/-- Why the program ends before its summary. -/
inductive Abort where
  | error (cause : ProgramError)
  | fault (cause : Fault)

/-- A line of the program's output. -/
inductive OutputLine where
  | event (e : LogEvent)
  | text (line : String)

/-- What the program leaves behind. -/
structure Outcome where
  code : UInt8
  /-- The lines of the standard output. -/
  output : List OutputLine
  /-- The text of the standard error output. -/
  errors : String

namespace Program

/-- The duration that an option gives in seconds. -/
def durationOf (option : ValueOption) (seconds : Float) : Except Abort Duration :=
  (Duration.ofFloat seconds).mapError fun cause => .error (.noDuration option cause)

/-- The duration that an option gives, if it is given. -/
def durationOr (option : ValueOption) (seconds : Option Float) (earlier : Duration) :
    Except Abort Duration :=
  match seconds with
  | some x => durationOf option x
  | none => .ok earlier

/-- The settings of the environment, with those of the arguments over them. -/
def settingsOf (args : Arguments) (env : Environment) : Except Abort Settings := do
  let settings ← (Settings.ofEnvironment env).mapError Abort.fault
  let interval ← durationOr .interval args.interval settings.interval
  let gateTimeout ← durationOr .feedTimeout args.feedTimeout settings.gateTimeout
  return { settings with interval, gateTimeout }

/-- How many words of 64 bits there are. -/
def wordCount : Nat := 0x10000000000000000

/-- The whole milliseconds of a duration, as far as 64 bits hold them. -/
def reportedMillis (d : Duration) : Nat := d.millis % wordCount

/-- What the log says of settings. -/
def settingsEvent (s : Settings) : LogEvent :=
  .programSettings (reportedMillis s.interval) (reportedMillis s.gateTimeout)

/-- The random draws of the feeds: each has a seed of its own, next to that of the feed before. -/
def drawsOf (seed : UInt64) : Nat → Draws := fun i => Draws.ofSeed (seed + i.toUInt64)

/-- The simulation that the arguments ask for. -/
def simulationOf (args : Arguments) (readFile : String → Except String String) (seed : UInt64)
    (settings : Settings) : Except Abort Simulation := do
  let scenario ← (Scenario.load readFile args.config).mapError fun cause => .error (.scenario cause)
  (Simulation.ofScenario scenario settings (drawsOf (args.seed.getD seed)) true).mapError
    fun defect => .error (.settings defect)

/-- How long to run. -/
def durationOfRun (args : Arguments) : Option Duration :=
  if args.duration = 0 then none else some (.ofSeconds args.duration)

/-- What the log says of a run without end. -/
def hint (args : Arguments) : List LogEvent := if args.duration = 0 then [.interruptHint] else []

/-- The end that a failed run puts to the program. -/
def abortOf : RunFailure → Abort
  | .fault cause => .fault cause
  | .error cause => .error (.run cause)

/-- Begins the run of a simulation. -/
def beginRun (args : Arguments) (s : Simulation) : Except (Abort × Simulation) Run :=
  match durationOf .reportEvery args.reportEvery with
  | .error abort => .error (abort, s)
  | .ok every =>
    (Run.begin s every (durationOfRun args)).mapError fun (failure, s) => (abortOf failure, s)

/-- Goes through everything in front of the first report, and logs it. It is apart from the run
itself, so that the run can also be made as real time passes. -/
def prepare (args : Arguments) (env : Environment) (readFile : String → Except String String)
    (seed : UInt64) : Except Abort Run × List LogEvent :=
  match settingsOf args env with
  | .error abort => (.error abort, [.programStarting])
  | .ok settings =>
    let events := [.programStarting, settingsEvent settings]
    match simulationOf args readFile seed settings with
    | .error abort => (.error abort, events)
    | .ok s =>
      match beginRun args (s.note (hint args)) with
      | .error (abort, s) => (.error abort, events ++ s.engine.log.toList)
      | .ok r =>
        let (logged, engine) := r.simulation.engine.takeLog
        (.ok { r with simulation := { r.simulation with engine } }, events ++ logged)

/-- When prices were last captured, counted from the start of the program. -/
def lastRefresh (engine : Engine WalkingFeed) : List LogEvent :=
  match engine.book.lastCapture? with
  | some t => [.summary s!"Last refresh: {Duration.millis ⟨t⟩}ms"]
  | none => []

/-- The summary of a simulation, for people. -/
def summary (s : Simulation) : List LogEvent :=
  let m := s.metrics
  [.simulationComplete, .summary s!"Reports: {m.reports}", .summary s!"Conversions: {m.total}",
    .summary s!"Successful: {m.successful}", .summary s!"Unresolvable: {m.unresolvable}",
    .summary s!"Failed: {m.failed}",
    .summary s!"Success rate: {Decimal.fixed 1 (m.successShare * 100.0)}%",
    .summary s!"Oldest snapshot seen: {m.greatestAge}ms"] ++ lastRefresh s.engine

/-- The last lines of the output. -/
def closing (args : Arguments) (s : Simulation) : List OutputLine :=
  if args.json then (s.metrics.toJson.prettyText.splitOn "\n").map .text
  else (summary s).map .event

/-- How to use the program. -/
def usage : List String :=
  ["Usage: simulator [OPTIONS]", "", "Options:",
    "  -c, --config <CONFIG>              Built-in scenario name or path to a JSON scenario",
    "      --interval <INTERVAL>          Seconds between exchange rate refreshes",
    "      --feed-timeout <FEED_TIMEOUT>  Seconds to wait for each feed to become ready",
    "      --report-every <REPORT_EVERY>  Seconds between conversion reports",
    "      --seed <SEED>                  Random seed for reproducibility",
    "      --duration <DURATION>          Run duration in seconds (0 = infinite)",
    "      --json                         Emit logs and the final summary as JSON",
    "  -h, --help                         Print help"]

/-- The outcome of arguments that ask for no run. -/
def outcomeOfReading : ReadingEnd → Outcome
  | .help => ⟨0, usage.map .text, ""⟩
  | .error cause => ⟨2, [], s!"error: {cause.message}\n"⟩

/-- The outcome of a program that ends before its summary. -/
def outcomeOfAbort (events : List LogEvent) : Abort → Outcome
  | .error cause => ⟨1, events.map .event, s!"Error: {cause.message}\n"⟩
  | .fault cause => ⟨101, events.map .event, s!"{cause.message}\n"⟩

/-- The outcome of a run that has come to its end. -/
def outcomeOfRun (args : Arguments) (events : List LogEvent) :
    Except RunFailure Unit × Simulation → Outcome
  | (.error failure, s) => outcomeOfAbort (events ++ s.engine.log.toList) (abortOf failure)
  | (.ok _, s) => ⟨0, (events ++ s.engine.log.toList).map .event ++ closing args s, ""⟩

/-- What limits a run that is interrupted after some time, unless its duration is over before. -/
def horizonOf (args : Arguments) (after : Duration) (cause : Interruption) : Horizon :=
  match durationOfRun args with
  | some limit => .either limit after cause
  | none => .interruption after cause

/-- The outcome of the program, if its run is interrupted after some time. -/
def outcome (arguments : List String) (env : Environment)
    (readFile : String → Except String String) (seed : UInt64) (after : Duration)
    (cause : Interruption) : Outcome :=
  match Arguments.ofList arguments with
  | .error ending => outcomeOfReading ending
  | .ok args =>
    match prepare args env readFile seed with
    | (.error abort, events) => outcomeOfAbort events abort
    | (.ok r, events) => outcomeOfRun args events (r.toEnd (horizonOf args after cause))

end Program

end ExchangeRates

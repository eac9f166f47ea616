import ExchangeRates.Engine.Basic

namespace ExchangeRates.Engine

variable {φ : Type} [PriceFeed φ]

/-- Ends the task of the current run. -/
def abortTask (e : Engine φ) : Engine φ :=
  match e.task with
  | some i =>
    { e with tasks := e.tasks.modify i fun t => { t with aborted := true }, task := none }
  | none => e

/-- Stops every registered feed, as often as it is registered, and ends the current run. -/
def stop (e : Engine φ) : Engine φ :=
  let feeds := e.registered.foldl (fun feeds id => updateFeed feeds id PriceFeed.stop) e.feeds
  { { e with feeds }.abortTask with started := false }

/-- Starts a feed unless it is started. -/
def startFeed (now : Instant) (feed : φ) : φ :=
  if PriceFeed.started feed then feed else PriceFeed.start now feed

/-- Starts every registered feed and begins a new run, ending the previous one. -/
def startRun (e : Engine φ) : Engine φ :=
  let e := e.stop
  let feeds := e.registered.foldl (fun feeds id => updateFeed feeds id (startFeed e.now)) e.feeds
  let run : Engine φ := { e with
    feeds
    notifier := e.notifiers.length
    notifiers := e.notifiers ++ [false]
    task := some e.tasks.length
    tasks := e.tasks ++ [⟨.spawned, e.notifiers.length, false⟩]
    started := true }
  run.note [.pollingStarted e.registered.length]

/-- Starts the engine. Without a runtime this fails before anything has changed. -/
def start (e : Engine φ) : Except RateError Unit × Engine φ :=
  if e.runtime then (.ok (), e.startRun) else (.error .noRuntime, e)

/-- Starts the engine unless it is started. The first failure to do so is reported. -/
def startIfIdle (e : Engine φ) : Engine φ :=
  if e.started then e
  else
    match e.start with
    | (.ok _, e) => e
    | (.error error, e) =>
      let (isFirst, latch) := e.latches.start.trip
      let silenced : Engine φ := { e with latches := { e.latches with start := latch } }
      silenced.note (if isFirst then [.pollingNotStarted error] else [])

end ExchangeRates.Engine

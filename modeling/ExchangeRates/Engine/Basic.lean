import ExchangeRates.Config.Origin
import ExchangeRates.Config.Resolve
import ExchangeRates.Fetch
import ExchangeRates.Gate
import ExchangeRates.Settings

namespace ExchangeRates

/-- A cycle of a polling task, with the feeds and the configuration that were current when it
began. -/
structure Cycle where
  feeds : List FeedId
  config : RateConfig

/-- What a polling task is doing. -/
inductive Phase where
  /-- It has not begun its first cycle. -/
  | spawned
  /-- Its cycle waits for the feeds to be ready. -/
  | atGate (cycle : Cycle) (gate : Gate)
  /-- Its cycle waits for the feeds to answer. -/
  | fetching (cycle : Cycle) (requests : List Fetch)
  /-- It pauses until the next cycle. -/
  | sleeping (wakesAt : Instant)

/-- A task that polls in the background. -/
structure PollTask where
  phase : Phase
  /-- The notifier that tells of the first success of this task. -/
  notifier : Nat
  /-- Whether the task has been ended; it does nothing from then on. -/
  aborted : Bool

/-- Somebody who waits in the background for the engine to be ready. -/
inductive Waiter where
  /-- It has not begun to wait. -/
  | called
  /-- It waits for a notifier. -/
  | waiting (notifier : Nat)
  /-- Its wait has ended. -/
  | ended
deriving DecidableEq, Repr

/-- An engine among feeds of kind `φ`, on a clock. -/
structure Engine (φ : Type) where
  settings : Settings
  origin : ConfigOrigin
  override : Option RateOverride
  config : RateConfig
  /-- The feeds that the engine is to poll. -/
  registered : List FeedId
  book : RateBook
  interval : Duration
  latches : Latches
  /-- All notifiers there have been: whether they have told of a success. -/
  notifiers : List Bool
  /-- The notifier of the current run. -/
  notifier : Nat
  /-- All tasks there have been. -/
  tasks : List PollTask
  /-- The task of the current run. -/
  task : Option Nat
  started : Bool
  waiters : List Waiter
  /-- All feeds that the engine may be told to poll. -/
  feeds : List φ
  environment : Environment
  /-- Whether tasks can run in the background. -/
  runtime : Bool
  now : Instant
  log : Array LogEvent

namespace Engine

variable {φ : Type}

/-- Writes events to the log. -/
def note (e : Engine φ) (events : List LogEvent) : Engine φ :=
  { e with log := e.log ++ events.toArray }

/-- What the current override, or else the current origin, resolves to. -/
def resolution (e : Engine φ) : Except RateError RateConfig :=
  match e.override with
  | some o => resolve .empty (some o)
  | none => (e.origin.load e.environment).bind fun raw => resolve raw none

/-- Resolves the configuration again and resets the rates to their defaults. An error leaves both
as they are. -/
def reconfigure (e : Engine φ) : Engine φ :=
  match e.resolution with
  | .ok config => { e with config, book := e.book.reset config }
  | .error error => e.note [.configRejected error]

/-- Installs a configuration in place of the raw lists. -/
def setOverride (e : Engine φ) (o : RateOverride) : Engine φ :=
  { e with override := some o }.reconfigure

/-- Goes back to the raw lists. -/
def clearOverride (e : Engine φ) : Engine φ :=
  { e with override := none }.reconfigure

/-- Replaces the feeds that are to be polled. -/
def register (e : Engine φ) (registered : List FeedId) : Engine φ :=
  { e with registered }.reconfigure

/-- Changes the pause between two cycles, from the next pause on. -/
def setInterval (e : Engine φ) (interval : Duration) : Engine φ :=
  { e with interval }

/-- Changes where the raw lists are loaded from. -/
def setOrigin (e : Engine φ) (origin : ConfigOrigin) : Engine φ := { e with origin }

/-- Changes the environment. -/
def setEnvironment (e : Engine φ) (environment : Environment) : Engine φ := { e with environment }

/-- An engine with its first configuration. -/
def new (settings : Settings) (origin : ConfigOrigin) (feeds : List φ) (registered : List FeedId)
    (environment : Environment) (runtime : Bool) : Engine φ :=
  reconfigure {
    settings, origin, registered, feeds, environment, runtime
    override := none
    config := .empty
    book := .empty
    interval := settings.interval
    latches := .new
    notifiers := [false]
    notifier := 0
    tasks := []
    task := none
    started := false
    waiters := []
    now := 0
    log := #[] }

/-- Whether the current run has completed a refresh. -/
def isReady (e : Engine φ) : Bool := e.notifiers.getD e.notifier false

/-- The feeds that are to be polled. -/
def registeredFeeds (e : Engine φ) : List φ := e.registered.filterMap (e.feeds[·]?)

/-- Changes one feed. -/
def changeFeed (e : Engine φ) (id : FeedId) (f : φ → φ) : Engine φ :=
  { e with feeds := updateFeed e.feeds id f }

/-- The log, and the engine with an empty one. -/
def takeLog (e : Engine φ) : List LogEvent × Engine φ :=
  (e.log.toList, { e with log := #[] })

end Engine

end ExchangeRates

import ExchangeRates.Feed
import ExchangeRates.Feed.Draws
import ExchangeRates.Feed.WalkProfile

namespace ExchangeRates

/-- The least price: the least normal float. -/
def leastPrice : Float := 2.2250738585072014e-308

namespace Walk

/-- The greatest draw, which the greatest change corresponds to. -/
def greatestDraw : Float := 1.0 - 2.220446049250313e-16

/-- The change that a draw stands for: between minus the volatility and the volatility. -/
def change (volatility draw : Float) : Float :=
  let raw := draw * ((volatility + volatility) / greatestDraw) - volatility
  if raw ≤ volatility then raw else volatility

/-- Whether changes can be drawn: the distance between the greatest and the least is a number. -/
def isDrawable (volatility : Float) : Bool :=
  0.0 < volatility && ((volatility + volatility) / greatestDraw).isFinite

/-- Moves a price by a fraction of itself, but not below the least price. -/
def movePrice (price change : Float) : Float :=
  let moved := price * (1.0 + change)
  if leastPrice ≤ moved then moved else leastPrice

/-- Moves every price, in the order of enumeration, by one draw each. -/
def movePrices (volatility : Float) (draws : Draws) (prices : Rates) : Rates :=
  prices.mapIdx fun i _ price => movePrice price (change volatility (draws i))

end Walk

/-- A task that ticks in the background. -/
structure TickTask where
  /-- When the task ticks next, unless it has broken down. -/
  nextTick : Option Instant
  /-- Whether the task has been ended; it does nothing from then on. -/
  aborted : Bool

/-- When a task has work to do. -/
def TickTask.wakesAt (t : TickTask) : Option Instant := if t.aborted then none else t.nextTick

/-- A feed whose prices go on a random walk. Each tick moves every price by a random fraction of
itself and is counted, by all tasks together. The first tick ever makes the feed ready, and it stays
ready. -/
structure WalkingFeed where
  profile : WalkProfile
  prices : Rates
  draws : Draws
  /-- How many draws have been used. -/
  drawn : Nat
  /-- How many ticks there have been. -/
  ticks : Nat
  ready : Bool
  started : Bool
  /-- All tasks there have been. -/
  tasks : List TickTask
  /-- The task of the latest start, until it is ended. -/
  task : Option Nat

namespace WalkingFeed

/-- The prices that a profile starts from. Of two spellings of one asset the one enumerated later
counts. -/
def startPrices (profile : WalkProfile) : Rates :=
  .ofList (profile.prices.entries.map fun e => (.ofText e.1, e.2))

/-- A feed that has not been started. -/
def new (profile : WalkProfile) (draws : Draws) : WalkingFeed where
  profile
  prices := startPrices profile
  draws
  drawn := 0
  ticks := 0
  ready := false
  started := false
  tasks := []
  task := none

def name (f : WalkingFeed) : String := f.profile.name

/-- The time between two ticks; it is never zero. -/
def period (f : WalkingFeed) : Duration := .ofMillis (max f.profile.tick 1)

/-- The time from a start to the first tick after it. -/
def warmup (f : WalkingFeed) : Duration := .ofMillis f.profile.warmup

/-- Ends the task of the latest start. -/
def abortTask (f : WalkingFeed) : WalkingFeed :=
  match f.task with
  | some i =>
    { f with tasks := f.tasks.modify i fun t => { t with aborted := true }, task := none }
  | none => f

/-- Starts the feed, or starts it afresh: a task begins its warm-up, and the one before is ended. -/
def start (now : Instant) (f : WalkingFeed) : WalkingFeed :=
  let f := f.abortTask
  { f with
    started := true
    task := some f.tasks.length
    tasks := f.tasks ++ [⟨some (now + f.warmup.nanos), false⟩] }

/-- Starts the feed if tasks can run in the background, and reports that it cannot be started if
they cannot. -/
def startIn (runtime : Bool) (now : Instant) (f : WalkingFeed) :
    WalkingFeed × List LogEvent :=
  if runtime then (f.start now, []) else (f, [.walkNotStarted f.name])

/-- Stops the feed. -/
def stop (f : WalkingFeed) : WalkingFeed := { f.abortTask with started := false }

/-- Whether the feed has had all the ticks after which it is to fail. -/
def hasFailed (f : WalkingFeed) : Bool := f.profile.failAfter.any (· ≤ f.ticks)

/-- Answers with the current prices, or with an error if the feed has failed, for good. -/
def answer (f : WalkingFeed) : Answer :=
  if f.hasFailed then
    .error (.feedDown f.name s!"simulated outage after {f.ticks} ticks")
  else .ok f.prices

/-- Whether the prices move at all. -/
def isMoving (f : WalkingFeed) : Bool := !(f.profile.volatility ≤ 0.0) && !f.prices.isEmpty

/-- Moves the prices on by one tick. -/
def walk (f : WalkingFeed) : WalkingFeed :=
  if f.isMoving then
    { f with
      prices := Walk.movePrices f.profile.volatility (fun i => f.draws (f.drawn + i)) f.prices
      drawn := f.drawn + f.prices.size }
  else f

/-- Sets when a task ticks next. -/
def setNextTick (f : WalkingFeed) (i : Nat) (nextTick : Option Instant) : WalkingFeed :=
  { f with tasks := f.tasks.modify i fun t => { t with nextTick } }

/-- A task ticks. Prices that are to move by changes that cannot be drawn break it down before its
tick. -/
def tick (now : Instant) (i : Nat) (f : WalkingFeed) : WalkingFeed × List LogEvent :=
  if f.isMoving && !Walk.isDrawable f.profile.volatility then (f.setNextTick i none, [])
  else
    let counted : WalkingFeed := { f.walk with ticks := f.ticks + 1, ready := true }
    (counted.setNextTick i (some (now + f.period.nanos)),
      if f.ticks = 0 then [.walkReady f.name] else [])

/-- When a task has work to do next. -/
def wakesAt (f : WalkingFeed) : Option Instant := (f.tasks.filterMap TickTask.wakesAt).min?

/-- Whether a task is to tick by an instant. -/
def isDue (now : Instant) (f : WalkingFeed) (i : Nat) : Bool :=
  (f.tasks[i]?.bind TickTask.wakesAt).any (· ≤ now)

/-- Lets a task tick if it is due, and reports after what has been reported. -/
def tickIfDue (now : Instant) (done : WalkingFeed × List LogEvent) (i : Nat) :
    WalkingFeed × List LogEvent :=
  if done.1.isDue now i then
    let (f, events) := done.1.tick now i
    (f, done.2 ++ events)
  else done

/-- Lets every task tick that is due. -/
def wake (now : Instant) (f : WalkingFeed) : WalkingFeed × List LogEvent :=
  (List.range f.tasks.length).foldl (tickIfDue now) (f, [])

instance : PriceFeed WalkingFeed where
  name := WalkingFeed.name
  started := WalkingFeed.started
  start := WalkingFeed.start
  stop := WalkingFeed.stop
  ready := WalkingFeed.ready
  delay _ := .zero
  fetch f := (f, .ok f.answer)
  wakesAt := WalkingFeed.wakesAt
  wake := WalkingFeed.wake

end WalkingFeed

end ExchangeRates

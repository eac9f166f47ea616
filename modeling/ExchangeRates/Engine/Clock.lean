import ExchangeRates.Engine.Polling

namespace ExchangeRates

/-- When a task goes on by itself. -/
def PollTask.dueAt? (task : PollTask) : Option Instant :=
  if task.aborted then none
  else
    match task.phase with
    | .spawned => none
    | .sleeping t => some t
    | .atGate _ gate => some gate.deadline
    | .fetching _ requests => Fetch.nextDue? requests

/-- A bound on the steps a task takes at one instant, if it pauses between two cycles and there
are `registered` feeds. -/
def PollTask.work (task : PollTask) (registered : Nat) : Nat :=
  let rest := match task.phase with
    | .spawned | .sleeping _ => 0
    | .atGate cycle _ | .fetching cycle _ => cycle.feeds.length
  2 * (rest + registered) + 8

namespace Engine

variable {φ : Type} [PriceFeed φ]

/-- A bound on the steps that can be taken at one instant. Only cycles without a pause between them
need more, and they would never let time pass. -/
def work (e : Engine φ) : Nat :=
  e.tasks.foldl (fun n t => n + t.work e.registered.length)
    (2 * e.waiters.length + e.feeds.length + 1)

/-- Takes at most `count` steps. -/
def stepMany : (count : Nat) → Engine φ → Engine φ
  | 0, e => e
  | count + 1, e =>
    match e.step with
    | some e => stepMany count e
    | none => e

/-- Takes all steps that can be taken at this instant. -/
def settle (e : Engine φ) : Engine φ := stepMany e.work e

/-- The earliest later instant at which something is due. -/
def nextDue? (e : Engine φ) : Option Instant :=
  (nextWake? e.now e.feeds).toList ++ (e.tasks.filterMap PollTask.dueAt?).filter (e.now < ·) |>.min?

/-- Lets time pass up to a limit, or until something has come true: all that can happen at an
instant happens, and the clock goes on to the next instant at which something is due. -/
def runUntil (limit : Instant) (done : Engine φ → Bool) (e : Engine φ) : Engine φ :=
  if e.now < limit then
    let settled := e.settle
    if done settled then settled
    else
      match settled.nextDue? with
      | some next =>
        if e.now < next ∧ next < limit then runUntil limit done { settled with now := next }
        else { settled with now := limit }
      | none => { settled with now := limit }
  else e
termination_by limit - e.now
decreasing_by
  next hnext => exact Nat.sub_lt_sub_left (Nat.lt_trans hnext.1 hnext.2) hnext.1

/-- Lets time pass. What is due at the very end of the wait is left for the next one. -/
def sleep (e : Engine φ) (d : Duration) : Engine φ :=
  e.runUntil (e.now + d.nanos) fun _ => false

/-- Waits for the current run to complete a refresh, for up to a limit. Answers whether it has, and
how long the wait took. -/
def waitUntilReady (e : Engine φ) (limit : Duration) : Bool × Duration × Engine φ :=
  let told (later : Engine φ) := later.notifiers.getD e.notifier false
  if told e then (true, .zero, e)
  else
    let later := e.runUntil (e.now + limit.nanos) told
    (told later, ⟨later.now - e.now⟩, later)

/-- Begins to wait in the background. -/
def spawnWait (e : Engine φ) : Nat × Engine φ :=
  (e.waiters.length, { e with waiters := e.waiters ++ [.called] })

/-- Whether a wait in the background has ended. -/
def waitHasEnded (e : Engine φ) (i : Nat) : Bool := e.waiters[i]? == some .ended

/-- Asks one feed for its prices and waits for the answer. -/
def fetchFrom (e : Engine φ) (id : FeedId) : Except Fault (Option Answer × Engine φ) :=
  match e.feeds[id]? with
  | none => .ok (none, e)
  | some feed =>
    let e := e.sleep (PriceFeed.delay feed)
    match e.feeds[id]?.map PriceFeed.fetch with
    | none => .ok (none, e)
    | some (_, .error fault) => .error fault
    | some (feed, .ok answer) => .ok (some answer, { e with feeds := e.feeds.set id feed })

end Engine

end ExchangeRates

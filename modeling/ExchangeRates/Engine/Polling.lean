import ExchangeRates.Engine.Basic

namespace ExchangeRates.Engine

variable {φ : Type}

/-- Changes what a task is doing. -/
def setPhase (e : Engine φ) (i : Nat) (phase : Phase) : Engine φ :=
  { e with tasks := e.tasks.modify i fun t => { t with phase } }

/-- Begins a cycle with the feeds and the configuration of this instant. -/
def beginCycle (e : Engine φ) (i : Nat) : Engine φ :=
  e.setPhase i (.atGate ⟨e.registered, e.config⟩
    (.begin e.now e.settings.gateTimeout e.registered))

/-- Pauses for the update interval of this instant. -/
def pause (e : Engine φ) (i : Nat) : Engine φ :=
  e.setPhase i (.sleeping (e.now + e.interval.nanos))

/-- The latches after a refresh, and what is reported: the lookups that failed, if they are the
first to fail. -/
def reportMissing (latches : Latches) (outcome : RefreshResult) : Latches × List LogEvent :=
  if outcome.hasMisses then
    ({ latches with miss := latches.miss.silence },
      if latches.miss.armed then
        outcome.missing.map fun m => .assetMissing m.asset m.feed
      else [])
  else (latches, [])

/-- Refreshes the book from the answers of all feeds and ends the cycle. -/
def completeCycle (e : Engine φ) (i notifier : Nat) (config : RateConfig)
    (answers : List (String × Answer)) : Engine φ :=
  let e := e.note (RateBook.failureEvents answers)
  match e.book.refresh e.now config answers with
  | .error error => (e.note [.refreshFailed error]).pause i
  | .ok (book, outcome) =>
    let (latches, events) := reportMissing e.latches outcome
    let refreshed : Engine φ :=
      { e with book, latches, notifiers := e.notifiers.set notifier true }
    (refreshed.note events).pause i

variable [PriceFeed φ]

/-- Asks the feeds of a cycle for their prices. -/
def beginFetching (e : Engine φ) (i : Nat) (cycle : Cycle) : Engine φ :=
  e.setPhase i (.fetching cycle (Fetch.begin e.now e.feeds cycle.feeds))

/-- A step of a task at the gate. -/
def stepGate (e : Engine φ) (i : Nat) (cycle : Cycle) (gate : Gate) : Option (Engine φ) :=
  match gate.step e.feeds e.now e.settings.gateTimeout e.latches.gate with
  | some (gate, latch, events) =>
    let passed : Engine φ := { e with latches := { e.latches with gate := latch } }
    some ((passed.note events).setPhase i (.atGate cycle gate))
  | none => if gate.waiting = [] then some (e.beginFetching i cycle) else none

/-- A step of a task that has asked the feeds for their prices. -/
def stepFetching (e : Engine φ) (i notifier : Nat) (cycle : Cycle) (requests : List Fetch) :
    Option (Engine φ) :=
  match Fetch.step e.feeds e.now requests with
  | some (feeds, .ok requests) =>
    some ({ e with feeds }.setPhase i (.fetching cycle requests))
  | some (feeds, .error fault) =>
    let broken : Engine φ := { e with feeds }
    some ((broken.note [.refreshBroken fault]).pause i)
  | none => (Fetch.answers? requests).map (e.completeCycle i notifier cycle.config)

/-- A step of a task at this instant; nothing if it has been ended or has to wait. -/
def stepTask (e : Engine φ) (i : Nat) : Option (Engine φ) :=
  match e.tasks[i]? with
  | none => none
  | some task =>
    if task.aborted then none
    else
      match task.phase with
      | .spawned => some (e.beginCycle i)
      | .sleeping t => if t ≤ e.now then some (e.beginCycle i) else none
      | .atGate cycle gate => e.stepGate i cycle gate
      | .fetching cycle requests => e.stepFetching i task.notifier cycle requests

/-- A step of somebody who waits. The wait begins with the notifier of that instant, and ends when
it has told of a success or has been replaced. -/
def stepWaiter (e : Engine φ) (i : Nat) : Option (Engine φ) :=
  match e.waiters[i]? with
  | some .called => some { e with waiters := e.waiters.set i (.waiting e.notifier) }
  | some (.waiting n) =>
    if e.notifiers.getD n false || n != e.notifier then
      some { e with waiters := e.waiters.set i .ended }
    else none
  | _ => none

/-- A step of the feeds: each that is due does its work. -/
def stepFeeds (e : Engine φ) : Option (Engine φ) :=
  if e.feeds.any fun feed => (PriceFeed.wakesAt feed).any (· ≤ e.now) then
    let (feeds, events) := wakeFeeds e.now e.feeds
    let woken : Engine φ := { e with feeds }
    some (woken.note events)
  else none

/-- The next step that can be taken at this instant: feeds come before tasks, and tasks before
those who wait. -/
def step (e : Engine φ) : Option (Engine φ) :=
  e.stepFeeds.or (((List.range e.tasks.length).findSome? e.stepTask).or
    ((List.range e.waiters.length).findSome? e.stepWaiter))

end ExchangeRates.Engine

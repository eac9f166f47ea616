import ExchangeRates.Feed
import ExchangeRates.Latch

namespace ExchangeRates

/-- A gate that feeds pass one after the other, each when it is ready or has had its time. -/
structure Gate where
  /-- The feeds that have not passed; the first of them has its turn. -/
  waiting : List FeedId
  /-- When the turn of the first feed ends. -/
  deadline : Instant
  /-- How many feeds were passed over. -/
  timedOut : Nat

namespace Gate

variable {φ : Type} [PriceFeed φ]

/-- The gate in front of a list of feeds. -/
def begin (now : Instant) (timeout : Duration) (feeds : List FeedId) : Gate :=
  ⟨feeds, now + timeout.nanos, 0⟩

/-- Gives the next feed its turn. -/
def pass (now : Instant) (timeout : Duration) (rest : List FeedId) (timedOut : Nat) : Gate :=
  ⟨rest, now + timeout.nanos, timedOut⟩

/-- Moves on by one feed, if its first feed is ready or has had its time. A feed that is not ready
in time is counted, and the first that the latch ever sees is reported. -/
def step (feeds : List φ) (now : Instant) (timeout : Duration) (latch : Latch) (gate : Gate) :
    Option (Gate × Latch × List LogEvent) :=
  match gate.waiting with
  | [] => none
  | id :: rest =>
    match feeds[id]? with
    | none => some (pass now timeout rest gate.timedOut, latch, [])
    | some feed =>
      if PriceFeed.ready feed then some (pass now timeout rest gate.timedOut, latch, [])
      else if gate.deadline ≤ now then
        let (isFirst, latch) := latch.trip
        some (pass now timeout rest (gate.timedOut + 1), latch,
          if isFirst then [.feedNotReady (PriceFeed.name feed) timeout] else [])
      else none

end Gate

variable {φ : Type} [PriceFeed φ]

/-- Does the work of every feed that is due. -/
def wakeFeeds (now : Instant) (feeds : List φ) : List φ × List LogEvent :=
  let woken := feeds.map fun feed =>
    match PriceFeed.wakesAt feed with
    | some t => if t ≤ now then PriceFeed.wake now feed else (feed, [])
    | none => (feed, [])
  (woken.map Prod.fst, woken.flatMap Prod.snd)

/-- The earliest instant after `now` at which a feed has work to do. -/
def nextWake? (now : Instant) (feeds : List φ) : Option Instant :=
  (feeds.filterMap fun feed => (PriceFeed.wakesAt feed).filter (now < ·)).min?

/-- The next instant worth looking at: when a feed has work to do, or the end of the turn. -/
def nextMoment (now deadline : Instant) (feeds : List φ) : Instant :=
  match nextWake? now feeds with
  | some t => if now < t ∧ t < deadline then t else deadline
  | none => deadline

theorem lt_nextMoment {now deadline : Instant} {feeds : List φ} (h : now < deadline) :
    now < nextMoment now deadline feeds := by
  unfold nextMoment
  split
  · split
    · next hbetween => exact hbetween.1
    · exact h
  · exact h

/-- What is left of a wait at a gate: the time, the feeds, the latch, how many feeds were passed
over, and what was reported. -/
structure Passage (φ : Type) where
  now : Instant
  feeds : List φ
  latch : Latch
  timedOut : Nat
  events : List LogEvent

theorem Gate.waiting_of_step {feeds : List φ} {now : Instant} {timeout : Duration} {latch : Latch}
    {gate next : Gate} {later : Latch} {events : List LogEvent}
    (h : gate.step feeds now timeout latch = some (next, later, events)) :
    next.waiting.length < gate.waiting.length := by
  unfold step at h
  split at h
  · simp at h
  · next id rest hwaiting =>
    have hlength : next.waiting = rest := by
      split at h
      · simp_all [pass]
        rw [← h.1]
      · split at h
        · simp_all [pass]
          rw [← h.1]
        · split at h
          · simp_all [pass]
            rw [← h.1]
          · simp at h
    simp [hwaiting, hlength]

/-- Waits at a gate until all feeds have passed it. Between two turns the clock goes on to the end
of the turn, or to the next instant at which a feed has work to do. -/
def Gate.await (timeout : Duration) (now : Instant) (feeds : List φ) (latch : Latch) (gate : Gate)
    (events : List LogEvent) : Passage φ :=
  match _ : gate.step feeds now timeout latch with
  | some (next, latch, reported) => next.await timeout now feeds latch (events ++ reported)
  | none =>
    if gate.waiting = [] then ⟨now, feeds, latch, gate.timedOut, events⟩
    else
      let (feeds, reported) := wakeFeeds now feeds
      let events := events ++ reported
      match _ : gate.step feeds now timeout latch with
      | some (next, latch, reported) => next.await timeout now feeds latch (events ++ reported)
      | none =>
        if now < gate.deadline then
          gate.await timeout (nextMoment now gate.deadline feeds) feeds latch events
        else ⟨now, feeds, latch, gate.timedOut, events⟩
termination_by (gate.waiting.length, gate.deadline - now)
decreasing_by
  · next hstep => exact Prod.Lex.left _ _ (waiting_of_step hstep)
  · next hstep => exact Prod.Lex.left _ _ (waiting_of_step hstep)
  · next hturn => exact Prod.Lex.right _ (Nat.sub_lt_sub_left hturn (lt_nextMoment hturn))

/-- Waits for a list of feeds. -/
def waitForFeeds (timeout : Duration) (now : Instant) (feeds : List φ) (ids : List FeedId)
    (latch : Latch) : Passage φ :=
  (Gate.begin now timeout ids).await timeout now feeds latch []

end ExchangeRates

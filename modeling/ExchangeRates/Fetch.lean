import ExchangeRates.Feed

namespace ExchangeRates

/-- A request to a feed. -/
structure Fetch where
  feed : FeedId
  /-- When the feed answers. -/
  dueAt : Instant
  /-- The name and the answer of the feed, once it has answered. -/
  answer : Option (String × Answer)

namespace Fetch

variable {φ : Type} [PriceFeed φ]

/-- Asks all feeds of a list, each as often as it stands there. -/
def begin (now : Instant) (feeds : List φ) (ids : List FeedId) : List Fetch :=
  ids.filterMap fun id =>
    feeds[id]?.map fun feed => ⟨id, now + (PriceFeed.delay feed).nanos, none⟩

/-- Lets the first request answer that is due and has not been answered. What a feed answers is
settled then, and its breakdown ends all requests. -/
def step (feeds : List φ) (now : Instant) : List Fetch → Option (List φ × Except Fault (List Fetch))
  | [] => none
  | request :: rest =>
    if request.answer.isNone && request.dueAt ≤ now then
      feeds[request.feed]?.map fun feed =>
        let (feed', result) := PriceFeed.fetch feed
        (feeds.set request.feed feed', result.map fun answer =>
          { request with answer := some (PriceFeed.name feed, answer) } :: rest)
    else
      (step feeds now rest).map fun (feeds, result) => (feeds, result.map (request :: ·))

/-- All answers in order, once there are no others to come. -/
def answers? (requests : List Fetch) : Option (List (String × Answer)) :=
  requests.mapM Fetch.answer

/-- When the next answer is due. -/
def nextDue? (requests : List Fetch) : Option Instant :=
  ((requests.filter fun r => r.answer.isNone).map Fetch.dueAt).min?

/-- Waits for at most `count` answers, each when it is due. -/
def collectSome (count : Nat) (now : Instant) (feeds : List φ) (requests : List Fetch) :
    Except Fault (Instant × List φ × List Fetch) :=
  match count, nextDue? requests with
  | count + 1, some due =>
    let later := max now due
    match step feeds later requests with
    | some (feeds, .ok requests) => collectSome count later feeds requests
    | some (_, .error fault) => .error fault
    | none => .ok (later, feeds, requests)
  | _, _ => .ok (now, feeds, requests)

/-- Asks all feeds of a list and waits for their answers. -/
def collect (now : Instant) (feeds : List φ) (ids : List FeedId) :
    Except Fault (Instant × List φ × List (String × Answer)) := do
  let requests := begin now feeds ids
  let (now, feeds, requests) ← collectSome requests.length now feeds requests
  return (now, feeds, requests.filterMap Fetch.answer)

end Fetch

/-- Refreshes a book from a list of feeds, waiting for them to answer. -/
def RateBook.refreshFrom {φ : Type} [PriceFeed φ] (now : Instant) (book : RateBook)
    (config : RateConfig) (feeds : List φ) (ids : List FeedId) :
    Except Fault (Instant × List φ × List LogEvent ×
      Except RateError (RateBook × RefreshResult)) := do
  let (now, feeds, answers) ← Fetch.collect now feeds ids
  return (now, feeds, RateBook.failureEvents answers, book.refresh now config answers)

end ExchangeRates

import ExchangeRates.Gate

namespace ExchangeRates

variable {φ : Type} [PriceFeed φ]

/-- Lets time pass up to a limit. What is due at the limit itself is left. -/
def passTime (now limit : Instant) (feeds : List φ) (events : List LogEvent) :
    List φ × List LogEvent :=
  if now < limit then
    let (feeds, reported) := wakeFeeds now feeds
    passTime (nextMoment now limit feeds) limit feeds (events ++ reported)
  else (feeds, events)
termination_by limit - now
decreasing_by
  next hlimit => exact Nat.sub_lt_sub_left hlimit (lt_nextMoment hlimit)

end ExchangeRates

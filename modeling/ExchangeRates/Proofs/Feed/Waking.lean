import ExchangeRates.Gate

namespace ExchangeRates

variable {φ : Type} [PriceFeed φ]

/-- Does the work of a feed if it is due. -/
def wakeFeed (now : Instant) (feed : φ) : φ × List LogEvent :=
  match PriceFeed.wakesAt feed with
  | some t => if t ≤ now then PriceFeed.wake now feed else (feed, [])
  | none => (feed, [])

/-- Feeds are woken one by one, whatever the others do. -/
theorem wakeFeeds_eq (now : Instant) (feeds : List φ) :
    wakeFeeds now feeds = (feeds.map fun feed => (wakeFeed now feed).1,
      feeds.flatMap fun feed => (wakeFeed now feed).2) :=
  Prod.ext List.map_map (List.flatMap_map ..)

theorem wakeFeed_of_quiet {now : Instant} {feed : φ}
    (h : ∀ t, PriceFeed.wakesAt feed = some t → now < t) : wakeFeed now feed = (feed, []) := by
  unfold wakeFeed
  split
  · next t ht => exact if_neg (Nat.not_le_of_gt (h t ht))
  · rfl

/-- A feed does its work, or it has none to do. -/
theorem wakeFeed_cases (now : Instant) (feed : φ) :
    wakeFeed now feed = PriceFeed.wake now feed ∨
    wakeFeed now feed = (feed, []) ∧ ∀ t, PriceFeed.wakesAt feed = some t → now < t := by
  by_cases hdue : ∃ t, PriceFeed.wakesAt feed = some t ∧ t ≤ now
  · obtain ⟨t, ht, hle⟩ := hdue
    simp [wakeFeed, ht, hle]
  · have hquiet : ∀ t, PriceFeed.wakesAt feed = some t → now < t :=
      fun t ht => Nat.lt_of_not_le fun hle => hdue ⟨t, ht, hle⟩
    exact .inr ⟨wakeFeed_of_quiet hquiet, hquiet⟩

/-- What no feed changes by its work is the same when all have been woken. -/
theorem map_wakeFeeds {β : Type} {f : φ → β} {now : Instant}
    (h : ∀ feed, f (PriceFeed.wake now feed).1 = f feed) (feeds : List φ) :
    (wakeFeeds now feeds).1.map f = feeds.map f := by
  rw [wakeFeeds_eq, List.map_map]
  apply List.map_congr_left
  intro feed _
  obtain hwoken | ⟨hquiet, -⟩ := wakeFeed_cases now feed
  · rw [Function.comp_apply, hwoken, h]
  · rw [Function.comp_apply, hquiet]

end ExchangeRates

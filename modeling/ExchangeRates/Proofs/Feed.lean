import ExchangeRates.Feed.Scripted
import ExchangeRates.Engine.Lifecycle
import ExchangeRates.Proofs.Feed.Ticking
import ExchangeRates.Proofs.Feed.Waking
import ExchangeRates.Proofs.Fetch
import Mathlib.Logic.Function.Iterate

namespace ExchangeRates

/-- A kind of feeds that run exactly from a start to the next stop. -/
class LawfulFeed (φ : Type) [PriceFeed φ] : Prop where
  started_start (now : Instant) (feed : φ) :
    PriceFeed.started (PriceFeed.start now feed) = true
  started_stop (feed : φ) : PriceFeed.started (PriceFeed.stop feed) = false
  started_fetch (feed : φ) : PriceFeed.started (PriceFeed.fetch feed).1 = PriceFeed.started feed
  started_wake (now : Instant) (feed : φ) :
    PriceFeed.started (PriceFeed.wake now feed).1 = PriceFeed.started feed

instance : LawfulFeed ScriptedFeed where
  started_start _ _ := rfl
  started_stop _ := rfl
  started_fetch feed := by
    simp only [PriceFeed.fetch, PriceFeed.started, ScriptedFeed.fetch]
    split <;> rfl
  started_wake _ _ := rfl

instance : LawfulFeed WalkingFeed where
  started_start _ _ := rfl
  started_stop _ := rfl
  started_fetch _ := rfl
  started_wake := WalkingFeed.started_wake

variable {φ : Type}

/-- A feed changed at several places, some of them more than once. -/
theorem getElem?_foldl_updateFeed (ids : List FeedId) (f : φ → φ) (feeds : List φ) (j : FeedId) :
    (ids.foldl (fun feeds id => updateFeed feeds id f) feeds)[j]? =
      feeds[j]?.map (f^[ids.count j]) := by
  induction ids generalizing feeds with
  | nil => simp
  | cons id ids ih =>
    rw [List.foldl_cons, ih, updateFeed, List.getElem?_modify, Option.map_eq_map, Option.map_map]
    congr 1
    funext feed
    by_cases hj : id = j <;> simp [hj]

variable [PriceFeed φ]

/-- Whether the feed at a place runs, if there is one. -/
def running? (feeds : List φ) (id : FeedId) : Option Bool := feeds[id]?.map PriceFeed.started

theorem running?_updateFeed (feeds : List φ) (id j : FeedId) (f : φ → φ)
    (hf : ∀ feed, PriceFeed.started (f feed) = PriceFeed.started feed) :
    running? (updateFeed feeds id f) j = running? feeds j := by
  unfold running? updateFeed
  rw [List.getElem?_modify, Option.map_eq_map, Option.map_map]
  congr 1
  funext feed
  by_cases hj : id = j <;> simp [hj, hf]

/-- Feeds that are all started, or all stopped, run or do not; the others are as they were. -/
theorem running?_foldl_updateFeed (ids : List FeedId) (f : φ → φ) (b : Bool)
    (hf : ∀ feed, PriceFeed.started (f feed) = b) (feeds : List φ) (j : FeedId) :
    running? (ids.foldl (fun feeds id => updateFeed feeds id f) feeds) j =
      (running? feeds j).map fun running => if j ∈ ids then b else running := by
  unfold running?
  rw [getElem?_foldl_updateFeed, Option.map_map, Option.map_map]
  congr 1
  funext feed
  by_cases hj : j ∈ ids
  · obtain ⟨n, hcount⟩ := Nat.exists_eq_succ_of_ne_zero
      (Nat.pos_iff_ne_zero.mp (List.count_pos_iff.mpr hj))
    simp only [Function.comp_apply, hcount, Function.iterate_succ_apply', hf, if_pos hj]
  · simp [List.count_eq_zero.mpr hj, hj]

variable [LawfulFeed φ]

theorem started_startFeed (now : Instant) (feed : φ) :
    PriceFeed.started (Engine.startFeed now feed) = true := by
  unfold Engine.startFeed
  split
  · assumption
  · exact LawfulFeed.started_start now feed

theorem running?_wakeFeeds (now : Instant) (feeds : List φ) (j : FeedId) :
    running? (wakeFeeds now feeds).1 j = running? feeds j := by
  unfold running?
  rw [← List.getElem?_map, map_wakeFeeds (LawfulFeed.started_wake now), List.getElem?_map]

theorem running?_step {feeds later : List φ} {now : Instant} {requests : List Fetch}
    {result : Except Fault (List Fetch)} (h : Fetch.step feeds now requests = some (later, result))
    (j : FeedId) : running? later j = running? feeds j := by
  obtain ⟨before, request, after, feed, -, -, hfeed, rfl, -⟩ := Fetch.step_eq_some h
  unfold running?
  by_cases hj : request.feed = j
  · subst hj
    obtain ⟨hlt, -⟩ := List.getElem?_eq_some_iff.mp hfeed
    rw [List.getElem?_set_self hlt, hfeed]
    exact congrArg some (LawfulFeed.started_fetch feed)
  · rw [List.getElem?_set_ne hj]

end ExchangeRates

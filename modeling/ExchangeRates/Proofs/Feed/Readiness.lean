import ExchangeRates.Feed.Clock
import ExchangeRates.Proofs.Engine.FeedNames
import ExchangeRates.Proofs.Engine.Settling

namespace ExchangeRates

section

variable {φ : Type} [PriceFeed φ]

/-- A feed some time after an instant, with all the work done that was due by then. -/
def leftAlone (now : Instant) (feed : φ) : (nanos : Nat) → φ
  | 0 => (wakeFeed now feed).1
  | n + 1 => (wakeFeed (now + (n + 1)) (leftAlone now feed n)).1

theorem leftAlone_of_quiet {now : Instant} {feed : φ} {n : Nat}
    (h : ∀ t, PriceFeed.wakesAt feed = some t → now + n < t) : leftAlone now feed n = feed := by
  induction n with
  | zero => exact congrArg Prod.fst (wakeFeed_of_quiet h)
  | succ n ih =>
    rw [leftAlone, ih fun t ht => Nat.lt_trans (Nat.lt_succ_self _) (h t ht), wakeFeed_of_quiet h]

theorem leftAlone_leftAlone (now : Instant) (feed : φ) (m n : Nat) :
    leftAlone (now + m + 1) (leftAlone now feed m) n = leftAlone now feed (m + 1 + n) := by
  induction n with
  | zero => rfl
  | succ n ih =>
    have hnow : now + m + 1 + (n + 1) = now + (m + 1 + (n + 1)) := by simp only [Nat.add_assoc]
    rw [leftAlone, ih, hnow]
    rfl

/-- A feed becomes ready at an instant and stays so, or it never becomes ready. What is due now may
or may not have been done. -/
structure BecomesReady (now : Instant) (feed : φ) (readyAt : Option Instant) : Prop where
  by_now : PriceFeed.ready feed = true → ∃ r ∈ readyAt, r ≤ now
  before_now : ∀ r ∈ readyAt, r < now → PriceFeed.ready feed = true
  from_now (nanos : Nat) :
    PriceFeed.ready (leftAlone now feed nanos) = true ↔ ∃ r ∈ readyAt, r ≤ now + nanos

namespace BecomesReady

variable {now t : Instant} {feed : φ} {readyAt : Option Instant}

/-- A feed that has nothing to do becomes ready when it will, also if it is looked at only later. -/
theorem wait (h : BecomesReady now feed readyAt) (hlater : now < t)
    (hquiet : ∀ due, PriceFeed.wakesAt feed = some due → t ≤ due) :
    BecomesReady t feed readyAt := by
  obtain ⟨n, rfl⟩ := Nat.exists_eq_add_of_lt hlater
  have hsame : leftAlone now feed n = feed := leftAlone_of_quiet hquiet
  have hready := h.from_now n
  rw [hsame] at hready
  refine ⟨fun hfeed => ?_, fun r hr hbefore => ?_, fun nanos => ?_⟩
  · obtain ⟨r, hr, hle⟩ := hready.mp hfeed
    exact ⟨r, hr, Nat.le_succ_of_le hle⟩
  · exact hready.mpr ⟨r, hr, Nat.le_of_lt_succ hbefore⟩
  · have honward := h.from_now (n + 1 + nanos)
    rwa [← leftAlone_leftAlone, hsame, ← Nat.add_assoc] at honward

end BecomesReady

section

variable [PacedFeed φ] {now t : Instant} {feed : φ} {readyAt : Option Instant}

theorem leftAlone_wakeFeed (now : Instant) (feed : φ) (nanos : Nat) :
    leftAlone now (wakeFeed now feed).1 nanos = leftAlone now feed nanos := by
  induction nanos with
  | zero => rw [leftAlone, wakeFeed_of_quiet fun _ => lt_of_wakesAt_wakeFeed, leftAlone]
  | succ n ih => rw [leftAlone, ih, leftAlone]

/-- A feed that is left alone is due only later. -/
theorem lt_of_wakesAt_leftAlone {nanos : Nat}
    (h : PriceFeed.wakesAt (leftAlone now feed nanos) = some t) : now + nanos < t := by
  cases nanos with
  | zero => exact lt_of_wakesAt_wakeFeed h
  | succ n => exact lt_of_wakesAt_wakeFeed h

/-- A feed becomes ready when it will, whether or not its work is done at once. -/
theorem BecomesReady.wake (h : BecomesReady now feed readyAt) :
    BecomesReady now (wakeFeed now feed).1 readyAt where
  by_now := (h.from_now 0).mp
  before_now r hr hbefore := (h.from_now 0).mpr ⟨r, hr, Nat.le_of_lt hbefore⟩
  from_now nanos := by rw [leftAlone_wakeFeed, h.from_now]

end

/-- No feed has work to do between now and the next moment. -/
theorem nextMoment_le {now deadline due : Instant} {feeds : List φ} {feed : φ}
    (hmem : feed ∈ feeds) (hdue : PriceFeed.wakesAt feed = some due) (hlater : now < due) :
    nextMoment now deadline feeds ≤ due := by
  obtain ⟨next, hnext, hle⟩ := exists_nextWake?_le hmem hdue hlater
  have hnow := (exists_wakesAt_of_nextWake? hnext).2
  unfold nextMoment
  rw [hnext]
  dsimp only
  split
  · exact hle
  · next hnot => exact Nat.le_trans (Nat.le_of_not_lt fun hlt => hnot ⟨hnow, hlt⟩) hle

theorem nextMoment_le_deadline (now deadline : Instant) (feeds : List φ) :
    nextMoment now deadline feeds ≤ deadline := by
  unfold nextMoment
  split
  · split
    · next hbetween => exact Nat.le_of_lt hbetween.2
    · exact Nat.le_refl _
  · exact Nat.le_refl _

/-- As time passes, each feed of a list is left alone. -/
theorem passTime_eq [PacedFeed φ] {now limit : Instant} (hlimit : now < limit) (feeds : List φ)
    (events : List LogEvent) :
    (passTime now limit feeds events).1 =
      feeds.map fun feed => leftAlone now feed (limit - (now + 1)) := by
  induction hleft : limit - now using Nat.strongRecOn generalizing now feeds events with
  | ind left ih =>
  have hquiet : ∀ feed ∈ feeds, ∀ due, PriceFeed.wakesAt (wakeFeed now feed).1 = some due →
      nextMoment now limit (wakeFeeds now feeds).1 ≤ due := by
    intro feed hfeed due hdue
    refine nextMoment_le ?_ hdue (lt_of_wakesAt_wakeFeed hdue)
    rw [wakeFeeds_eq]
    exact List.mem_map_of_mem hfeed
  have hlater : now < nextMoment now limit (wakeFeeds now feeds).1 := lt_nextMoment hlimit
  have hle := nextMoment_le_deadline now limit (wakeFeeds now feeds).1
  rw [passTime, if_pos hlimit]
  dsimp only
  generalize nextMoment now limit (wakeFeeds now feeds).1 = t at hquiet hlater hle
  obtain ⟨m, rfl⟩ := Nat.exists_eq_add_of_lt hlater
  -- Once it has been woken, a feed has nothing to do before the next moment.
  have hwoken : ∀ feed ∈ feeds, leftAlone now feed m = (wakeFeed now feed).1 := by
    intro feed hfeed
    rw [← leftAlone_wakeFeed]
    exact leftAlone_of_quiet (hquiet feed hfeed)
  obtain rfl | hbefore := Nat.eq_or_lt_of_le hle
  · rw [passTime, if_neg (Nat.lt_irrefl _), wakeFeeds_eq]
    refine List.map_congr_left fun feed hfeed => ?_
    rw [← hwoken feed hfeed, Nat.add_right_comm, Nat.add_sub_cancel_left]
  · rw [ih _ (hleft ▸ Nat.sub_lt_sub_left hlimit hlater) hbefore _ _ rfl, wakeFeeds_eq,
      List.map_map]
    refine List.map_congr_left fun feed hfeed => ?_
    obtain ⟨n, rfl⟩ := Nat.exists_eq_add_of_lt hbefore
    rw [Function.comp_apply, ← hwoken feed hfeed, leftAlone_leftAlone]
    congr 1
    omega

/-- The feed at a place becomes ready at an instant, or never. -/
def BecomesReadyAt (now : Instant) (feeds : List φ) (id : FeedId) (readyAt : Option Instant) :
    Prop :=
  ∃ feed, feeds[id]? = some feed ∧ BecomesReady now feed readyAt

/-- Feeds that have been left alone from one instant to another keep their names, and become ready
when they would have. -/
structure Onward (now : Instant) (feeds : List φ) (t : Instant) (later : List φ) : Prop where
  names : feedNames later = feedNames feeds
  readyAt {id : FeedId} {readyAt : Option Instant} :
    BecomesReadyAt now feeds id readyAt → BecomesReadyAt t later id readyAt

namespace Onward

variable {now t t' deadline : Instant} {feeds middle later : List φ}

theorem refl (now : Instant) (feeds : List φ) : Onward now feeds now feeds := ⟨rfl, id⟩

theorem trans (h : Onward now feeds t middle) (hnext : Onward t middle t' later) :
    Onward now feeds t' later :=
  ⟨hnext.names.trans h.names, hnext.readyAt ∘ h.readyAt⟩

/-- To wait for the next moment at which a feed has work to do is to leave all of them alone. -/
theorem wait (hquiet : anyDue now feeds = false) (hdeadline : now < deadline) :
    Onward now feeds (nextMoment now deadline feeds) feeds := by
  refine ⟨rfl, ?_⟩
  rintro id readyAt ⟨feed, hfeed, h⟩
  have hmem := List.mem_of_getElem? hfeed
  refine ⟨feed, hfeed, h.wait (lt_nextMoment hdeadline) fun due hdue => ?_⟩
  have hlater : now < due := by simpa [hdue] using List.any_eq_false.mp hquiet feed hmem
  exact nextMoment_le hmem hdue hlater

theorem wake [PacedFeed φ] [NamedFeed φ] (now : Instant) (feeds : List φ) :
    Onward now feeds now (wakeFeeds now feeds).1 := by
  refine ⟨Engine.feedNames_wakeFeeds now feeds, ?_⟩
  rintro id readyAt ⟨feed, hfeed, h⟩
  exact ⟨_, by rw [wakeFeeds_eq, List.getElem?_map, hfeed, Option.map_some], h.wake⟩

end Onward

end

namespace ScriptedFeed

variable {now : Instant} {feed : ScriptedFeed}

theorem wakeFeed_eq (now : Instant) (feed : ScriptedFeed) :
    (wakeFeed now feed).1 = if feed.readyAt.any (· ≤ now) then feed.makeReady else feed := by
  simp only [wakeFeed, PriceFeed.wakesAt, PriceFeed.wake]
  cases feed.readyAt with
  | none => rfl
  | some t => by_cases ht : t ≤ now <;> simp [ht]

theorem leftAlone_eq (now : Instant) (feed : ScriptedFeed) (nanos : Nat) :
    leftAlone now feed nanos =
      if feed.readyAt.any (· ≤ now + nanos) then feed.makeReady else feed := by
  induction nanos with
  | zero => exact wakeFeed_eq now feed
  | succ n ih =>
    rw [leftAlone, ih]
    split
    · next hdone =>
      obtain ⟨r, hr, hle⟩ := (Option.any_eq_true _ _).mp hdone
      have hlater : r ≤ now + (n + 1) := Nat.le_succ_of_le (of_decide_eq_true hle)
      rw [wakeFeed_eq, hr]
      simp [makeReady, hlater]
    · exact wakeFeed_eq _ feed

/-- A feed that is ready has become so at any earlier instant. -/
theorem becomesReady_of_ready {r : Instant} (h : feed.ready = true) (hr : r ≤ now) :
    BecomesReady now feed (some r) where
  by_now _ := ⟨r, rfl, hr⟩
  before_now _ _ _ := h
  from_now nanos := by
    rw [leftAlone_eq]
    refine iff_of_true ?_ ⟨r, rfl, Nat.le_add_right_of_le hr⟩
    split
    · rfl
    · exact h

/-- A feed that is not ready becomes so when it was told to, at any later instant or never. -/
theorem becomesReady_readyAt (h : feed.ready = false) (hlater : ∀ r ∈ feed.readyAt, now ≤ r) :
    BecomesReady now feed feed.readyAt where
  by_now hready := by cases h.symm.trans hready
  before_now r hr hbefore := absurd (hlater r hr) (Nat.not_le_of_gt hbefore)
  from_now nanos := by
    rw [leftAlone_eq]
    cases hready : feed.readyAt with
    | none => simp [PriceFeed.ready, h]
    | some r => by_cases hr : r ≤ now + nanos <;> simp [PriceFeed.ready, makeReady, h, hr]

end ScriptedFeed

end ExchangeRates

import ExchangeRates.Proofs.Engine.Reports
import ExchangeRates.Proofs.Feed.Readiness
import ExchangeRates.Proofs.Gate.Await

namespace ExchangeRates

/-- A kind of feeds whose work reports nothing that has to pass a latch. -/
class QuietFeed (φ : Type) [PriceFeed φ] : Prop where
  report?_wake (now : Instant) (feed : φ) :
    ∀ event ∈ (PriceFeed.wake now feed).2, event.report? = none

instance : QuietFeed ScriptedFeed where
  report?_wake _ _ _ hevent := by cases hevent

instance : QuietFeed WalkingFeed where
  report?_wake _ _ event hevent := by
    rw [WalkingFeed.mem_events_wake hevent]
    rfl

/-- The reports of feeds that were not ready in time. -/
def notReady (events : List LogEvent) : List LogEvent :=
  events.filter fun event => event.report? = some .gate

theorem notReady_append (first rest : List LogEvent) :
    notReady (first ++ rest) = notReady first ++ notReady rest := List.filter_append ..

/-- When the turn of a feed ends that becomes ready at an instant, or never. -/
def turnEnd (now deadline : Instant) : (readyAt : Option Instant) → Instant
  | some r => if r ≤ now then now else if r < deadline then r else deadline
  | none => deadline

/-- Whether a feed becomes ready only when its turn has ended, if at all. -/
def isLate (deadline : Instant) (readyAt : Option Instant) : Bool := readyAt.all (deadline < ·)

theorem isLate_eq_true_iff {deadline : Instant} {readyAt : Option Instant} :
    isLate deadline readyAt = true ↔ ∀ r ∈ readyAt, deadline < r := by
  cases readyAt <;> simp [isLate]

/-- A turn ends at the same time, however late one looks at a feed that is not yet ready. -/
theorem turnEnd_eq_of_le {now t deadline : Instant} {readyAt : Option Instant}
    (hlater : now < t) (hdeadline : t ≤ deadline) (h : ∀ r ∈ readyAt, t ≤ r) :
    turnEnd t deadline readyAt = turnEnd now deadline readyAt := by
  cases readyAt with
  | none => rfl
  | some r =>
    have ht := h r rfl
    rw [turnEnd, turnEnd, if_neg (Nat.not_le_of_gt (Nat.lt_of_lt_of_le hlater ht))]
    split
    · next hle =>
      obtain rfl := Nat.le_antisymm ht hle
      split
      · rfl
      · next hend => exact Nat.le_antisymm hdeadline (Nat.le_of_not_lt hend)
    · rfl

section

variable {φ : Type} [PriceFeed φ] {timeout : Duration} {now deadline : Instant}
  {feeds later : List φ} {latch : Latch} {id : FeedId} {readyAt : Option Instant} {name : String}
  {events reported : List LogEvent}

theorem notReady_wakeFeeds [QuietFeed φ] (now : Instant) (feeds : List φ) :
    notReady (wakeFeeds now feeds).2 = [] := by
  rw [notReady, wakeFeeds_eq, List.filter_eq_nil_iff]
  intro event hevent
  obtain ⟨feed, -, hwake⟩ := List.mem_flatMap.mp hevent
  obtain hwoken | ⟨hquiet, -⟩ := wakeFeed_cases now feed
  · rw [hwoken] at hwake
    simp [QuietFeed.report?_wake now feed event hwake]
  · rw [hquiet] at hwake
    cases hwake

/-- How a wait for the one feed that has its turn ends, by when the feed becomes ready. -/
structure EndsTurn (timeout : Duration) (now deadline : Instant) (feeds : List φ) (latch : Latch)
    (events : List LogEvent) (name : String) (readyAt : Option Instant) (p : Passage φ) : Prop where
  ends : p.now = turnEnd now deadline readyAt
  counts : p.timedOut = if isLate deadline readyAt then 1 else 0
  trips : p.latch = if isLate deadline readyAt then ⟨false⟩ else latch
  reports : notReady p.events = notReady events ++
    if isLate deadline readyAt && latch.armed then [.feedNotReady name timeout] else []
  onward : Onward now feeds p.now p.feeds

/-- A turn that goes on later ends as it does then. -/
theorem EndsTurn.of_wait {t : Instant} {p : Passage φ}
    (h : EndsTurn timeout t deadline later latch (events ++ reported) name readyAt p)
    (hends : turnEnd t deadline readyAt = turnEnd now deadline readyAt)
    (hreported : notReady reported = []) (honward : Onward now feeds t later) :
    EndsTurn timeout now deadline feeds latch events name readyAt p where
  ends := h.ends.trans hends
  counts := h.counts
  trips := h.trips
  reports := by rw [h.reports, notReady_append, hreported, List.append_nil]
  onward := honward.trans h.onward

theorem endsTurn_of_ready (hready : ∃ r ∈ readyAt, r ≤ now) (hturn : now ≤ deadline)
    (hfeeds : Onward now feeds now later) (hreported : notReady reported = []) :
    EndsTurn timeout now deadline feeds latch events name readyAt
      ⟨now, later, latch, 0, events ++ reported⟩ := by
  obtain ⟨r, rfl, hr⟩ := hready
  have hintime : isLate deadline (some r) = false := by
    simpa [isLate] using Nat.le_trans hr hturn
  refine ⟨?_, ?_, ?_, ?_, hfeeds⟩
  · simp [turnEnd, hr]
  · simp [hintime]
  · simp [hintime]
  · simp [hintime, notReady_append, hreported]

theorem endsTurn_of_late (hready : ∀ r ∈ readyAt, now < r) :
    EndsTurn timeout now now feeds latch events name readyAt
      ⟨now, feeds, ⟨false⟩, 1,
        events ++ if latch.armed then [.feedNotReady name timeout] else []⟩ := by
  have hlate := isLate_eq_true_iff.mpr hready
  have hends : turnEnd now now readyAt = now := by
    cases readyAt with
    | none => rfl
    | some r => simp [turnEnd, Nat.not_lt_of_gt (hready r rfl)]
  refine ⟨hends.symm, ?_, ?_, ?_, .refl now feeds⟩
  · simp [hlate]
  · simp [hlate]
  · cases latch.armed <;> simp [hlate, notReady, LogEvent.report?]

/-- What a gate does when one feed has its turn. -/
theorem step_singleton {feed : φ} (hfeed : feeds[id]? = some feed) :
    (⟨[id], deadline, 0⟩ : Gate).step feeds now timeout latch =
      if PriceFeed.ready feed then some (.pass now timeout [] 0, latch, [])
      else if deadline ≤ now then some (.pass now timeout [] 1, ⟨false⟩,
        if latch.armed then [.feedNotReady (PriceFeed.name feed) timeout] else [])
      else none := by
  simp only [Gate.step, hfeed, Latch.trip]
  rfl

variable [PacedFeed φ] [NamedFeed φ] [QuietFeed φ]

/-- The turn of a feed ends when the feed is ready, or else at its deadline. -/
theorem endsTurn_await (hname : (feedNames feeds)[id]? = some name)
    (h : BecomesReadyAt now feeds id readyAt) (hturn : now ≤ deadline)
    (htie : readyAt ≠ some deadline) :
    EndsTurn timeout now deadline feeds latch events name readyAt
      ((⟨[id], deadline, 0⟩ : Gate).await timeout now feeds latch events) := by
  induction hleft : deadline - now using Nat.strongRecOn generalizing now feeds events with
  | ind left ih =>
  have hwaiting : (⟨[id], deadline, 0⟩ : Gate).waiting ≠ [] := List.cons_ne_nil _ _
  obtain ⟨feed, hfeed, hreadyAt⟩ := h
  by_cases hready : PriceFeed.ready feed = true
  · rw [Gate.await_of_step (by rw [step_singleton hfeed, if_pos hready]),
      Gate.await_of_waiting_eq_nil rfl]
    exact endsTurn_of_ready (hreadyAt.by_now hready) hturn (.refl now feeds) rfl
  by_cases hend : deadline ≤ now
  · obtain rfl := Nat.le_antisymm hturn hend
    obtain rfl : PriceFeed.name feed = name := by simpa [feedNames, hfeed] using hname
    rw [Gate.await_of_step (by rw [step_singleton hfeed, if_neg hready, if_pos hend]),
      Gate.await_of_waiting_eq_nil rfl]
    refine endsTurn_of_late fun r hr => Nat.lt_of_le_of_ne ?_ fun heq => htie (heq ▸ hr)
    exact Nat.le_of_not_lt fun hbefore => hready (hreadyAt.before_now r hr hbefore)
  have hstep : (⟨[id], deadline, 0⟩ : Gate).step feeds now timeout latch = none := by
    rw [step_singleton hfeed, if_neg hready, if_neg hend]
  have hwake := Onward.wake now feeds
  obtain ⟨woken, hwoken, hwokenAt⟩ := hwake.readyAt ⟨feed, hfeed, hreadyAt⟩
  by_cases hnow : PriceFeed.ready woken = true
  · rw [Gate.await_of_wake hwaiting hstep (by rw [step_singleton hwoken, if_pos hnow]),
      Gate.await_of_waiting_eq_nil rfl, List.append_nil]
    exact endsTurn_of_ready (hwokenAt.by_now hnow) hturn hwake (notReady_wakeFeeds now feeds)
  -- The feed is not ready at this instant, nor before the next moment.
  obtain ⟨hlater, hwait⟩ := Gate.await_of_wait hwaiting hstep
    (by rw [step_singleton hwoken, if_neg hnow, if_neg hend])
  have honward := Onward.wait (anyDue_wakeFeeds now feeds) hlater
  have hmoment := nextMoment_le_deadline now deadline (wakeFeeds now feeds).1
  have hat := honward.readyAt ⟨woken, hwoken, hwokenAt⟩
  have hnotBefore : ∀ r ∈ readyAt, nextMoment now deadline (wakeFeeds now feeds).1 ≤ r := by
    intro r hr
    obtain ⟨_, hsame, hsameAt⟩ := hat
    obtain rfl := Option.some.inj (hwoken.symm.trans hsame)
    exact Nat.le_of_not_lt fun hbefore => hnow (hsameAt.before_now r hr hbefore)
  rw [hwait]
  refine EndsTurn.of_wait (ih _ ?_ (hwake.names ▸ hname) hat hmoment rfl)
    (turnEnd_eq_of_le (lt_nextMoment hlater) hmoment hnotBefore) (notReady_wakeFeeds now feeds)
    (hwake.trans honward)
  rw [← hleft]
  exact Nat.sub_lt_sub_left hlater (lt_nextMoment hlater)

end

section

variable (timeout : Duration) (readyAt : FeedId → Option Instant)

/-- When the last of some feeds has passed, if each gets its turn when the one before has passed. -/
def passedAt (now : Instant) (ids : List FeedId) : Instant :=
  ids.foldl (fun t id => turnEnd t (t + timeout.nanos) (readyAt id)) now

/-- The feeds that are late, if each gets its turn when the one before has passed. -/
def lateFeeds : (now : Instant) → (ids : List FeedId) → List FeedId
  | _, [] => []
  | now, id :: rest =>
    (if isLate (now + timeout.nanos) (readyAt id) then [id] else []) ++
      lateFeeds (turnEnd now (now + timeout.nanos) (readyAt id)) rest

/-- No feed becomes ready just when its turn ends. -/
def NoTie : (now : Instant) → (ids : List FeedId) → Prop
  | _, [] => True
  | now, id :: rest => readyAt id ≠ some (now + timeout.nanos) ∧
    NoTie (turnEnd now (now + timeout.nanos) (readyAt id)) rest

end

section

variable {timeout : Duration} {readyAt : FeedId → Option Instant} {now deadline r : Instant}
  {id : FeedId} {ids : List FeedId}

theorem turnEnd_some (h : now ≤ deadline) :
    turnEnd now deadline (some r) = min (max now r) deadline := by
  rw [turnEnd]
  split
  · next hle => rw [max_eq_left hle, min_eq_left h]
  · next hlater =>
    rw [max_eq_right (Nat.le_of_not_le hlater)]
    split
    · next hbefore => exact (min_eq_left (Nat.le_of_lt hbefore)).symm
    · next hend => exact (min_eq_right (Nat.le_of_not_lt hend)).symm

theorem turnEnd_bounds (readyAt : Option Instant) (h : now ≤ deadline) :
    now ≤ turnEnd now deadline readyAt ∧ turnEnd now deadline readyAt ≤ deadline := by
  cases readyAt with
  | none => exact ⟨h, le_rfl⟩
  | some r =>
    rw [turnEnd_some h]
    exact ⟨le_min (le_max_left now r) h, min_le_right _ _⟩

theorem noTie_append {first rest : List FeedId} :
    NoTie timeout readyAt now (first ++ rest) ↔
      NoTie timeout readyAt now first ∧
        NoTie timeout readyAt (passedAt timeout readyAt now first) rest := by
  induction first generalizing now with
  | nil => simp [NoTie, passedAt]
  | cons id first ih =>
    simp only [List.cons_append, NoTie, ih, and_assoc, passedAt, List.foldl_cons]

theorem passedAt_bounds :
    now ≤ passedAt timeout readyAt now ids ∧
      passedAt timeout readyAt now ids ≤ now + ids.length * timeout.nanos := by
  induction ids generalizing now with
  | nil => simp [passedAt]
  | cons id rest ih =>
    obtain ⟨hnow, hdeadline⟩ := turnEnd_bounds (readyAt id) (Nat.le_add_right now timeout.nanos)
    obtain ⟨hle, hbound⟩ := @ih (turnEnd now (now + timeout.nanos) (readyAt id))
    refine ⟨Nat.le_trans hnow hle, Nat.le_trans hbound ?_⟩
    rw [List.length_cons, Nat.succ_mul, Nat.add_comm (_ * _), ← Nat.add_assoc]
    exact Nat.add_le_add_right hdeadline _

theorem mem_of_mem_lateFeeds (h : id ∈ lateFeeds timeout readyAt now ids) : id ∈ ids := by
  induction ids generalizing now with
  | nil => exact h
  | cons other rest ih =>
    rcases List.mem_append.mp h with hfirst | hrest
    · split at hfirst
      · rw [List.mem_singleton.mp hfirst]
        exact List.mem_cons_self
      · cases hfirst
    · exact List.mem_cons_of_mem _ (ih hrest)

/-- A feed that is ready before the end of the first turn is late in none. -/
theorem not_mem_lateFeeds (hready : readyAt id = some r) (h : r < now + timeout.nanos) :
    id ∉ lateFeeds timeout readyAt now ids := by
  induction ids generalizing now with
  | nil => exact List.not_mem_nil
  | cons other rest ih =>
    have hturn := (turnEnd_bounds (readyAt other) (Nat.le_add_right now timeout.nanos)).1
    rw [lateFeeds, List.mem_append, not_or]
    refine ⟨?_, ih (Nat.lt_of_lt_of_le h (Nat.add_le_add_right hturn _))⟩
    split
    · next hlate =>
      rintro hmem
      obtain rfl := List.mem_singleton.mp hmem
      exact Nat.lt_asymm h (isLate_eq_true_iff.mp hlate r hready)
    · exact List.not_mem_nil

/-- If no feed is late, the last has passed when all have been ready. -/
theorem passedAt_of_lateFeeds_eq_nil (h : lateFeeds timeout readyAt now ids = []) :
    passedAt timeout readyAt now ids = (ids.filterMap readyAt).foldl max now := by
  induction ids generalizing now with
  | nil => rfl
  | cons id rest ih =>
    obtain ⟨hfirst, hrest⟩ := List.append_eq_nil_iff.mp h
    cases hready : readyAt id with
    | none => simp [hready, isLate] at hfirst
    | some r =>
      have hr : r ≤ now + timeout.nanos := by simpa [hready, isLate] using hfirst
      have hturn : turnEnd now (now + timeout.nanos) (readyAt id) = max now r := by
        rw [hready, turnEnd_some (Nat.le_add_right ..)]
        exact min_eq_left (max_le (Nat.le_add_right ..) hr)
      rw [hturn] at hrest
      rw [List.filterMap_cons_some hready, List.foldl_cons, ← ih hrest, passedAt, List.foldl_cons,
        hturn, passedAt]

end

section

variable {φ : Type} [PriceFeed φ]

/-- The report of the first late feed, unless the latch has let one through before. -/
def lateReport (timeout : Duration) (feeds : List φ) (latch : Latch) (late : List FeedId) :
    List LogEvent :=
  if latch.armed then
    (late.head?.bind fun id => (feedNames feeds)[id]?).toList.map (.feedNotReady · timeout)
  else []

/-- How a wait for some feeds ends, by when each of them becomes ready. -/
structure EndsWait (timeout : Duration) (now : Instant) (feeds : List φ) (ids : List FeedId)
    (latch : Latch) (readyAt : FeedId → Option Instant) (p : Passage φ) : Prop where
  ends : p.now = passedAt timeout readyAt now ids
  counts : p.timedOut = (lateFeeds timeout readyAt now ids).length
  trips : p.latch = if lateFeeds timeout readyAt now ids = [] then latch else ⟨false⟩
  reports : notReady p.events =
    lateReport timeout feeds latch (lateFeeds timeout readyAt now ids)
  onward : Onward now feeds p.now p.feeds

/-- The timeline of a wait. Each feed gets its turn when the one before has passed. -/
structure Timeline (timeout : Duration) (now : Instant) (feeds : List φ) (ids : List FeedId)
    (latch : Latch) (readyAt : FeedId → Option Instant) (p : Passage φ) : Prop where
  /-- A turn ends when its feed is ready, or else with the feed counted at the end of its time. -/
  turn (before : List FeedId) (id : FeedId) (after : List FeedId) : ids = before ++ id :: after →
    let start := waitForFeeds timeout now feeds before latch
    let stop := waitForFeeds timeout now feeds (before ++ [id]) latch
    let deadline := start.now + timeout.nanos
    stop.now = turnEnd start.now deadline (readyAt id) ∧
    stop.timedOut = start.timedOut + (if isLate deadline (readyAt id) then 1 else 0) ∧
    p = stop.goOn timeout after
  counted : p.timedOut = (lateFeeds timeout readyAt now ids).length
  bounds : now ≤ p.now ∧ p.now ≤ now + ids.length * timeout.nanos
  reported (id : FeedId) (others : List FeedId) :
    lateFeeds timeout readyAt now ids = id :: others → latch.armed = true →
    ∃ feed, feeds[id]? = some feed ∧
      notReady p.events = [.feedNotReady (PriceFeed.name feed) timeout]
  silent : p.timedOut = 0 ∨ latch.armed = false → notReady p.events = []
  latched : p.latch = if p.timedOut = 0 then latch else ⟨false⟩
  inTime (id : FeedId) (r : Instant) : readyAt id = some r → r < now + timeout.nanos →
    id ∉ lateFeeds timeout readyAt now ids
  latest : p.timedOut = 0 → p.now = (ids.filterMap readyAt).foldl max now

variable {timeout : Duration} {now : Instant} {feeds : List φ} {ids : List FeedId}
  {latch : Latch} {readyAt : FeedId → Option Instant}

variable [PacedFeed φ] [NamedFeed φ] [QuietFeed φ]

theorem exists_endsTurn {id : FeedId} (latch : Latch)
    (h : BecomesReadyAt now feeds id (readyAt id))
    (htie : readyAt id ≠ some (now + timeout.nanos)) :
    ∃ name, (feedNames feeds)[id]? = some name ∧
      EndsTurn timeout now (now + timeout.nanos) feeds latch [] name (readyAt id)
        (waitForFeeds timeout now feeds [id] latch) := by
  have hname : (feedNames feeds)[id]?.isSome = true := by
    obtain ⟨feed, hfeed, -⟩ := h
    simp [feedNames, hfeed]
  obtain ⟨name, hname⟩ := Option.isSome_iff_exists.mp hname
  exact ⟨name, hname, endsTurn_await hname h (Nat.le_add_right ..) htie⟩

omit [PacedFeed φ] [NamedFeed φ] [QuietFeed φ] in
theorem lateReport_cons {id : FeedId} {name : String} (hname : (feedNames feeds)[id]? = some name)
    (late : List FeedId) :
    lateReport timeout feeds latch (id :: late) =
      if latch.armed then [.feedNotReady name timeout] else [] := by
  simp [lateReport, hname]

theorem endsWait_waitForFeeds (latch : Latch)
    (hready : ∀ id ∈ ids, BecomesReadyAt now feeds id (readyAt id))
    (hties : NoTie timeout readyAt now ids) :
    EndsWait timeout now feeds ids latch readyAt (waitForFeeds timeout now feeds ids latch) := by
  induction ids generalizing now feeds latch with
  | nil =>
    rw [waitForFeeds_nil]
    exact ⟨rfl, rfl, rfl, by simp [lateReport, lateFeeds, notReady], .refl now feeds⟩
  | cons id rest ih =>
    obtain ⟨hfirst, hothers⟩ := List.forall_mem_cons.mp hready
    obtain ⟨htie, hties⟩ := hties
    obtain ⟨name, hname, hturn⟩ := exists_endsTurn latch hfirst htie
    rw [waitForFeeds_cons]
    generalize waitForFeeds timeout now feeds [id] latch = turn at hturn
    have hrest : EndsWait timeout turn.now turn.feeds rest turn.latch readyAt
        (waitForFeeds timeout turn.now turn.feeds rest turn.latch) :=
      ih turn.latch (fun other hother => hturn.onward.readyAt (hothers other hother))
        (hturn.ends ▸ hties)
    have hends : (turn.goOn timeout rest).now = passedAt timeout readyAt now (id :: rest) := by
      rw [Passage.goOn, hrest.ends, hturn.ends, passedAt, passedAt, List.foldl_cons]
    have honward := hturn.onward.trans hrest.onward
    cases hlate : isLate (now + timeout.nanos) (readyAt id) with
    | true =>
      have hall : lateFeeds timeout readyAt now (id :: rest) =
          id :: lateFeeds timeout readyAt turn.now rest := by
        simp [lateFeeds, hlate, hturn.ends]
      refine ⟨hends, ?_, ?_, ?_, honward⟩
      · simp [Passage.goOn, hrest.counts, hturn.counts, hlate, hall, Nat.add_comm]
      · rw [Passage.goOn, hrest.trips, hturn.trips, hall]
        simp [hlate]
      · rw [hall, lateReport_cons hname, Passage.goOn, notReady_append, hrest.reports,
          hturn.reports]
        simp [hturn.trips, hlate, lateReport, notReady]
    | false =>
      have hall : lateFeeds timeout readyAt now (id :: rest) =
          lateFeeds timeout readyAt turn.now rest := by
        simp [lateFeeds, hlate, hturn.ends]
      refine ⟨hends, ?_, ?_, ?_, honward⟩
      · simp [Passage.goOn, hrest.counts, hturn.counts, hlate, hall]
      · rw [Passage.goOn, hrest.trips, hturn.trips, hall]
        simp [hlate]
      · rw [hall, Passage.goOn, notReady_append, hrest.reports, hturn.reports]
        simp [hturn.trips, hlate, lateReport, notReady, hturn.onward.names]

/-- The turn of each feed begins when those before it have passed. -/
theorem endsTurn_of_append {before : List FeedId} {id : FeedId} {after : List FeedId}
    (hready : ∀ other ∈ before ++ id :: after, BecomesReadyAt now feeds other (readyAt other))
    (hties : NoTie timeout readyAt now (before ++ id :: after)) :
    let start := waitForFeeds timeout now feeds before latch
    ∃ name, EndsTurn timeout start.now (start.now + timeout.nanos) start.feeds start.latch [] name
      (readyAt id) (waitForFeeds timeout start.now start.feeds [id] start.latch) := by
  obtain ⟨hbefore, hafter⟩ := List.forall_mem_append.mp hready
  obtain ⟨htiesBefore, htie, -⟩ := noTie_append.mp hties
  have hwait := endsWait_waitForFeeds latch hbefore htiesBefore
  rw [← hwait.ends] at htie
  obtain ⟨name, -, hturn⟩ :=
    exists_endsTurn _ (hwait.onward.readyAt (hafter id List.mem_cons_self)) htie
  exact ⟨name, hturn⟩

/-- Each feed passes the gate when it is ready or has had its time, counted from when the one before
it has passed. The wait counts the late feeds, and reports the first if the latch is armed. -/
theorem waitForFeeds_timeline (latch : Latch)
    (hready : ∀ id ∈ ids, BecomesReadyAt now feeds id (readyAt id))
    (hties : NoTie timeout readyAt now ids) :
    Timeline timeout now feeds ids latch readyAt
      (waitForFeeds timeout now feeds ids latch) := by
  have h := endsWait_waitForFeeds latch hready hties
  have hnone : (waitForFeeds timeout now feeds ids latch).timedOut = 0 ↔
      lateFeeds timeout readyAt now ids = [] := by
    rw [h.counts, List.length_eq_zero_iff]
  refine ⟨?turn, h.counts, h.ends ▸ passedAt_bounds, ?reported, ?silent, ?latched,
    fun id r => not_mem_lateFeeds, ?latest⟩
  case turn =>
    rintro before id after rfl
    obtain ⟨name, hturn⟩ := endsTurn_of_append hready hties
    refine ⟨?_, ?_, ?_⟩
    · rw [waitForFeeds_append, ← hturn.ends]; rfl
    · rw [waitForFeeds_append, ← hturn.counts]; rfl
    · rw [← waitForFeeds_append, List.append_assoc, List.singleton_append]
  case reported =>
    intro id others hlate harmed
    obtain ⟨feed, hfeed, -⟩ := hready id (mem_of_mem_lateFeeds (hlate ▸ List.mem_cons_self))
    have hname : (feedNames feeds)[id]? = some (PriceFeed.name feed) := by simp [feedNames, hfeed]
    exact ⟨feed, hfeed, by rw [h.reports, hlate, lateReport_cons hname, if_pos harmed]⟩
  case silent =>
    rw [hnone, h.reports]
    rintro (hlate | hlatch)
    · simp [lateReport, hlate]
    · simp [lateReport, hlatch]
  case latched => simp only [h.trips, hnone]
  case latest => exact fun hzero => h.ends.trans (passedAt_of_lateFeeds_eq_nil (hnone.mp hzero))

/-- Four feeds: one is never ready, one is from the start, and two become ready after some time. -/
def mixedFeeds : List ScriptedFeed :=
  [{ ScriptedFeed.new "stuck" with ready := false },
    .new "ready",
    { ScriptedFeed.new "slow" with ready := false, readyAt := some 40000000000 },
    { ScriptedFeed.new "late" with ready := false, readyAt := some 90000000000 }]

/-- When each of the four becomes ready. -/
def mixedTimes : FeedId → Option Instant
  | 0 => none
  | 1 => some 0
  | 2 => some 40000000000
  | _ => some 90000000000

/-- The slow feed is ready before the end of its turn, only because that begins late. -/
theorem timeline_of_mixedFeeds :
    let p := waitForFeeds (.ofSeconds 30) 0 mixedFeeds [0, 1, 2, 3] .new
    (∀ id ∈ [0, 1, 2, 3], BecomesReadyAt 0 mixedFeeds id (mixedTimes id)) ∧
    NoTie (.ofSeconds 30) mixedTimes 0 [0, 1, 2, 3] ∧
    Timeline (.ofSeconds 30) 0 mixedFeeds [0, 1, 2, 3] .new mixedTimes p ∧
    lateFeeds (.ofSeconds 30) mixedTimes 0 [0, 1, 2, 3] = [0, 3] ∧
    p.timedOut = 2 ∧ notReady p.events = [.feedNotReady "stuck" (.ofSeconds 30)] := by
  have hready : ∀ id ∈ [0, 1, 2, 3], BecomesReadyAt 0 mixedFeeds id (mixedTimes id) := by
    simp only [List.forall_mem_cons]
    refine ⟨⟨_, rfl, ?_⟩, ⟨_, rfl, ?_⟩, ⟨_, rfl, ?_⟩, ⟨_, rfl, ?_⟩, List.forall_mem_nil _⟩
    · exact ScriptedFeed.becomesReady_readyAt rfl fun _ _ => Nat.zero_le _
    · exact ScriptedFeed.becomesReady_of_ready rfl le_rfl
    · exact ScriptedFeed.becomesReady_readyAt rfl fun _ _ => Nat.zero_le _
    · exact ScriptedFeed.becomesReady_readyAt rfl fun _ _ => Nat.zero_le _
  have hties : NoTie (.ofSeconds 30) mixedTimes 0 [0, 1, 2, 3] :=
    ⟨by decide, by decide, by decide, by decide, trivial⟩
  have h := waitForFeeds_timeline .new hready hties
  refine ⟨hready, hties, h, by decide, h.counted, ?_⟩
  obtain ⟨feed, hfeed, hreported⟩ := h.reported 0 [3] (by decide) rfl
  obtain rfl := Option.some.inj hfeed
  exact hreported

end

end ExchangeRates

import ExchangeRates.Proofs.Gate

namespace ExchangeRates

namespace Gate

variable {φ : Type} [PriceFeed φ] {timeout : Duration} {now deadline : Instant} {feeds : List φ}
  {latch later : Latch} {gate next : Gate} {id : FeedId} {rest : List FeedId} {timedOut : Nat}
  {events reported : List LogEvent}

theorem await_of_waiting_eq_nil (h : gate.waiting = []) :
    gate.await timeout now feeds latch events = ⟨now, feeds, latch, gate.timedOut, events⟩ := by
  have hstep : gate.step feeds now timeout latch = none :=
    step_eq_none_iff.mpr (by simp [h])
  rw [await]
  split
  · next hsome => cases hstep.symm.trans hsome
  · rw [if_pos h]

theorem await_of_step (h : gate.step feeds now timeout latch = some (next, later, reported)) :
    gate.await timeout now feeds latch events =
      next.await timeout now feeds later (events ++ reported) := by
  rw [await]
  split
  · next hsome =>
    obtain ⟨rfl, rfl, rfl⟩ := by simpa using hsome.symm.trans h
    rfl
  · next hnone => cases hnone.symm.trans h

/-- Feeds whose gate waits are woken. -/
theorem await_of_wake (hwaiting : gate.waiting ≠ [])
    (h : gate.step feeds now timeout latch = none)
    (hwoken : gate.step (wakeFeeds now feeds).1 now timeout latch = some (next, later, reported)) :
    gate.await timeout now feeds latch events =
      next.await timeout now (wakeFeeds now feeds).1 later
        (events ++ (wakeFeeds now feeds).2 ++ reported) := by
  rw [await]
  split
  · next hsome => cases h.symm.trans hsome
  rw [if_neg hwaiting]
  dsimp only
  split
  · next hsome =>
    obtain ⟨rfl, rfl, rfl⟩ := by simpa using hsome.symm.trans hwoken
    rfl
  · next hnone => cases hnone.symm.trans hwoken

theorem await_of_wait (hwaiting : gate.waiting ≠ [])
    (h : gate.step feeds now timeout latch = none)
    (hwoken : gate.step (wakeFeeds now feeds).1 now timeout latch = none) :
    now < gate.deadline ∧ ∀ events, gate.await timeout now feeds latch events =
      gate.await timeout (nextMoment now gate.deadline (wakeFeeds now feeds).1)
        (wakeFeeds now feeds).1 latch (events ++ (wakeFeeds now feeds).2) := by
  have hturn : now < gate.deadline :=
    Nat.lt_of_not_le fun hle => hwaiting (waiting_eq_nil_of_step hle h)
  refine ⟨hturn, fun events => ?_⟩
  rw [await]
  split
  · next hsome => cases h.symm.trans hsome
  rw [if_neg hwaiting]
  dsimp only
  split
  · next hsome => cases hwoken.symm.trans hsome
  · rw [if_pos hturn]

/-- What a gate does with the feed that has its turn does not depend on the others. -/
theorem step_cons (feeds : List φ) (now : Instant) (timeout : Duration) (latch : Latch)
    (id : FeedId) (rest : List FeedId) (deadline : Instant) (timedOut : Nat) :
    (⟨id :: rest, deadline, timedOut⟩ : Gate).step feeds now timeout latch =
      ((⟨[id], deadline, 0⟩ : Gate).step feeds now timeout latch).map
        fun (next, later, reported) =>
          (pass now timeout rest (timedOut + next.timedOut), later, reported) := by
  unfold step
  dsimp only
  split
  · rfl
  · split
    · rfl
    · split <;> rfl

theorem waiting_eq_nil_of_step_singleton
    (h : (⟨[id], deadline, 0⟩ : Gate).step feeds now timeout latch = some (next, later, reported)) :
    next.waiting = [] := by
  obtain ⟨_, hwaiting⟩ := exists_waiting_eq_cons_of_step h
  exact (List.cons.inj hwaiting).2.symm

/-- A wait for some feeds is a wait for the first of them, and then one for the others. -/
theorem await_cons (timeout : Duration) (now : Instant) (feeds : List φ) (latch : Latch)
    (id : FeedId) (rest : List FeedId) (deadline : Instant) (timedOut : Nat)
    (before events : List LogEvent) :
    let turn := (⟨[id], deadline, 0⟩ : Gate).await timeout now feeds latch events
    (⟨id :: rest, deadline, timedOut⟩ : Gate).await timeout now feeds latch (before ++ events) =
      (pass turn.now timeout rest (timedOut + turn.timedOut)).await timeout turn.now turn.feeds
        turn.latch (before ++ turn.events) := by
  induction hleft : deadline - now using Nat.strongRecOn generalizing now feeds events with
  | ind left ih =>
  have hwaiting : (⟨id :: rest, deadline, timedOut⟩ : Gate).waiting ≠ [] := List.cons_ne_nil _ _
  have hfirst : (⟨[id], deadline, 0⟩ : Gate).waiting ≠ [] := List.cons_ne_nil _ _
  have hall := step_cons feeds now timeout latch id rest deadline timedOut
  have hwake := step_cons (wakeFeeds now feeds).1 now timeout latch id rest deadline timedOut
  cases hstep : (⟨[id], deadline, 0⟩ : Gate).step feeds now timeout latch with
  | some outcome =>
    obtain ⟨next, later, reported⟩ := outcome
    rw [hstep] at hall
    rw [await_of_step hall, await_of_step hstep,
      await_of_waiting_eq_nil (waiting_eq_nil_of_step_singleton hstep), List.append_assoc]
  | none =>
    rw [hstep] at hall
    cases hwoken : (⟨[id], deadline, 0⟩ : Gate).step (wakeFeeds now feeds).1 now timeout latch with
    | some outcome =>
      obtain ⟨next, later, reported⟩ := outcome
      rw [hwoken] at hwake
      rw [await_of_wake hwaiting hall hwake, await_of_wake hfirst hstep hwoken,
        await_of_waiting_eq_nil (waiting_eq_nil_of_step_singleton hwoken)]
      simp only [List.append_assoc]
    | none =>
      rw [hwoken] at hwake
      obtain ⟨hturn, hwait⟩ := await_of_wait hfirst hstep hwoken
      rw [hwait, (await_of_wait hwaiting hall hwake).2, List.append_assoc]
      refine ih _ ?_ _ _ _ rfl
      rw [← hleft]
      exact Nat.sub_lt_sub_left hturn (lt_nextMoment hturn)

end Gate

section

variable {φ : Type} [PriceFeed φ] {timeout : Duration} {now : Instant} {feeds : List φ}
  {latch : Latch}

/-- Goes on waiting, for more feeds, where a wait has ended. -/
def Passage.goOn (p : Passage φ) (timeout : Duration) (ids : List FeedId) : Passage φ :=
  let q := waitForFeeds timeout p.now p.feeds ids p.latch
  { q with timedOut := p.timedOut + q.timedOut, events := p.events ++ q.events }

theorem waitForFeeds_nil : waitForFeeds timeout now feeds [] latch = ⟨now, feeds, latch, 0, []⟩ :=
  Gate.await_of_waiting_eq_nil rfl

theorem waitForFeeds_eq (ids : List FeedId) :
    waitForFeeds timeout now feeds ids latch =
      (⟨now, feeds, latch, 0, []⟩ : Passage φ).goOn timeout ids := by
  simp [Passage.goOn]

namespace Passage

theorem goOn_nil (p : Passage φ) : p.goOn timeout [] = p := by
  simp [goOn, waitForFeeds_nil]

theorem await_cons (p : Passage φ) (id : FeedId) (rest : List FeedId) :
    (Gate.pass p.now timeout (id :: rest) p.timedOut).await timeout p.now p.feeds p.latch p.events =
      (Gate.pass (p.goOn timeout [id]).now timeout rest (p.goOn timeout [id]).timedOut).await
        timeout (p.goOn timeout [id]).now (p.goOn timeout [id]).feeds (p.goOn timeout [id]).latch
        (p.goOn timeout [id]).events := by
  have h := Gate.await_cons timeout p.now p.feeds p.latch id rest (p.now + timeout.nanos)
    p.timedOut p.events []
  rwa [List.append_nil] at h

/-- A gate whose next feed has its turn goes on where the wait for those before has ended. -/
theorem await_eq (p : Passage φ) (ids : List FeedId) :
    (Gate.pass p.now timeout ids p.timedOut).await timeout p.now p.feeds p.latch p.events =
      p.goOn timeout ids := by
  induction ids generalizing p with
  | nil => rw [goOn_nil, Gate.await_of_waiting_eq_nil rfl]; rfl
  | cons id rest ih =>
    let fresh : Passage φ := ⟨p.now, p.feeds, p.latch, 0, []⟩
    have hfresh : waitForFeeds timeout p.now p.feeds (id :: rest) p.latch =
        (fresh.goOn timeout [id]).goOn timeout rest := (await_cons fresh id rest).trans (ih _)
    rw [await_cons, ih]
    conv =>
      rhs
      rw [goOn, hfresh]
    simp only [fresh, goOn, Nat.zero_add, List.nil_append, Nat.add_assoc, List.append_assoc]

theorem goOn_cons (p : Passage φ) (id : FeedId) (rest : List FeedId) :
    p.goOn timeout (id :: rest) = (p.goOn timeout [id]).goOn timeout rest := by
  rw [← await_eq, await_cons, await_eq]

theorem goOn_goOn (p : Passage φ) (first rest : List FeedId) :
    (p.goOn timeout first).goOn timeout rest = p.goOn timeout (first ++ rest) := by
  induction first generalizing p with
  | nil => rw [goOn_nil, List.nil_append]
  | cons id first ih => rw [goOn_cons, ih, ← goOn_cons, List.cons_append]

end Passage

/-- A wait for some feeds and then for others is a wait for all of them. -/
theorem waitForFeeds_append (first rest : List FeedId) :
    waitForFeeds timeout now feeds (first ++ rest) latch =
      (waitForFeeds timeout now feeds first latch).goOn timeout rest := by
  rw [waitForFeeds_eq, waitForFeeds_eq first, Passage.goOn_goOn]

theorem waitForFeeds_cons (id : FeedId) (rest : List FeedId) :
    waitForFeeds timeout now feeds (id :: rest) latch =
      (waitForFeeds timeout now feeds [id] latch).goOn timeout rest :=
  waitForFeeds_append [id] rest

end

end ExchangeRates

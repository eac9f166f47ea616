import ExchangeRates.Proofs.Engine.Readiness
import ExchangeRates.Proofs.Engine.Settling

namespace ExchangeRates.Engine

variable {φ : Type}

/-- A wait for the notifier `n` may end. -/
def Released (e : Engine φ) (n : Nat) : Prop :=
  e.notifiers[n]? = some true ∨ n ≠ e.notifier

/-- A run whose notifier is `n` has been replaced. -/
def Trace.Replaces (n : Nat) (trace : Trace φ) : Prop :=
  ∃ m ∈ trace, m.startsRun = true ∧ m.engine.notifier = n

/-- A run has refreshed the book, and has told its notifier, which is `n`. -/
def Trace.Tells (n : Nat) (trace : Trace φ) : Prop :=
  ∃ m ∈ trace, m.engine.notifier = n ∧ ∃ i, m.engine.task = some i ∧ m.engine.Refreshes i m.action

/-- Somebody has begun to wait at a moment, for the notifier `n`, and has not gone on since. -/
structure Captures (j n : Nat) (capture : Moment φ) (since : Trace φ) : Prop where
  action : capture.action = .stepWaiter j
  called : capture.engine.waiters[j]? = some .called
  current : capture.engine.notifier = n
  still : ∀ m ∈ since, m.action ≠ .stepWaiter j

/-- A wait whose notifier has told of a success remains so until its step has ended it. -/
structure Ending (e : Engine φ) (j n : Nat) : Prop where
  told : e.notifiers[n]? = some true
  waiter : e.waiters[j]? = some (.waiting n) ∨ e.waiters[j]? = some .ended

/-- An execution without an end goes on from an engine. -/
def Endless [PriceFeed φ] (e : Engine φ) (run : Nat → Moment φ) : Prop :=
  (run 0).engine = e ∧ ∀ k, (run k).engine.act (run k).action = some (run (k + 1)).engine

/-- If a step of somebody who waits stays possible, it is taken at some time. -/
def FairTo [PriceFeed φ] (j : Nat) (run : Nat → Moment φ) : Prop :=
  ∀ k, (∀ l, k ≤ l → ((run l).engine.stepWaiter j).isSome = true) →
    ∃ l, k ≤ l ∧ (run l).action = .stepWaiter j

section

variable {e later : Engine φ} {j n : Nat}

theorem getD_eq_true_iff : e.notifiers.getD n false = true ↔ e.notifiers[n]? = some true := by
  rw [List.getD_eq_getElem?_getD]
  cases e.notifiers[n]? <;> simp

theorem stepWaiter_of_called (h : e.waiters[j]? = some .called) :
    e.stepWaiter j = some { e with waiters := e.waiters.set j (.waiting e.notifier) } := by
  simp only [stepWaiter, h]

theorem stepWaiter_of_released (h : e.waiters[j]? = some (.waiting n)) (hreleased : e.Released n) :
    e.stepWaiter j = some { e with waiters := e.waiters.set j .ended } := by
  have hfree : (e.notifiers.getD n false || n != e.notifier) = true := by
    rw [Bool.or_eq_true, getD_eq_true_iff, bne_iff_ne]
    exact hreleased
  simp only [stepWaiter, h, hfree, if_true]

theorem getElem?_set_waiters {waiter next : Waiter} (h : e.waiters[j]? = some waiter) :
    (e.waiters.set j next)[j]? = some next :=
  List.getElem?_set_self (List.getElem?_eq_some_iff.mp h).1

theorem Ending.ended (h : e.Ending j n) (hnone : e.stepWaiter j = none) :
    e.waitHasEnded j = true := by
  obtain hwaiting | hended := h.waiter
  · cases hnone.symm.trans (stepWaiter_of_released hwaiting (.inl h.told))
  · simp [waitHasEnded, hended]

end

theorem waiters_new {settings : Settings} {origin : ConfigOrigin} {feeds : List φ}
    {registered : List FeedId} {environment : Environment} {runtime : Bool} :
    (new settings origin feeds registered environment runtime).waiters = [] ∧
      (new settings origin feeds registered environment runtime).notifiers = [false] := by
  unfold new reconfigure
  split <;> exact ⟨rfl, rfl⟩

variable [PriceFeed φ] {first e later : Engine φ} {trace : Trace φ} {a : Action φ} {j n : Nat}

/-- Only a step of its own moves somebody who waits. -/
theorem waiter_act (hact : e.act a = some later) (ha : a ≠ .stepWaiter j) :
    later.waiters[j]? = e.waiters[j]? ∨
      (e.waiters[j]? = none ∧ later.waiters[j]? = some .called) := by
  obtain ⟨i, rfl⟩ | hwaiters := (now_waiters_act hact).2
  · have hi : i ≠ j := fun heq => ha (by rw [heq])
    obtain ⟨-, rfl⟩ | ⟨_, -, -, rfl⟩ := stepWaiter_cases hact
    · exact .inl (List.getElem?_set_ne hi)
    · exact .inl (List.getElem?_set_ne hi)
  · rw [hwaiters]
    by_cases hj : j < e.waiters.length
    · exact .inl (List.getElem?_append_left hj)
    · rw [List.getElem?_append_right (Nat.le_of_not_lt hj),
        List.getElem?_eq_none (Nat.le_of_not_lt hj)]
      generalize j - e.waiters.length = k
      cases a with
      | spawnWait =>
        cases k with
        | zero => exact .inr ⟨rfl, rfl⟩
        | succ k => exact .inl rfl
      | _ => exact .inl rfl

theorem notifier_act (hown : e.OwnNotifiers) (hrun : e.OneRun) (hact : e.act a = some later) :
    later.notifier = e.notifier + if e.startsRun a then 1 else 0 := by
  obtain ⟨hstarts, hnotifier, -⟩ | ⟨hstarts, hnotifier, -⟩ | ⟨hstarts, hnotifier, -⟩ :=
    hown.act_cases hrun hact
  · rw [hnotifier, hstarts, hown.length, hown.current]
    rfl
  · rw [hnotifier, hstarts]
    rfl
  · rw [hnotifier, hstarts]
    rfl

theorem told_act (hown : e.OwnNotifiers) (hrun : e.OneRun) (hact : e.act a = some later) :
    later.notifiers[n]? = some true ↔
      (e.notifier = n ∧ ∃ i, e.task = some i ∧ e.Refreshes i a) ∨ e.notifiers[n]? = some true := by
  obtain ⟨hstarts, -, hnotifiers⟩ | ⟨-, -, i, hcurrent, hrefreshes, hset⟩ | ⟨-, -, hnot, hsame⟩ :=
    hown.act_cases hrun hact
  · have hnone : ¬ (e.notifier = n ∧ ∃ i, e.task = some i ∧ e.Refreshes i a) := by
      rintro ⟨-, i, -, hrefreshes⟩
      exact not_refreshes (resolves?_of_startsRun hstarts).2 hrefreshes
    rw [or_iff_right hnone, hnotifiers]
    by_cases hn : n < e.notifiers.length
    · rw [List.getElem?_append_left hn]
    · rw [List.getElem?_append_right (Nat.le_of_not_lt hn),
        List.getElem?_eq_none (Nat.le_of_not_lt hn), List.getElem?_singleton]
      split <;> simp
  · rw [hset]
    by_cases hn : e.notifier = n
    · subst hn
      refine iff_of_true (List.getElem?_set_self ?_) (.inl ⟨rfl, i, hcurrent, hrefreshes⟩)
      rw [hown.length, hown.current]
      exact Nat.lt_succ_self _
    · rw [List.getElem?_set_ne hn, or_iff_right fun h => hn h.1]
  · rw [hsame, or_iff_right]
    rintro ⟨-, i, -, hrefreshes⟩
    exact hnot i hrefreshes

/-- A wait is released by a refresh of the run whose notifier it waits for, and by the start of
another run, and by no other action. -/
theorem released_act (hown : e.OwnNotifiers) (hrun : e.OneRun) (hact : e.act a = some later)
    (hn : n ≤ e.notifier) : later.Released n ↔ e.Released n ∨ e.notifier = n ∧
      (e.startsRun a = true ∨ ∃ i, e.task = some i ∧ e.Refreshes i a) := by
  have hreplaced : n ≠ later.notifier ↔ n ≠ e.notifier ∨ e.startsRun a = true := by
    rw [notifier_act hown hrun hact]
    cases e.startsRun a with
    | false => simp
    | true =>
      simp only [if_true, or_true, iff_true]
      omega
  rw [Released, told_act hown hrun hact, hreplaced, Released]
  by_cases hcurrent : e.notifier = n
  · subst hcurrent
    simp [or_assoc, or_comm]
  · simp [hcurrent, Ne.symm hcurrent]

theorem OwnNotifiers.of_execution (hown : first.OwnNotifiers) (hrun : first.OneRun)
    (h : Execution first trace e) : e.OwnNotifiers := by
  induction h with
  | nil => exact hown
  | act hbefore hact ih => exact ih.act (oneRun_of_execution hrun hbefore) hact

/-- A notifier is not the current one any more exactly if its run has been replaced. -/
theorem lt_notifier_iff (hown : first.OwnNotifiers) (hrun : first.OneRun)
    (h : Execution first trace e) (hn : first.notifier ≤ n) :
    (n < e.notifier ↔ trace.Replaces n) ∧ first.notifier ≤ e.notifier := by
  induction h with
  | nil => exact ⟨iff_of_false (Nat.not_lt_of_le hn) (by simp [Trace.Replaces]), Nat.le_refl _⟩
  | @act trace e later a hbefore hact ih =>
    obtain ⟨hreplaces, hle⟩ := ih
    have hnotifier := notifier_act (hown.of_execution hrun hbefore)
      (oneRun_of_execution hrun hbefore) hact
    have hcons : Trace.Replaces n (⟨e, a⟩ :: trace) ↔
        (e.startsRun a = true ∧ e.notifier = n) ∨ trace.Replaces n := by
      simp [Trace.Replaces, Moment.startsRun]
    rw [hcons, ← hreplaces, hnotifier]
    cases hstarts : e.startsRun a with
    | false => simpa using hle
    | true =>
      simp only [if_true, true_and]
      omega

/-- Who waits for a notifier has begun to wait when it was the current one. -/
theorem exists_captures (hfirst : first.waiters = []) (h : Execution first trace e)
    (hwaiting : e.waiters[j]? = some (.waiting n)) :
    ∃ since capture before, trace = since ++ capture :: before ∧ Captures j n capture since := by
  induction h with
  | nil => simp [hfirst] at hwaiting
  | @act trace e later a hbefore hact ih =>
    by_cases ha : a = .stepWaiter j
    · subst ha
      obtain ⟨hcalled, rfl⟩ | ⟨_, hold, -, rfl⟩ := stepWaiter_cases hact
      · rw [getElem?_set_waiters hcalled, Option.some.injEq] at hwaiting
        exact ⟨[], _, trace, rfl, rfl, hcalled, Waiter.waiting.inj hwaiting, by simp⟩
      · rw [getElem?_set_waiters hold] at hwaiting
        cases hwaiting
    · obtain hsame | ⟨-, hcalled⟩ := waiter_act hact ha
      · obtain ⟨since, capture, before, rfl, hcapture⟩ := ih (hsame.symm.trans hwaiting)
        exact ⟨⟨e, a⟩ :: since, capture, before, rfl, hcapture.action, hcapture.called,
          hcapture.current, List.forall_mem_cons.mpr ⟨ha, hcapture.still⟩⟩
      · cases hcalled.symm.trans hwaiting

theorem exists_last_of_ended (hfirst : first.waiters = []) (h : Execution first trace e)
    (hended : e.waiters[j]? = some .ended) :
    ∃ n after last earlier, trace = after ++ last :: earlier ∧ last.action = .stepWaiter j ∧
      last.engine.waiters[j]? = some (.waiting n) ∧ last.engine.Released n := by
  induction h with
  | nil => simp [hfirst] at hended
  | @act trace e later a hbefore hact ih =>
    by_cases ha : a = .stepWaiter j
    · subst ha
      obtain ⟨hcalled, rfl⟩ | ⟨n, hwaiting, hfree, rfl⟩ := stepWaiter_cases hact
      · rw [getElem?_set_waiters hcalled] at hended
        cases hended
      · exact ⟨n, [], _, trace, rfl, rfl, hwaiting, hfree.imp_left getD_eq_true_iff.mp⟩
    · obtain hsame | ⟨-, hcalled⟩ := waiter_act hact ha
      · obtain ⟨n, after, last, earlier, rfl, hlast⟩ := ih (hsame.symm.trans hended)
        exact ⟨n, ⟨e, a⟩ :: after, last, earlier, rfl, hlast⟩
      · cases hcalled.symm.trans hended

theorem Ending.act (hown : e.OwnNotifiers) (hrun : e.OneRun) (h : e.Ending j n)
    (hact : e.act a = some later) :
    later.Ending j n ∧ (a = .stepWaiter j → later.waiters[j]? = some .ended) := by
  have htold := (hown.tellsOwn hrun hact).kept n h.told
  by_cases ha : a = .stepWaiter j
  · have hended : later.waiters[j]? = some .ended := by
      subst ha
      obtain ⟨hcalled, rfl⟩ | ⟨_, hwaiting, -, rfl⟩ := stepWaiter_cases hact
      · obtain hwaiting | hended := h.waiter
        · cases hcalled.symm.trans hwaiting
        · cases hcalled.symm.trans hended
      · exact getElem?_set_waiters hwaiting
    exact ⟨⟨htold, .inr hended⟩, fun _ => hended⟩
  · refine ⟨⟨htold, ?_⟩, fun haction => absurd haction ha⟩
    obtain hsame | ⟨hnone, -⟩ := waiter_act hact ha
    · rw [hsame]
      exact h.waiter
    · obtain hwaiting | hended := h.waiter
      · cases hnone.symm.trans hwaiting
      · cases hnone.symm.trans hended

theorem Ending.of_execution (hown : first.OwnNotifiers) (hrun : first.OneRun)
    (hending : first.Ending j n) (h : Execution first trace e) : e.Ending j n := by
  induction h with
  | nil => exact hending
  | act hbefore hact ih =>
    exact (ih.act (hown.of_execution hrun hbefore) (oneRun_of_execution hrun hbefore) hact).1

theorem Endless.execution {run : Nat → Moment φ} (h : e.Endless run) (k : Nat) :
    ∃ trace, Execution e trace (run k).engine := by
  induction k with
  | zero => exact ⟨[], h.1 ▸ .nil⟩
  | succ k ih =>
    obtain ⟨trace, hbefore⟩ := ih
    exact ⟨_, hbefore.act (h.2 k)⟩

/-- Such a wait comes to its end in every execution without an end that is fair to it. -/
theorem Ending.eventually (hown : e.OwnNotifiers) (hrun : e.OneRun) (hending : e.Ending j n)
    {run : Nat → Moment φ} (hendless : e.Endless run) (hfair : FairTo j run) :
    ∃ k, (run k).engine.waitHasEnded j = true := by
  by_contra hnever
  simp only [not_exists] at hnever
  have hkept (k : Nat) : (run k).engine.OwnNotifiers ∧ (run k).engine.OneRun ∧
      (run k).engine.Ending j n := by
    obtain ⟨trace, hbefore⟩ := hendless.execution k
    exact ⟨hown.of_execution hrun hbefore, oneRun_of_execution hrun hbefore,
      hending.of_execution hown hrun hbefore⟩
  have hpossible (k : Nat) : ((run k).engine.stepWaiter j).isSome = true := by
    rw [Option.isSome_iff_ne_none]
    exact fun hnone => hnever k ((hkept k).2.2.ended hnone)
  obtain ⟨l, -, hl⟩ := hfair 0 fun k _ => hpossible k
  obtain ⟨hown, hrun, hending⟩ := hkept l
  have hended := (hending.act hown hrun (hendless.2 l)).2 hl
  exact hnever (l + 1) (by simp [waitHasEnded, hended])

section

variable {settings : Settings} {origin : ConfigOrigin} {feeds : List φ} {registered : List FeedId}
  {environment : Environment} {runtime : Bool}

/-- A notifier has told of a success exactly if the run whose notifier it is has refreshed the book.
-/
theorem told_iff
    (h : Execution (new settings origin feeds registered environment runtime) trace e) :
    e.notifiers[n]? = some true ↔ trace.Tells n := by
  induction h with
  | nil =>
    refine iff_of_false ?_ (by simp [Trace.Tells])
    rw [waiters_new.2]
    cases n <;> simp
  | @act trace e later a hbefore hact ih =>
    have hcons : Trace.Tells n (⟨e, a⟩ :: trace) ↔
        (e.notifier = n ∧ ∃ i, e.task = some i ∧ e.Refreshes i a) ∨ trace.Tells n := by
      simp [Trace.Tells]
    rw [hcons, ← ih]
    exact told_act (ownNotifiers_new.of_execution oneRun_new hbefore)
      (oneRun_of_execution oneRun_new hbefore) hact

/-- The run with a captured notifier has been replaced since exactly if the notifier is not the
current one any more. -/
theorem Captures.lt_notifier_iff {capture : Moment φ} {since before : Trace φ}
    (hcapture : Captures j n capture since)
    (h : Execution (new settings origin feeds registered environment runtime)
      (since ++ capture :: before) e) :
    (n < e.notifier ↔ since.Replaces n) ∧ n ≤ e.notifier := by
  obtain ⟨hbefore, next, hact, hafter⟩ := h.split
  have hown := ownNotifiers_new.of_execution oneRun_new (hbefore.act hact)
  have hrun := oneRun_of_execution oneRun_new (hbefore.act hact)
  have hnotifier : next.notifier = n := by
    rw [hcapture.action] at hact
    obtain ⟨_, rfl⟩ := stepWaiter_frame hact
    exact hcapture.current
  obtain ⟨hreplaces, hle⟩ := Engine.lt_notifier_iff hown hrun hafter (Nat.le_of_eq hnotifier)
  exact ⟨hreplaces, hnotifier ▸ hle⟩

theorem le_notifier_of_waiting
    (h : Execution (new settings origin feeds registered environment runtime) trace e)
    (hwaiting : e.waiters[j]? = some (.waiting n)) : n ≤ e.notifier := by
  obtain ⟨since, capture, before, rfl, hcapture⟩ := exists_captures waiters_new.1 h hwaiting
  exact (hcapture.lt_notifier_iff h).2

/-- A wait that has ended was called, and captured the notifier that was current then; before its
end the run with this notifier refreshed the book, or it was replaced after the wait was called. -/
theorem exists_release_of_ended
    (h : Execution (new settings origin feeds registered environment runtime) trace e)
    (hended : e.waiters[j]? = some .ended) :
    ∃ n after last since capture before, trace = after ++ last :: (since ++ capture :: before) ∧
      last.action = .stepWaiter j ∧ last.engine.waiters[j]? = some (.waiting n) ∧
      Captures j n capture since ∧
      (Trace.Tells n (since ++ capture :: before) ∨ since.Replaces n) := by
  obtain ⟨n, after, last, earlier, rfl, haction, hwaiting, hreleased⟩ :=
    exists_last_of_ended waiters_new.1 h hended
  have hlast := h.split.1
  obtain ⟨since, capture, before, rfl, hcapture⟩ := exists_captures waiters_new.1 hlast hwaiting
  refine ⟨n, after, last, since, capture, before, rfl, haction, hwaiting, hcapture, ?_⟩
  obtain ⟨hreplaces, hle⟩ := hcapture.lt_notifier_iff hlast
  exact hreleased.imp (told_iff hlast).mp fun hne =>
    hreplaces.mp (Nat.lt_of_le_of_ne hle hne)

/-- What ends a wait that somebody has called. Only a step of the wait itself moves it, and it can
end if the run whose notifier it captured has refreshed the book, or has been replaced since; so no
other action ends it, or lets it end. Called where the engine is ready it ends at once, and where
its notifier has told of a success it ends: in every execution without an end that does not pass it
over for ever, and when an engine settles whose cycles have a pause between them. -/
theorem waits_end [PacedFeed φ]
    (h : Execution (new settings origin feeds registered environment runtime) trace e) :
    (∀ j, e.waiters[j]? = some .ended → ∃ n after last since capture before,
      trace = after ++ last :: (since ++ capture :: before) ∧ last.action = .stepWaiter j ∧
        last.engine.waiters[j]? = some (.waiting n) ∧ Captures j n capture since ∧
        (Trace.Tells n (since ++ capture :: before) ∨ since.Replaces n)) ∧
    (∀ a later j n, e.act a = some later → e.waiters[j]? = some (.waiting n) →
      (a ≠ .stepWaiter j → later.waiters[j]? = some (.waiting n)) ∧
      (later.Released n ↔ e.Released n ∨ e.notifier = n ∧
        (e.startsRun a = true ∨ ∃ i, e.task = some i ∧ e.Refreshes i a))) ∧
    (e.isReady = true → (∀ limit, e.waitUntilReady limit = (true, .zero, e)) ∧
      ∀ j, e.waiters[j]? = some .called → ∃ captured later,
        e.act (.stepWaiter j) = some captured ∧ captured.act (.stepWaiter j) = some later ∧
          later.waitHasEnded j = true) ∧
    (∀ j n, e.waiters[j]? = some (.waiting n) → trace.Tells n →
      (∀ run, e.Endless run → FairTo j run → ∃ k, (run k).engine.waitHasEnded j = true) ∧
      (0 < e.interval.nanos → e.settle.waitHasEnded j = true)) := by
  have hown := ownNotifiers_new.of_execution oneRun_new h
  have hrun := oneRun_of_execution oneRun_new h
  refine ⟨fun j => exists_release_of_ended h, ?_, ?_, ?_⟩
  · intro a later j n hact hwaiting
    refine ⟨fun ha => ?_, released_act hown hrun hact (le_notifier_of_waiting h hwaiting)⟩
    obtain hsame | ⟨hnone, -⟩ := waiter_act hact ha
    · exact hsame.trans hwaiting
    · cases hnone.symm.trans hwaiting
  · intro hready
    refine ⟨fun limit => ?_, fun j hcalled => ?_⟩
    · have htold : e.notifiers.getD e.notifier false = true := hready
      simp only [waitUntilReady, htold, if_true]
    · let captured : Engine φ := { e with waiters := e.waiters.set j (.waiting e.notifier) }
      have hwaiting : captured.waiters[j]? = some (.waiting e.notifier) :=
        getElem?_set_waiters hcalled
      refine ⟨captured, _, stepWaiter_of_called hcalled,
        stepWaiter_of_released hwaiting (.inl (getD_eq_true_iff.mp hready)), ?_⟩
      simp [waitHasEnded, getElem?_set_waiters hwaiting]
  · intro j n hwaiting htells
    have hending : e.Ending j n := ⟨(told_iff h).mpr htells, .inl hwaiting⟩
    refine ⟨fun run => hending.eventually hown hrun, fun hinterval => ?_⟩
    obtain ⟨settling, hsettle⟩ := (reaches_stepMany e.work e).1
    have hfeeds := (ownFeeds_of_tasks tasks_new).of_execution h
    have hnone := (steps_of_step_eq_none (step_settle hfeeds hinterval).1 j).2
    exact (hending.of_execution hown hrun hsettle).ended hnone

end

/-- A wait is called before the first start, and another after it; the cycle of the run refreshes
the book, and the engine is stopped. -/
def calledTwice : List (Action ScriptedFeed) :=
  [.spawnWait, .stepWaiter 0, .start, .stepWaiter 0, .spawnWait, .stepWaiter 1, .stepTask 0,
    .stepTask 0, .stepTask 0, .stepTask 0, .stepTask 0, .stop]

/-- The start has ended the first wait, and the second ends although the engine is stopped. -/
theorem waits_of_calledTwice :
    ∃ trace e, Execution bitcoinEngine trace e ∧ e.waiters = [.ended, .waiting 1] ∧
      e.started = false ∧ trace.Tells 1 ∧ e.settle.waitHasEnded 1 = true ∧
      ∃ n after last since capture before, trace = after ++ last :: (since ++ capture :: before) ∧
        last.engine.waiters[0]? = some (.waiting n) ∧ Captures 0 n capture since ∧
        (Trace.Tells n (since ++ capture :: before) ∨ since.Replaces n) := by
  obtain ⟨trace, e, hperformed, hwaiters, hstopped, htold, hinterval⟩ :
      ∃ trace e, bitcoinEngine.perform calledTwice = some (trace, e) ∧
        e.waiters = [.ended, .waiting 1] ∧ e.started = false ∧ e.notifiers[1]? = some true ∧
        0 < e.interval.nanos :=
    ⟨_, _, rfl, rfl, rfl, rfl, by decide⟩
  have h := execution_of_perform hperformed
  have htells : trace.Tells 1 := (told_iff h).mp htold
  obtain ⟨hended, -, -, hends⟩ := waits_end h
  obtain ⟨n, after, last, since, capture, before, htrace, -, hlast⟩ := hended 0 (by simp [hwaiters])
  exact ⟨trace, e, h, hwaiters, hstopped, htells,
    (hends 1 1 (by simp [hwaiters]) htells).2 hinterval, n, after, last, since, capture, before,
    htrace, hlast⟩

end ExchangeRates.Engine

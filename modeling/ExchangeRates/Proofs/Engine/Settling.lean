import ExchangeRates.Feed.Scripted
import ExchangeRates.Proofs.Engine.CycleSteps
import ExchangeRates.Proofs.Engine.Schedule
import ExchangeRates.Proofs.Feed.Ticking
import ExchangeRates.Proofs.Feed.Waking
import Mathlib.Algebra.Order.BigOperators.Group.List
import Mathlib.Algebra.Order.Ring.Nat

namespace ExchangeRates

/-- A kind of feeds that do not work twice at one instant, and whose work no request postpones. -/
class PacedFeed (φ : Type) [PriceFeed φ] : Prop where
  lt_of_wakesAt_wake (now : Instant) (feed : φ) (t : Instant)
    (h : PriceFeed.wakesAt (PriceFeed.wake now feed).1 = some t) : now < t
  wakesAt_fetch (feed : φ) :
    PriceFeed.wakesAt (PriceFeed.fetch feed).1 = PriceFeed.wakesAt feed

instance : PacedFeed ScriptedFeed where
  lt_of_wakesAt_wake _ _ _ h := by cases h
  wakesAt_fetch feed := by
    simp only [PriceFeed.fetch, PriceFeed.wakesAt, ScriptedFeed.fetch]
    split <;> rfl

instance : PacedFeed WalkingFeed where
  lt_of_wakesAt_wake _ _ _ := WalkingFeed.lt_of_wakesAt_wake
  wakesAt_fetch _ := rfl

section

variable {φ : Type} [PriceFeed φ]

/-- Whether a feed has work to do now. -/
def anyDue (now : Instant) (feeds : List φ) : Bool :=
  feeds.any fun feed => (PriceFeed.wakesAt feed).any (· ≤ now)

theorem exists_wakesAt_of_nextWake? {now next : Instant} {feeds : List φ}
    (h : nextWake? now feeds = some next) :
    (∃ feed ∈ feeds, PriceFeed.wakesAt feed = some next) ∧ now < next := by
  obtain ⟨feed, hfeed, hwakes⟩ := List.mem_filterMap.mp (List.min?_mem h)
  obtain ⟨hwakes, hlater⟩ := Option.filter_eq_some_iff.mp hwakes
  exact ⟨⟨feed, hfeed, hwakes⟩, by simpa using hlater⟩

/-- No feed has work to do between now and the next instant at which one has. -/
theorem exists_nextWake?_le {now due : Instant} {feeds : List φ} {feed : φ} (hmem : feed ∈ feeds)
    (hdue : PriceFeed.wakesAt feed = some due) (hlater : now < due) :
    ∃ next, nextWake? now feeds = some next ∧ next ≤ due := by
  have hwakes : due ∈ feeds.filterMap fun feed => (PriceFeed.wakesAt feed).filter (now < ·) :=
    List.mem_filterMap.mpr ⟨feed, hmem, by simp [hdue, hlater, Option.filter]⟩
  obtain ⟨next, hnext⟩ := Option.ne_none_iff_exists'.mp fun hnone =>
    List.ne_nil_of_mem hwakes (List.min?_eq_none_iff.mp hnone)
  exact ⟨next, hnext, (List.min?_eq_some_iff.mp hnext).2 due hwakes⟩

variable [PacedFeed φ]

theorem lt_of_wakesAt_wakeFeed {now t : Instant} {feed : φ}
    (h : PriceFeed.wakesAt (wakeFeed now feed).1 = some t) : now < t := by
  obtain hwoken | ⟨hsame, hquiet⟩ := wakeFeed_cases now feed
  · rw [hwoken] at h
    exact PacedFeed.lt_of_wakesAt_wake now feed t h
  · rw [hsame] at h
    exact hquiet t h

theorem anyDue_wakeFeeds (now : Instant) (feeds : List φ) :
    anyDue now (wakeFeeds now feeds).1 = false := by
  simp only [anyDue, wakeFeeds_eq, List.any_map, List.any_eq_false, Function.comp_apply]
  intro feed _
  cases hnext : PriceFeed.wakesAt (wakeFeed now feed).1 with
  | none => simp
  | some next => simpa using lt_of_wakesAt_wakeFeed hnext

theorem anyDue_step {now at_ : Instant} {feeds later : List φ} {requests : List Fetch}
    {result : Except Fault (List Fetch)}
    (h : Fetch.step feeds at_ requests = some (later, result)) :
    anyDue now later = anyDue now feeds := by
  obtain ⟨_, request, _, feed, -, -, hfeed, rfl, -⟩ := Fetch.step_eq_some h
  obtain ⟨hlt, hget⟩ := List.getElem?_eq_some_iff.mp hfeed
  have hsame : (feeds.set request.feed (PriceFeed.fetch feed).1).map PriceFeed.wakesAt =
      feeds.map PriceFeed.wakesAt := by
    rw [List.map_set, PacedFeed.wakesAt_fetch, ← hget]
    apply List.ext_getElem?
    intro j
    by_cases hj : request.feed = j
    · subst hj
      simp [hlt]
    · simp [hj]
  have hany (l : List φ) : anyDue now l =
      (l.map PriceFeed.wakesAt).any fun wakesAt => wakesAt.any (· ≤ now) := by
    rw [List.any_map]
    rfl
  rw [hany, hsame, ← hany]

end

/-- A bound on the steps that a task in this phase can take at an instant, with a pause between two
cycles. -/
def Phase.pending (now : Instant) (registered : List FeedId) : Phase → Nat
  | .spawned => stepsOf registered + 1
  | .sleeping t => if t ≤ now then stepsOf registered + 1 else 0
  | phase => phase.stepsLeft

theorem Phase.pending_of_cycle {now : Instant} {registered : List FeedId} {phase : Phase}
    {cycle : Cycle} (h : phase.cycle? = some cycle) :
    phase.pending now registered = phase.stepsLeft := by
  cases phase with
  | spawned | sleeping _ => cases h
  | atGate _ _ | fetching _ _ => rfl

theorem Phase.stepsLeft_pos {phase : Phase} {cycle : Cycle} (h : phase.cycle? = some cycle) :
    0 < phase.stepsLeft := by
  cases phase with
  | spawned | sleeping _ => cases h
  | atGate _ _ | fetching _ _ => exact Nat.succ_pos _

def PollTask.pending (now : Instant) (registered : List FeedId) (task : PollTask) : Nat :=
  if task.aborted then 0 else task.phase.pending now registered

/-- A bound on the steps that somebody who waits can take. -/
def Waiter.pending : Waiter → Nat
  | .called => 2
  | .waiting _ => 1
  | .ended => 0

theorem sum_map_set_lt {α : Type} {g : α → Nat} {l : List α} {i : Nat} {x y : α}
    (hx : l[i]? = some x) (h : g y < g x) : ((l.set i y).map g).sum < (l.map g).sum := by
  induction l generalizing i with
  | nil => simp at hx
  | cons first l ih =>
    cases i with
    | zero =>
      obtain rfl : first = x := by simpa using hx
      simpa using h
    | succ i => simpa using ih (by simpa using hx)

namespace Engine

variable {φ : Type}

theorem pending_le_work_of_mem {e : Engine φ} (h : e.OwnFeeds) {task : PollTask}
    (htask : task ∈ e.tasks) :
    task.pending e.now e.registered ≤ task.work e.registered.length := by
  obtain ⟨i, hi⟩ := List.mem_iff_getElem?.mp htask
  unfold PollTask.pending PollTask.work
  split
  · exact Nat.zero_le _
  next halive =>
  have hfeeds := h i _ (phase?_of_alive hi (by simpa using halive))
  cases hphase : task.phase with
  | spawned =>
    simp only [Phase.pending, Phase.stepsOf]
    omega
  | sleeping t =>
    simp only [Phase.pending, Phase.stepsOf]
    split <;> omega
  | atGate cycle gate | fetching cycle requests =>
    have hleft := (hphase ▸ hfeeds).stepsLeft_le rfl
    simp only [Phase.pending, Phase.stepsOf] at hleft ⊢
    omega

variable [PriceFeed φ]

/-- A bound on the steps that can be taken at this instant, with a pause between two cycles. -/
def pending (e : Engine φ) : Nat :=
  (if anyDue e.now e.feeds then 1 else 0) +
    (e.tasks.map (PollTask.pending e.now e.registered)).sum + (e.waiters.map Waiter.pending).sum

/-- The bound that the clock uses is large enough. -/
theorem pending_le_work {e : Engine φ} (h : e.OwnFeeds) : e.pending ≤ e.work := by
  have hfoldl (l : List PollTask) (n : Nat) :
      l.foldl (fun n t => n + t.work e.registered.length) n =
        n + (l.map fun t => t.work e.registered.length).sum := by
    induction l generalizing n with
    | nil => rfl
    | cons task l ih =>
      rw [List.foldl_cons, ih, List.map_cons, List.sum_cons, Nat.add_assoc]
  have htasks : (e.tasks.map (PollTask.pending e.now e.registered)).sum ≤
      (e.tasks.map fun t => t.work e.registered.length).sum :=
    List.sum_le_sum fun _ htask => pending_le_work_of_mem h htask
  have hwaiters : (e.waiters.map Waiter.pending).sum ≤ 2 * e.waiters.length := by
    have hsum : (e.waiters.map Waiter.pending).sum ≤ (e.waiters.map fun _ => 2).sum := by
      refine List.sum_le_sum ?_
      intro waiter _
      cases waiter <;> simp [Waiter.pending]
    simpa [Nat.mul_comm] using hsum
  have hfeeds : (if anyDue e.now e.feeds then 1 else 0) ≤ 1 := by split <;> omega
  rw [work, hfoldl, pending]
  omega

variable {e later : Engine φ}

theorem TaskStep.anyDue [PacedFeed φ] {i : Nat} {task : PollTask} (h : e.TaskStep i task later)
    (now : Instant) :
    ExchangeRates.anyDue now later.feeds = ExchangeRates.anyDue now e.feeds := by
  cases h with
  | answer _ hstep => exact anyDue_step hstep
  | breakDown _ hstep => exact anyDue_step hstep
  | _ => rfl

/-- A step of a task, with a pause between two cycles, leaves fewer of its steps pending. -/
theorem PhaseStep.pending_lt (hinterval : 0 < e.interval.nanos) {i : Nat} {task : PollTask}
    {next : Phase} (halive : task.aborted = false) (h : e.PhaseStep i task.phase next) :
    ({ task with phase := next } : PollTask).pending e.now e.registered <
      task.pending e.now e.registered := by
  simp only [PollTask.pending, halive, Bool.false_eq_true, if_false]
  cases h with
  | begin hidle hdue _ =>
    have hbegin : Phase.stepsLeft (.atGate ⟨e.registered, e.config⟩
        (.begin e.now e.settings.gateTimeout e.registered)) < Phase.stepsOf e.registered + 1 := by
      simp only [Phase.stepsLeft, Phase.stepsOf, Gate.begin]
      omega
    cases hphase : task.phase with
    | spawned => exact hbegin
    | sleeping t => simpa [Phase.pending, hdue t hphase] using hbegin
    | atGate cycle gate => simp [hphase, Phase.cycle?] at hidle
    | fetching cycle requests => simp [hphase, Phase.cycle?] at hidle
  | goOn hcycle hnext _ hless _ =>
    rw [Phase.pending_of_cycle hcycle, Phase.pending_of_cycle hnext]
    exact hless
  | finish hcycle _ =>
    have hlater := Nat.not_le_of_gt (Nat.lt_add_of_pos_right (n := e.now) hinterval)
    rw [Phase.pending_of_cycle hcycle, Phase.pending, if_neg hlater]
    exact Phase.stepsLeft_pos hcycle

section

variable [PacedFeed φ]

/-- A task that has ended its cycle takes no further step at this instant, and a feed that has done
its work has none left, so with each step fewer are pending. -/
theorem pending_step (hinterval : 0 < e.interval.nanos) (h : e.step = some later) :
    later.pending < e.pending ∧ later.interval = e.interval := by
  obtain ⟨a, hact, rfl | ⟨i, rfl⟩ | ⟨i, rfl⟩⟩ := exists_act_of_step h
  · have hdue : anyDue e.now e.feeds = true := by
      simp only [act, stepFeeds, Option.ite_none_right_eq_some] at hact
      exact hact.1
    obtain rfl := eq_of_stepFeeds hact
    refine ⟨?_, rfl⟩
    simp only [pending, anyDue_wakeFeeds, hdue, if_true, Bool.false_eq_true, if_false]
    omega
  · obtain ⟨task, htask, halive, hstep⟩ := taskStep_of_stepTask hact
    obtain ⟨next, hphase, htasks⟩ := hstep.phaseStep htask halive
    have hless := sum_map_set_lt htask (hphase.pending_lt hinterval halive)
    have hset : later.tasks = e.tasks.set i { task with phase := next } := by
      rw [htasks, List.modify_eq_set_getElem?, htask]
      rfl
    have hfeeds := hstep.anyDue e.now
    obtain ⟨_, _, _, _, _, _, rfl⟩ := hstep.frame
    refine ⟨?_, rfl⟩
    simp only [pending] at hset hfeeds ⊢
    rw [hfeeds, hset]
    omega
  · obtain ⟨hcalled, rfl⟩ | ⟨n, hwaiting, -, rfl⟩ := stepWaiter_cases hact
    · have hless : ((e.waiters.set i (.waiting e.notifier)).map Waiter.pending).sum <
          (e.waiters.map Waiter.pending).sum := sum_map_set_lt hcalled (Nat.lt_succ_self 1)
      refine ⟨?_, rfl⟩
      simp only [pending]
      omega
    · have hless : ((e.waiters.set i .ended).map Waiter.pending).sum <
          (e.waiters.map Waiter.pending).sum := sum_map_set_lt hwaiting Nat.one_pos
      refine ⟨?_, rfl⟩
      simp only [pending]
      omega

theorem step_stepMany {count : Nat} (hinterval : 0 < e.interval.nanos)
    (h : e.pending ≤ count) :
    (e.stepMany count).step = none ∧ (e.stepMany count).interval = e.interval := by
  induction count generalizing e with
  | zero =>
    refine ⟨?_, rfl⟩
    cases hstep : e.step with
    | none => exact hstep
    | some later =>
      have hless := (pending_step hinterval hstep).1
      omega
  | succ count ih =>
    unfold stepMany
    split
    · next later hstep =>
      obtain ⟨hless, hkept⟩ := pending_step hinterval hstep
      rw [← hkept] at hinterval ⊢
      exact ih hinterval (by omega)
    · next hnone => exact ⟨hnone, rfl⟩

/-- An engine that has settled has nothing left to do at this instant. -/
theorem step_settle (hfeeds : e.OwnFeeds) (hinterval : 0 < e.interval.nanos) :
    e.settle.step = none ∧ e.settle.interval = e.interval :=
  step_stepMany hinterval (pending_le_work hfeeds)

end

/-- Where no step can be taken, no task and nobody who waits can take one. -/
theorem steps_of_step_eq_none {e : Engine φ} (h : e.step = none) (i : Nat) :
    e.stepTask i = none ∧ e.stepWaiter i = none := by
  obtain ⟨-, h⟩ := Option.or_eq_none_iff.mp h
  obtain ⟨htasks, hwaiters⟩ := Option.or_eq_none_iff.mp h
  rw [List.findSome?_eq_none_iff] at htasks hwaiters
  constructor
  · cases hstep : e.stepTask i with
    | none => rfl
    | some later =>
      obtain ⟨task, htask, -⟩ := taskStep_of_stepTask hstep
      obtain ⟨hlt, -⟩ := List.getElem?_eq_some_iff.mp htask
      exact hstep.symm.trans (htasks i (List.mem_range.mpr hlt))
  · cases hstep : e.stepWaiter i with
    | none => rfl
    | some later =>
      have hlt : i < e.waiters.length := by
        obtain ⟨hcalled, -⟩ | ⟨n, hwaiting, -⟩ := stepWaiter_cases hstep
        · exact (List.getElem?_eq_some_iff.mp hcalled).1
        · exact (List.getElem?_eq_some_iff.mp hwaiting).1
      exact hstep.symm.trans (hwaiters i (List.mem_range.mpr hlt))

end Engine

end ExchangeRates

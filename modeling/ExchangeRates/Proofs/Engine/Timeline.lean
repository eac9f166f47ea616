import ExchangeRates.Proofs.Engine.OnTime
import ExchangeRates.Proofs.Engine.Waiting
import Mathlib.Data.Nat.Find

namespace ExchangeRates

section

variable {φ : Type} [PriceFeed φ] {feeds : List φ} {now t : Instant}

/-- A request takes a step at two instants alike if no answer is due between them. -/
theorem Fetch.step_congr_now {requests : List Fetch}
    (h : ∀ request ∈ requests, request.answer = none → (request.dueAt ≤ t ↔ request.dueAt ≤ now)) :
    Fetch.step feeds t requests = Fetch.step feeds now requests := by
  induction requests with
  | nil => rfl
  | cons request rest ih =>
    obtain ⟨hrequest, hrest⟩ := List.forall_mem_cons.mp h
    have hsame : (request.answer.isNone && decide (request.dueAt ≤ t)) =
        (request.answer.isNone && decide (request.dueAt ≤ now)) := by
      cases hanswer : request.answer with
      | some _ => rfl
      | none => simp [hrequest hanswer]
    simp only [Fetch.step, hsame, ih hrest]

/-- If no step can be taken, the answers that are missing are due later. -/
theorem Fetch.lt_dueAt_of_step_eq_none {requests : List Fetch}
    (hfeeds : ∀ request ∈ requests, request.feed < feeds.length)
    (h : Fetch.step feeds now requests = none) :
    ∀ request ∈ requests, request.answer = none → now < request.dueAt := by
  induction requests with
  | nil => simp
  | cons request rest ih =>
    obtain ⟨hfeed, hothers⟩ := List.forall_mem_cons.mp hfeeds
    unfold Fetch.step at h
    split at h
    · simp [List.getElem?_eq_getElem hfeed] at h
    · next hnot =>
      refine List.forall_mem_cons.mpr ⟨fun hanswer => ?_, ih hothers (Option.map_eq_none_iff.mp h)⟩
      simpa [hanswer] using hnot

/-- A gate that waits goes on waiting until its turn ends. -/
theorem Gate.step_eq_none_of_le {gate : Gate} {timeout : Duration} {latch : Latch}
    (hturn : gate.deadline ≤ t → gate.deadline ≤ now)
    (h : gate.step feeds now timeout latch = none) : gate.step feeds t timeout latch = none := by
  rw [Gate.step_eq_none_iff] at h ⊢
  intro id hid
  obtain ⟨feed, hfeed, hready, hlater⟩ := h id hid
  exact ⟨feed, hfeed, hready, Nat.lt_of_not_le fun hle => Nat.not_le_of_gt hlater (hturn hle)⟩

end

namespace Engine

variable {φ : Type}

theorem stepWaiter_now (e : Engine φ) (t : Instant) (i : Nat) :
    ({ e with now := t } : Engine φ).stepWaiter i =
      (e.stepWaiter i).map fun later => { later with now := t } := by
  unfold stepWaiter
  dsimp only
  split
  · rfl
  · split <;> rfl
  · rfl

/-- A later engine goes on with the run of an earlier one, if there is one: it is neither started
nor stopped in between, nor set to do anything else. -/
structure Continues (e later : Engine φ) : Prop where
  registered : later.registered = e.registered
  interval : later.interval = e.interval
  notifier : later.notifier = e.notifier
  task : later.task = e.task
  started : later.started = e.started
  runtime : later.runtime = e.runtime
  feeds : later.feeds.length = e.feeds.length
  ready : e.isReady = true → later.isReady = true

theorem Continues.refl (e : Engine φ) : e.Continues e := ⟨rfl, rfl, rfl, rfl, rfl, rfl, rfl, id⟩

theorem Continues.trans {e middle later : Engine φ} (h : e.Continues middle)
    (hnext : middle.Continues later) : e.Continues later where
  registered := hnext.registered.trans h.registered
  interval := hnext.interval.trans h.interval
  notifier := hnext.notifier.trans h.notifier
  task := hnext.task.trans h.task
  started := hnext.started.trans h.started
  runtime := hnext.runtime.trans h.runtime
  feeds := hnext.feeds.trans h.feeds
  ready := hnext.ready ∘ h.ready

variable [PriceFeed φ]

/-- The engine after it has been left alone until an instant; what is due at the instant itself is
still to come. -/
def leftUntil (e : Engine φ) (t : Instant) : Engine φ := e.runUntil t fun _ => false

/-- An engine that is left alone is ready for the first time when some time has passed. -/
structure ReadyFirstAfter (e : Engine φ) (nanos : Nat) : Prop where
  ready : (e.leftUntil (e.now + nanos)).settle.isReady = true
  before : ∀ n < nanos, (e.leftUntil (e.now + n)).settle.isReady = false

section

variable {e : Engine φ} {t limit : Instant}

/-- An answer that a task waits for is due, if none of them was late when the engine had settled. -/
theorem exists_isDue_le_of_fetching (hfeeds : e.OwnFeeds) {i : Nat} {cycle : Cycle}
    {requests : List Fetch} (hphase : e.phase? i = some (.fetching cycle requests))
    (hstep : Fetch.step e.feeds e.now requests = none) {request : Fetch}
    (hmem : request ∈ requests) (hanswer : request.answer = none) :
    ∃ d, e.IsDue d ∧ e.now < d ∧ d ≤ request.dueAt := by
  have hown := hfeeds i _ hphase
  have hlater := Fetch.lt_dueAt_of_step_eq_none (fun r hr => ?_) hstep
  · have hmissing : request.dueAt ∈
        (requests.filter fun r => r.answer.isNone).map Fetch.dueAt :=
      List.mem_map_of_mem (List.mem_filter.mpr ⟨hmem, by simp [hanswer]⟩)
    obtain ⟨d, hd⟩ := Option.ne_none_iff_exists'.mp fun hnone =>
      List.ne_nil_of_mem hmissing (List.min?_eq_none_iff.mp hnone)
    obtain ⟨hleast, hle⟩ := List.min?_eq_some_iff.mp hd
    obtain ⟨first, hfirst, rfl⟩ := List.mem_map.mp hleast
    obtain ⟨hfirst, hnone⟩ := List.mem_filter.mp hfirst
    obtain ⟨task, htask, halive, hfetching⟩ := phase?_eq_some_iff.mp hphase
    refine ⟨first.dueAt, .inr ⟨task, List.mem_of_getElem? htask, ?_⟩,
      hlater first hfirst (by simpa using hnone), hle _ hmissing⟩
    simpa [PollTask.dueAt?, halive, hfetching, Fetch.nextDue?] using hd
  · have hfeed : r.feed ∈ cycle.feeds.filter (· < e.feeds.length) := by
      rw [← hown]
      exact List.mem_map_of_mem hr
    simpa using (List.mem_filter.mp hfeed).2

theorem stepTask_eq_none_of_le (hfeeds : e.OwnFeeds) {i : Nat} (h : e.stepTask i = none)
    (hquiet : ∀ d, e.IsDue d → d ≤ t → d ≤ e.now) :
    ({ e with now := t } : Engine φ).stepTask i = none := by
  unfold stepTask at h ⊢
  dsimp only
  cases htask : e.tasks[i]? with
  | none => rfl
  | some task =>
    simp only [htask] at h ⊢
    split
    · rfl
    next halive =>
    rw [if_neg halive] at h
    have hcurrent := phase?_of_alive htask (by simpa using halive)
    have hmem := List.mem_of_getElem? htask
    cases hphase : task.phase with
    | spawned => simp [hphase] at h
    | sleeping d =>
      simp only [hphase, ite_eq_right_iff, reduceCtorEq, imp_false] at h ⊢
      rw [hphase] at hcurrent
      exact fun hd => h (hquiet d (isDue_of_sleeping hcurrent) hd)
    | atGate cycle gate =>
      have hdue : e.IsDue gate.deadline :=
        .inr ⟨task, hmem, by simp [PollTask.dueAt?, halive, hphase]⟩
      simp only [hphase, stepGate] at h ⊢
      cases hgate : gate.step e.feeds e.now e.settings.gateTimeout e.latches.gate with
      | some _ => simp [hgate] at h
      | none =>
        have hwaiting : gate.waiting ≠ [] := by simpa [hgate] using h
        simp [Gate.step_eq_none_of_le (hquiet gate.deadline hdue) hgate, hwaiting]
    | fetching cycle requests =>
      rw [hphase] at hcurrent
      simp only [hphase, stepFetching] at h ⊢
      cases hstep : Fetch.step e.feeds e.now requests with
      | some next =>
        obtain ⟨_, result⟩ := next
        cases result <;> simp [hstep] at h
      | none =>
        have hsame : Fetch.step e.feeds t requests = none := by
          rw [← hstep]
          refine Fetch.step_congr_now fun request hrequest hanswer => ?_
          obtain ⟨d, hdue, hlater, hle⟩ :=
            exists_isDue_le_of_fetching hfeeds hcurrent hstep hrequest hanswer
          have hnot (hd : d ≤ t) : False := Nat.not_le_of_gt hlater (hquiet d hdue hd)
          exact iff_of_false (fun ht => hnot (Nat.le_trans hle ht))
            (Nat.not_le_of_gt (Nat.lt_of_lt_of_le hlater hle))
        simpa [hstep, hsame] using h

/-- If nothing can happen now, nothing can happen before the next instant at which something is due.
-/
theorem step_eq_none_of_lt_nextDue? (hfeeds : e.OwnFeeds) (h : e.step = none)
    (hnext : ∀ next, e.nextDue? = some next → t < next) :
    ({ e with now := t } : Engine φ).step = none := by
  have hquiet : ∀ d, e.IsDue d → d ≤ t → d ≤ e.now := by
    intro d hdue hd
    by_contra hlater
    obtain ⟨next, hsome, hle⟩ := exists_nextDue?_le hdue (Nat.lt_of_not_le hlater)
    exact Nat.not_le_of_gt (Nat.lt_of_lt_of_le (hnext next hsome) hle) hd
  have hwake : e.stepFeeds = none := (Option.or_eq_none_iff.mp h).1
  simp only [step, Option.or_eq_none_iff, List.findSome?_eq_none_iff]
  refine ⟨?_, fun i _ => ?_, fun i _ => ?_⟩
  · simp only [stepFeeds, ite_eq_right_iff, reduceCtorEq, imp_false, Bool.not_eq_true,
      List.any_eq_false] at hwake ⊢
    intro feed hfeed
    have hnot := hwake feed hfeed
    cases hwakes : PriceFeed.wakesAt feed with
    | none => rfl
    | some d =>
      simp only [hwakes, Option.any_some, decide_eq_false_iff_not] at hnot ⊢
      exact fun hd => hnot (hquiet d (.inl ⟨feed, hfeed, hwakes⟩) hd)
  · exact stepTask_eq_none_of_le hfeeds (steps_of_step_eq_none h i).1 hquiet
  · rw [stepWaiter_now, (steps_of_step_eq_none h i).2]
    rfl

/-- The next instant at which something is due stays the next one until it comes. -/
theorem nextDue?_of_lt (hnow : e.now ≤ t) (hnext : ∀ next, e.nextDue? = some next → t < next) :
    ({ e with now := t } : Engine φ).nextDue? = e.nextDue? := by
  have hsame : ∀ d, e.IsDue d → (t < d ↔ e.now < d) := by
    intro d hdue
    refine ⟨Nat.lt_of_le_of_lt hnow, fun hlater => ?_⟩
    obtain ⟨next, hsome, hle⟩ := exists_nextDue?_le hdue hlater
    exact Nat.lt_of_lt_of_le (hnext next hsome) hle
  cases hlater : ({ e with now := t } : Engine φ).nextDue? with
  | none =>
    cases hsome : e.nextDue? with
    | none => rfl
    | some next =>
      obtain ⟨hdue, hnow⟩ := isDue_of_nextDue? hsome
      obtain ⟨_, hexists, -⟩ := exists_nextDue?_le (e := { e with now := t }) hdue
        ((hsame next hdue).mpr hnow)
      exact nomatch hlater.symm.trans hexists
  | some d =>
    obtain ⟨hdue, hd⟩ := isDue_of_nextDue? hlater
    obtain ⟨next, hsome, hle⟩ := exists_nextDue?_le (e := e) hdue ((hsame d hdue).mp hd)
    obtain ⟨hfirst, hnow⟩ := isDue_of_nextDue? hsome
    obtain ⟨least, hleast, hle'⟩ := exists_nextDue?_le (e := { e with now := t }) hfirst
      ((hsame next hfirst).mpr hnow)
    obtain rfl := Option.some.inj (hlater.symm.trans hleast)
    rw [hsome, Nat.le_antisymm hle hle']

theorem settle_eq_self (h : e.step = none) : e.settle = e := by
  unfold settle
  cases e.work with
  | zero => rfl
  | succ count => simp only [stepMany, h]

theorem now_settle (e : Engine φ) : e.settle.now = e.now := (reaches_stepMany e.work e).2

/-- Once an engine has settled, something is due before an instant, or nothing is. -/
theorem due_or_quiet (e : Engine φ) (t : Instant) :
    (∃ next, e.settle.nextDue? = some next ∧ e.now < next ∧ next < t) ∨
      ∀ next, e.settle.nextDue? = some next → t ≤ next := by
  by_cases hdue : ∃ next, e.settle.nextDue? = some next ∧ next < t
  · obtain ⟨next, hnext, hbefore⟩ := hdue
    exact .inl ⟨next, hnext, now_settle e ▸ lt_of_nextDue? hnext, hbefore⟩
  · exact .inr fun next hnext => Nat.le_of_not_lt fun hbefore => hdue ⟨next, hnext, hbefore⟩

theorem leftUntil_of_le (h : t ≤ e.now) : e.leftUntil t = e := by
  rw [leftUntil, runUntil, if_neg (Nat.not_lt_of_le h)]

/-- Left alone, an engine settles, and if something is due earlier it goes on from there. -/
theorem leftUntil_of_due {next : Instant} (hnext : e.settle.nextDue? = some next) (h : next < t) :
    e.leftUntil t = ({ e.settle with now := next } : Engine φ).leftUntil t := by
  have hnow : e.now < next := now_settle e ▸ lt_of_nextDue? hnext
  rw [leftUntil, runUntil, if_pos (Nat.lt_trans hnow h)]
  simp only [Bool.false_eq_true, if_false, hnext, if_pos (And.intro hnow h)]
  rfl

/-- If nothing is due earlier, no more happens to it. -/
theorem leftUntil_of_quiet (h : e.now < t)
    (hquiet : ∀ next, e.settle.nextDue? = some next → t ≤ next) :
    e.leftUntil t = { e.settle with now := t } := by
  rw [leftUntil, runUntil, if_pos h]
  simp only [Bool.false_eq_true, if_false]
  split
  · next next hnext =>
    rw [if_neg fun hlt => Nat.not_lt_of_le (hquiet next hnext) hlt.2]
  · rfl

theorem OwnFeeds.settle (h : e.OwnFeeds) : e.settle.OwnFeeds := by
  obtain ⟨trace, htrace⟩ := (reaches_stepMany e.work e).1
  exact h.of_execution htrace

theorem now_leftUntil (h : e.now ≤ t) : (e.leftUntil t).now = t := by
  unfold leftUntil
  fun_induction runUntil t (fun _ => false) e with
  | case1 _ _ _ hdone => cases hdone
  | case2 _ _ _ _ _ _ hlater ih => exact ih (Nat.le_of_lt hlater.2)
  | case3 _ _ _ _ _ _ _ => rfl
  | case4 _ _ _ _ _ => rfl
  | case5 _ hlimit => exact Nat.le_antisymm h (Nat.le_of_not_lt hlimit)

/-- What a step keeps, and the passing of time, holds as long as an engine is left alone. -/
theorem leftUntil_invariant {P : Engine φ → Prop}
    (hstep : ∀ {e later : Engine φ}, P e → e.step = some later → P later)
    (htime : ∀ {e : Engine φ} {t : Instant}, e.now ≤ t → P e → P { e with now := t }) (h : P e) :
    P (e.leftUntil t) ∧ P e.settle := by
  have hmany (count : Nat) {e : Engine φ} (h : P e) : P (e.stepMany count) := by
    induction count generalizing e with
    | zero => exact h
    | succ count ih =>
      unfold stepMany
      split
      · next later hlater => exact ih (hstep h hlater)
      · exact h
  have hsettled {e : Engine φ} {t : Instant} (hlater : e.now < t) (h : P e) :
      P { e.settle with now := t } :=
    htime (now_settle e ▸ Nat.le_of_lt hlater) (hmany _ h)
  refine ⟨?_, hmany _ h⟩
  unfold leftUntil
  fun_induction runUntil t (fun _ => false) e with
  | case1 _ _ _ hdone => cases hdone
  | case2 _ _ _ _ _ _ hlater ih => exact ih (hsettled hlater.1 h)
  | case3 _ hlimit _ _ _ _ _ => exact hsettled hlimit h
  | case4 _ hlimit _ _ _ => exact hsettled hlimit h
  | case5 _ _ => exact h

theorem continues_of_step {later : Engine φ} (h : e.step = some later) : e.Continues later := by
  obtain ⟨a, hact, hkind⟩ := exists_act_of_step h
  have hlength := (effect_of_act hact).length_feeds
  obtain rfl | ⟨i, rfl⟩ | ⟨i, rfl⟩ := hkind
  · obtain rfl := eq_of_stepFeeds hact
    exact ⟨rfl, rfl, rfl, rfl, rfl, rfl, hlength, id⟩
  · obtain ⟨task, htask, halive, hstep⟩ := taskStep_of_stepTask hact
    have hnotifiers := hstep.notifiers htask halive
    obtain ⟨_, _, _, _, _, _, rfl⟩ := hstep.frame
    refine ⟨rfl, rfl, rfl, rfl, rfl, rfl, hlength, fun hready => ?_⟩
    rw [isReady, getD_eq_true_iff] at hready ⊢
    obtain ⟨-, htold⟩ | ⟨-, hsame⟩ := hnotifiers
    · dsimp only at htold ⊢
      rw [htold, List.getElem?_set]
      split
      · next heq => simpa [heq] using (List.getElem?_eq_some_iff.mp hready).1
      · exact hready
    · dsimp only at hsame ⊢
      rwa [hsame]
  · obtain ⟨_, rfl⟩ := stepWaiter_frame hact
    exact ⟨rfl, rfl, rfl, rfl, rfl, rfl, hlength, id⟩

/-- An engine that is left alone, or settles, goes on with its run. -/
theorem continues_leftUntil (e : Engine φ) (t : Instant) :
    e.Continues (e.leftUntil t) ∧ e.Continues e.settle :=
  leftUntil_invariant (P := e.Continues)
    (fun hkept hstep => hkept.trans (continues_of_step hstep))
    (fun _ hkept => ⟨hkept.registered, hkept.interval, hkept.notifier, hkept.task, hkept.started,
      hkept.runtime, hkept.feeds, hkept.ready⟩)
    (Continues.refl e)

/-- An engine that is left alone is ready at some time for the first time, or never. -/
theorem readyFirstAfter_or_never (e : Engine φ) : (∃ nanos, e.ReadyFirstAfter nanos) ∨
    ∀ n, (e.leftUntil (e.now + n)).settle.isReady = false := by
  classical
  by_cases h : ∃ n, (e.leftUntil (e.now + n)).settle.isReady = true
  · exact .inl ⟨Nat.find h, Nat.find_spec h, fun n hn => by simpa using Nat.find_min h hn⟩
  · exact .inr fun n => by simpa using not_exists.mp h n

theorem isReady_eq_false_of_never (h : ∀ n, (e.leftUntil (e.now + n)).settle.isReady = false)
    (n : Nat) : (e.leftUntil (e.now + n)).isReady = false := by
  rw [← Bool.not_eq_true]
  intro hready
  have hsettled := (continues_leftUntil (e.leftUntil (e.now + n)) 0).2.ready hready
  simp [h n] at hsettled

variable [PacedFeed φ]

/-- An engine that has settled is still settled as long as nothing more has become due. -/
theorem settle_of_lt_nextDue? (hfeeds : e.OwnFeeds) (hinterval : 0 < e.interval.nanos)
    (hlater : ∀ next, e.settle.nextDue? = some next → t < next) :
    ({ e.settle with now := t } : Engine φ).settle = { e.settle with now := t } :=
  settle_eq_self
    (step_eq_none_of_lt_nextDue? hfeeds.settle (step_settle hfeeds hinterval).1 hlater)

/-- What is left alone for a while, and then for another, is left alone for both. -/
theorem leftUntil_leftUntil (hfeeds : e.OwnFeeds) (hinterval : 0 < e.interval.nanos)
    (h : t ≤ limit) : (e.leftUntil t).leftUntil limit = e.leftUntil limit := by
  induction hn : t - e.now using Nat.strong_induction_on generalizing e with
  | _ n ih =>
  by_cases hnow : t ≤ e.now
  · rw [leftUntil_of_le hnow]
  have hlt := Nat.lt_of_not_le hnow
  obtain ⟨next, hnext, hlater, hbefore⟩ | hquiet := e.due_or_quiet t
  · have hkept := (step_settle hfeeds hinterval).2
    rw [leftUntil_of_due hnext hbefore, leftUntil_of_due hnext (Nat.lt_of_lt_of_le hbefore h)]
    exact ih (t - next) (hn ▸ Nat.sub_lt_sub_left hlt hlater) hfeeds.settle
      (hkept.symm ▸ hinterval) rfl
  rw [leftUntil_of_quiet hlt hquiet]
  by_cases hend : t = limit
  · subst hend
    rw [leftUntil_of_le (Nat.le_refl t), leftUntil_of_quiet hlt hquiet]
  have hlimit : t < limit := Nat.lt_of_le_of_ne h hend
  by_cases hthen : e.settle.nextDue? = some t
  · rw [leftUntil_of_due hthen hlimit]
  -- between the two instants nothing can happen, so the engine is still settled at the later one
  have hlater : ∀ next, e.settle.nextDue? = some next → t < next := by
    intro next hnext
    refine Nat.lt_of_le_of_ne (hquiet next hnext) ?_
    rintro rfl
    exact hthen hnext
  have hsame := settle_of_lt_nextDue? hfeeds hinterval hlater
  have hnext : ({ e.settle with now := t } : Engine φ).settle.nextDue? = e.settle.nextDue? := by
    rw [hsame]
    exact nextDue?_of_lt (now_settle e ▸ Nat.le_of_lt hlt) hlater
  obtain ⟨next, hfirst, -, hbefore⟩ | hquiet := e.due_or_quiet limit
  · rw [leftUntil_of_due hfirst hbefore, leftUntil_of_due (hnext.trans hfirst) hbefore, hsame]
  · rw [leftUntil_of_quiet (Nat.lt_trans hlt hlimit) hquiet, leftUntil_of_quiet hlimit
      (fun next hfirst => hquiet next (hnext.symm.trans hfirst)), hsame]

/-- The clock may as well go on instant by instant. -/
theorem leftUntil_succ (hfeeds : e.OwnFeeds) (hinterval : 0 < e.interval.nanos) (h : e.now ≤ t) :
    e.leftUntil (t + 1) = { (e.leftUntil t).settle with now := t + 1 } := by
  have hnow := now_leftUntil h
  rw [← leftUntil_leftUntil hfeeds hinterval (Nat.le_succ t)]
  refine leftUntil_of_quiet (Nat.lt_succ_of_le (Nat.le_of_eq hnow)) fun next hnext => ?_
  have hlater := lt_of_nextDue? hnext
  rwa [now_settle, hnow] at hlater

theorem isReady_leftUntil_of_le (hfeeds : e.OwnFeeds) (hinterval : 0 < e.interval.nanos)
    (h : t ≤ limit) (hready : (e.leftUntil t).isReady = true) :
    (e.leftUntil limit).isReady = true := by
  rw [← leftUntil_leftUntil hfeeds hinterval h]
  exact (continues_leftUntil (e.leftUntil t) limit).1.ready hready

/-- Once an engine is ready it stays so: it is ready exactly at the instants after the first. -/
theorem ReadyFirstAfter.isReady_leftUntil_iff (hfeeds : e.OwnFeeds)
    (hinterval : 0 < e.interval.nanos) {first : Nat} (h : e.ReadyFirstAfter first)
    (hidle : e.isReady = false) (n : Nat) :
    (e.leftUntil (e.now + n)).isReady = true ↔ first < n := by
  have hsucc (n : Nat) : (e.leftUntil (e.now + (n + 1))).isReady =
      (e.leftUntil (e.now + n)).settle.isReady := by
    rw [← Nat.add_assoc, leftUntil_succ hfeeds hinterval (Nat.le_add_right ..)]
    rfl
  cases n with
  | zero => simp [leftUntil_of_le, hidle]
  | succ n =>
    rw [Nat.lt_succ_iff]
    constructor
    · intro hready
      by_contra hnot
      rw [hsucc, h.before n (Nat.lt_of_not_le hnot)] at hready
      cases hready
    · intro hle
      refine isReady_leftUntil_of_le hfeeds hinterval
        (Nat.add_le_add_left (Nat.succ_le_succ hle) e.now) ?_
      rw [hsucc]
      exact h.ready

/-- An engine is ready when what is due next comes, if that makes it ready. -/
theorem readyFirstAfter_of_nextDue? {next : Instant} (hfeeds : e.OwnFeeds)
    (hinterval : 0 < e.interval.nanos) (hnext : e.settle.nextDue? = some next)
    (hidle : e.settle.isReady = false)
    (hready : ({ e.settle with now := next } : Engine φ).settle.isReady = true) :
    e.ReadyFirstAfter (next - e.now) := by
  have hlater : e.now < next := now_settle e ▸ lt_of_nextDue? hnext
  have hfirst {t : Instant} (ht : t < next) : ∀ d, e.settle.nextDue? = some d → t < d := by
    intro d hd
    exact Option.some.inj (hnext.symm.trans hd) ▸ ht
  refine ⟨?_, fun n hn => ?_⟩
  · rw [Nat.add_sub_cancel' (Nat.le_of_lt hlater), leftUntil_of_quiet hlater]
    · exact hready
    · intro d hd
      exact Nat.le_of_eq (Option.some.inj (hnext.symm.trans hd))
  · cases n with
    | zero =>
      rwa [Nat.add_zero, leftUntil_of_le (Nat.le_refl e.now)]
    | succ n =>
      have hbefore : e.now + (n + 1) < next := Nat.add_lt_of_lt_sub' hn
      rw [leftUntil_of_quiet (Nat.lt_add_of_pos_right (Nat.succ_pos n))
        fun d hd => Nat.le_of_lt (hfirst hbefore d hd),
        settle_of_lt_nextDue? hfeeds hinterval (hfirst hbefore)]
      exact hidle

end

end Engine

end ExchangeRates

import ExchangeRates.Proofs.Engine.Settling

namespace ExchangeRates.Engine

variable {φ : Type}

/-- No time passes beyond the end of the pause of a task that has not been ended. -/
def Moment.OnTime (m : Moment φ) : Prop :=
  ∀ nanos ∈ m.action.wait?, ∀ task ∈ m.engine.tasks, task.aborted = false →
    ∀ t ∈ task.phase.pause?, m.engine.now + nanos ≤ t

instance (m : Moment φ) : Decidable m.OnTime :=
  inferInstanceAs (Decidable (∀ nanos ∈ m.action.wait?, ∀ task ∈ m.engine.tasks,
    task.aborted = false → ∀ t ∈ task.phase.pause?, m.engine.now + nanos ≤ t))

theorem onTime_wait_iff {e : Engine φ} {nanos : Nat} : (⟨e, .wait nanos⟩ : Moment φ).OnTime ↔
    ∀ i t, e.phase? i = some (.sleeping t) → e.now + nanos ≤ t := by
  constructor
  · intro h i t hphase
    obtain ⟨task, htask, halive, hsleeping⟩ := phase?_eq_some_iff.mp hphase
    refine h nanos rfl task (List.mem_of_getElem? htask) halive t ?_
    rw [hsleeping]
    rfl
  · intro h n hn task htask halive t ht
    obtain rfl := Option.some.inj hn
    obtain ⟨i, hi⟩ := List.mem_iff_getElem?.mp htask
    refine h i t (phase?_eq_some_iff.mpr ⟨task, hi, halive, ?_⟩)
    cases hphase : task.phase with
    | sleeping wakesAt =>
      rw [hphase] at ht
      exact congrArg _ (Option.some.inj ht)
    | _ => simp [hphase, Phase.pause?] at ht

theorem onTime_of_wait? {m : Moment φ} (h : m.action.wait? = none) : m.OnTime := by
  intro nanos hnanos
  cases h.symm.trans hnanos

/-- No task that has not been ended is late: its pause ends now, or later. -/
def Punctual (e : Engine φ) : Prop := ∀ i t, e.phase? i = some (.sleeping t) → e.now ≤ t

theorem punctual_of_tasks {e : Engine φ} (h : e.tasks = []) : e.Punctual := by
  intro i t hphase
  simp [phase?, h] at hphase

variable [PriceFeed φ] {first e later : Engine φ} {trace : Trace φ} {a : Action φ} {i : Nat}
  {t : Instant}

theorem Punctual.act (h : e.Punctual) (hm : (⟨e, a⟩ : Moment φ).OnTime)
    (hact : e.act a = some later) : later.Punctual := by
  intro i t ht
  have hnow := (now_waiters_act hact).1
  obtain ⟨-, -, hspawned⟩ | ⟨-, hsame⟩ | ⟨rfl, phase, -, hstep⟩ := phase?_act hact ht
  · cases hspawned
  · rw [hnow]
    cases a with
    | wait nanos => exact onTime_wait_iff.mp hm i t hsame
    | _ => exact h i t hsame
  · rw [hnow]
    cases hstep with
    | goOn _ hnext _ _ _ => cases hnext
    | finish _ _ => exact Nat.le_add_right ..

/-- In an execution that is on time no task is ever late. -/
theorem Punctual.of_execution (hfirst : first.Punctual) (h : Execution first trace e)
    (htime : ∀ m ∈ trace, m.OnTime) : e.Punctual := by
  induction h with
  | nil => exact hfirst
  | act _ hact ih =>
    obtain ⟨hm, hrest⟩ := List.forall_mem_cons.mp htime
    exact (ih hrest).act hm hact

theorem onTime_of_step (h : e.step = some later) :
    ∃ a, e.act a = some later ∧ (⟨e, a⟩ : Moment φ).OnTime := by
  obtain ⟨a, hact, hkind⟩ := exists_act_of_step h
  refine ⟨a, hact, onTime_of_wait? ?_⟩
  obtain rfl | ⟨_, rfl⟩ | ⟨_, rfl⟩ := hkind <;> rfl

theorem exists_onTime_stepMany (count : Nat) (e : Engine φ) :
    ∃ next, Execution e next (e.stepMany count) ∧ ∀ m ∈ next, m.OnTime := by
  induction count generalizing e with
  | zero => exact ⟨[], .nil, by simp⟩
  | succ count ih =>
    unfold stepMany
    split
    · next later hstep =>
      obtain ⟨a, hact, hm⟩ := onTime_of_step hstep
      obtain ⟨next, hnext, htime⟩ := ih later
      exact ⟨next ++ [⟨e, a⟩], (Execution.nil.act hact).append hnext,
        List.forall_mem_append.mpr ⟨htime, List.forall_mem_singleton.mpr hm⟩⟩
    · exact ⟨[], .nil, by simp⟩

/-- Something is due at an instant, be it earlier or later: the work of a feed, or what a task waits
for. -/
def IsDue (e : Engine φ) (t : Instant) : Prop :=
  (∃ feed ∈ e.feeds, PriceFeed.wakesAt feed = some t) ∨
    ∃ task ∈ e.tasks, task.dueAt? = some t

theorem exists_nextDue?_le (hdue : e.IsDue t) (hlater : e.now < t) :
    ∃ next, e.nextDue? = some next ∧ next ≤ t := by
  suffices ∃ d ∈ (nextWake? e.now e.feeds).toList ++
      (e.tasks.filterMap PollTask.dueAt?).filter (e.now < ·), d ≤ t by
    obtain ⟨d, hmem, hle⟩ := this
    obtain ⟨next, hnext⟩ := Option.ne_none_iff_exists'.mp fun hnone =>
      List.ne_nil_of_mem hmem (List.min?_eq_none_iff.mp hnone)
    exact ⟨next, hnext, Nat.le_trans ((List.min?_eq_some_iff.mp hnext).2 d hmem) hle⟩
  obtain ⟨feed, hfeed, hwakes⟩ | ⟨task, htask, hwaits⟩ := hdue
  · obtain ⟨d, hd, hle⟩ := exists_nextWake?_le hfeed hwakes hlater
    exact ⟨d, List.mem_append_left _ (Option.mem_toList.mpr hd), hle⟩
  · refine ⟨t, List.mem_append_right _ (List.mem_filter.mpr ⟨?_, by simpa using hlater⟩), le_rfl⟩
    exact List.mem_filterMap.mpr ⟨task, htask, hwaits⟩

theorem isDue_of_nextDue? {next : Instant} (h : e.nextDue? = some next) :
    e.IsDue next ∧ e.now < next := by
  rcases List.mem_append.mp (List.min?_mem h) with hwake | hdue
  · obtain ⟨hwakes, hlater⟩ := exists_wakesAt_of_nextWake? (Option.mem_toList.mp hwake)
    exact ⟨.inl hwakes, hlater⟩
  · obtain ⟨hmem, hlater⟩ := List.mem_filter.mp hdue
    obtain ⟨task, htask, hwaits⟩ := List.mem_filterMap.mp hmem
    exact ⟨.inr ⟨task, htask, hwaits⟩, by simpa using hlater⟩

theorem lt_of_nextDue? {next : Instant} (h : e.nextDue? = some next) : e.now < next :=
  (isDue_of_nextDue? h).2

/-- The end of the pause of a task is due. -/
theorem isDue_of_sleeping (hphase : e.phase? i = some (.sleeping t)) : e.IsDue t := by
  obtain ⟨task, htask, halive, hsleeping⟩ := phase?_eq_some_iff.mp hphase
  exact .inr ⟨task, List.mem_of_getElem? htask, by simp [PollTask.dueAt?, halive, hsleeping]⟩

theorem exists_onTime_wait (h : Execution first trace e) (htime : ∀ m ∈ trace, m.OnTime)
    (hnow : e.now ≤ t) (hpause : ∀ i wakesAt, e.phase? i = some (.sleeping wakesAt) → t ≤ wakesAt) :
    ∃ next, Execution first next { e with now := t } ∧ ∀ m ∈ next, m.OnTime := by
  refine ⟨⟨e, .wait (t - e.now)⟩ :: trace, h.act ?_, List.forall_mem_cons.mpr ⟨?_, htime⟩⟩
  · simp only [Engine.act, Nat.add_sub_cancel' hnow]
  · rw [onTime_wait_iff, Nat.add_sub_cancel' hnow]
    exact hpause

variable [PacedFeed φ]

/-- An engine that settles is on time, and every pause then ends later. -/
theorem exists_onTime_settle (hfeeds : e.OwnFeeds) (hinterval : 0 < e.interval.nanos) :
    ∃ next, Execution e next e.settle ∧ (∀ m ∈ next, m.OnTime) ∧
      ∀ i t, e.settle.phase? i = some (.sleeping t) → e.settle.now < t := by
  obtain ⟨next, hnext, htime⟩ := exists_onTime_stepMany e.work e
  refine ⟨next, hnext, htime, ?_⟩
  intro i t hphase
  have hnone := (steps_of_step_eq_none (step_settle hfeeds hinterval).1 i).1
  obtain ⟨task, htask, halive, hsleeping⟩ := phase?_eq_some_iff.mp hphase
  simp only [stepTask, htask, halive, hsleeping, Bool.false_eq_true, if_false, ite_eq_right_iff,
    reduceCtorEq, imp_false] at hnone
  exact Nat.lt_of_not_le hnone

/-- While an engine waits the clock is in time, if there is a pause between two cycles. -/
theorem exists_onTime_runUntil (limit : Instant) (done : Engine φ → Bool) (e : Engine φ)
    (hfeeds : e.OwnFeeds) (hinterval : 0 < e.interval.nanos) :
    ∃ next, Execution e next (e.runUntil limit done) ∧ ∀ m ∈ next, m.OnTime := by
  fun_induction runUntil limit done e with
  | case1 e hlimit settled hdone =>
    obtain ⟨trace, hsettle, htime, -⟩ := exists_onTime_settle hfeeds hinterval
    exact ⟨trace, hsettle, htime⟩
  | case2 e hlimit settled hdone next hnext hlater ih =>
    obtain ⟨trace, hsettle, htime, hpause⟩ := exists_onTime_settle hfeeds hinterval
    have hnow : settled.now ≤ next := Nat.le_of_lt (lt_of_nextDue? hnext)
    obtain ⟨waited, hwait, htime⟩ := exists_onTime_wait hsettle htime hnow fun i t hphase => by
      obtain ⟨due, hdue, hle⟩ := exists_nextDue?_le (isDue_of_sleeping hphase) (hpause i t hphase)
      exact Option.some.inj (hnext.symm.trans hdue) ▸ hle
    have hkept := (step_settle hfeeds hinterval).2
    obtain ⟨rest, hrest, hontime⟩ := ih (hfeeds.of_execution hwait) (hkept.symm ▸ hinterval)
    exact ⟨rest ++ waited, hwait.append hrest, List.forall_mem_append.mpr ⟨hontime, htime⟩⟩
  | case3 e hlimit settled hdone next hnext hlater =>
    obtain ⟨trace, hsettle, htime, hpause⟩ := exists_onTime_settle hfeeds hinterval
    have hnow : settled.now = e.now := (reaches_stepMany e.work e).2
    have hnext_le : limit ≤ next :=
      Nat.le_of_not_lt fun hlt => hlater ⟨hnow ▸ lt_of_nextDue? hnext, hlt⟩
    refine exists_onTime_wait hsettle htime (hnow ▸ Nat.le_of_lt hlimit) fun i t hphase => ?_
    obtain ⟨due, hdue, hle⟩ := exists_nextDue?_le (isDue_of_sleeping hphase) (hpause i t hphase)
    obtain rfl := Option.some.inj (hnext.symm.trans hdue)
    exact Nat.le_trans hnext_le hle
  | case4 e hlimit settled hdone hnext =>
    obtain ⟨trace, hsettle, htime, hpause⟩ := exists_onTime_settle hfeeds hinterval
    have hnow : settled.now = e.now := (reaches_stepMany e.work e).2
    refine exists_onTime_wait hsettle htime (hnow ▸ Nat.le_of_lt hlimit) fun i t hphase => ?_
    obtain ⟨due, hdue, -⟩ := exists_nextDue?_le (isDue_of_sleeping hphase) (hpause i t hphase)
    cases hnext.symm.trans hdue
  | case5 e hlimit => exact ⟨[], .nil, by simp⟩

end ExchangeRates.Engine

import ExchangeRates.Proofs.Engine.BookHistory
import ExchangeRates.Proofs.Gate

namespace ExchangeRates.Engine

variable {φ : Type}

/-- The task of the current run is the latest, and all others have been ended. -/
def OneRun (e : Engine φ) : Prop :=
  ∃ n, (e.started = false ∧ e.task = none ∧
      e.tasks.map PollTask.aborted = List.replicate n true) ∨
    (e.started = true ∧ e.task = some n ∧
      e.tasks.map PollTask.aborted = List.replicate n true ++ [false])

section

variable {e : Engine φ} {i : Nat} {task : PollTask}

theorem OneRun.alive_iff (h : e.OneRun) (htask : e.tasks[i]? = some task) :
    task.aborted = false ↔ e.task = some i := by
  have haborted : (e.tasks.map PollTask.aborted)[i]? = some task.aborted := by simp [htask]
  obtain ⟨n, ⟨-, hcurrent, hall⟩ | ⟨-, hcurrent, hall⟩⟩ := h
  · rw [hall] at haborted
    have htrue := List.eq_of_mem_replicate (List.mem_of_getElem? haborted)
    simp [hcurrent, htrue]
  · rw [hall] at haborted
    rw [hcurrent, Option.some.injEq]
    rcases Nat.lt_trichotomy i n with hi | rfl | hi
    · rw [List.getElem?_append_left (by simpa using hi)] at haborted
      have htrue := List.eq_of_mem_replicate (List.mem_of_getElem? haborted)
      simp [htrue, Nat.ne_of_gt hi]
    · rw [List.getElem?_append_right (by simp)] at haborted
      simpa using haborted.symm
    · rw [List.getElem?_eq_none (by simp; omega)] at haborted
      simp at haborted

theorem OneRun.started_iff (h : e.OneRun) : e.started = true ↔ ∃ i, e.task = some i := by
  obtain ⟨n, ⟨hstarted, hcurrent, -⟩ | ⟨hstarted, hcurrent, -⟩⟩ := h <;>
    simp [hstarted, hcurrent]

theorem OneRun.countP_alive (h : e.OneRun) :
    (e.tasks.countP fun task => !task.aborted) = if e.started then 1 else 0 := by
  have hcount : (e.tasks.countP fun task => !task.aborted) =
      (e.tasks.map PollTask.aborted).countP (!·) := by
    rw [List.countP_map]
    rfl
  rw [hcount]
  obtain ⟨n, ⟨hstarted, -, hall⟩ | ⟨hstarted, -, hall⟩⟩ := h <;> rw [hall] <;>
    simp [hstarted, List.countP_replicate]

theorem OneRun.aborted_endedTasks (h : e.OneRun) :
    e.endedTasks.map PollTask.aborted = List.replicate e.tasks.length true := by
  rw [List.eq_replicate_iff]
  refine ⟨by rw [List.length_map, length_endedTasks], ?_⟩
  intro aborted haborted
  obtain ⟨ended, hended, rfl⟩ := List.mem_map.mp haborted
  obtain ⟨i, hi⟩ := List.mem_iff_getElem?.mp hended
  rw [getElem?_endedTasks] at hi
  obtain ⟨task, htask, rfl⟩ := Option.map_eq_some_iff.mp hi
  split
  · rfl
  · next hother =>
    have hended : ¬ task.aborted = false := fun halive => hother ((h.alive_iff htask).mp halive)
    simpa using hended

end

theorem oneRun_new {settings : Settings} {origin : ConfigOrigin} {feeds : List φ}
    {registered : List FeedId} {environment : Environment} {runtime : Bool} :
    (new settings origin feeds registered environment runtime).OneRun := by
  unfold new reconfigure
  split <;> exact ⟨0, .inl ⟨rfl, rfl, rfl⟩⟩

/-- What cycles write, apart from the merged rates, is the same in both engines. -/
structure SameRecords (e later : Engine φ) : Prop where
  snapshots : later.book.snapshots = e.book.snapshots
  notifiers : later.notifiers = e.notifiers
  gate : later.latches.gate = e.latches.gate
  miss : later.latches.miss = e.latches.miss

theorem SameRecords.trans {e middle later : Engine φ} (h : e.SameRecords middle)
    (hnext : middle.SameRecords later) : e.SameRecords later where
  snapshots := hnext.snapshots.trans h.snapshots
  notifiers := hnext.notifiers.trans h.notifiers
  gate := hnext.gate.trans h.gate
  miss := hnext.miss.trans h.miss

variable [PriceFeed φ] {e later : Engine φ} {a : Action φ} {i : Nat} {trace : Trace φ}

/-- A task can take a step, now or when time has passed. -/
def Live (e : Engine φ) (i : Nat) : Prop :=
  ∃ t, e.now ≤ t ∧ (({ e with now := t } : Engine φ).stepTask i).isSome = true

theorem OneRun.act (h : e.OneRun) (hact : e.act a = some later) : later.OneRun := by
  cases effect_of_act hact with
  | quiet _ _ _ => exact h
  | resolve _ => exact h
  | startRun _ =>
    refine ⟨e.tasks.length, .inr ⟨rfl, rfl, ?_⟩⟩
    rw [List.map_append, h.aborted_endedTasks]
    rfl
  | stop => exact ⟨e.tasks.length, .inl ⟨rfl, rfl, h.aborted_endedTasks⟩⟩
  | changeFeed => exact h
  | stepFeeds => exact h
  | @stepTask i _ _ _ _ hstep =>
    obtain ⟨_, _, _, _, _, phase, rfl⟩ := hstep.frame
    have haborted : (e.tasks.modify i fun t => { t with phase }).map PollTask.aborted =
        e.tasks.map PollTask.aborted := map_modify_eq (by simp) _ _
    unfold OneRun
    rw [haborted]
    exact h

theorem oneRun_of_execution (hfirst : e.OneRun) (h : Execution e trace later) : later.OneRun :=
  h.invariant hfirst OneRun.act

/-- A task that has not been ended goes on, however its cycles end. -/
theorem live_of_alive (hrecorded : Recorded trace e) {task : PollTask}
    (htask : e.tasks[i]? = some task) (halive : task.aborted = false) : e.Live i := by
  have hrecords := hrecorded i task htask
  cases hphase : task.phase with
  | spawned =>
    refine ⟨e.now, Nat.le_refl _, ?_⟩
    simp [stepTask, htask, halive, hphase]
  | sleeping t =>
    refine ⟨max e.now t, Nat.le_max_left .., ?_⟩
    have hdue : t ≤ max e.now t := Nat.le_max_right ..
    simp [stepTask, htask, halive, hphase, hdue]
  | atGate cycle gate =>
    -- at the latest the turn of the first feed ends, and without a feed the cycle goes on
    refine ⟨max e.now gate.deadline, Nat.le_max_left .., ?_⟩
    simp only [stepTask, htask, halive, hphase, stepGate]
    cases hstep : gate.step e.feeds (max e.now gate.deadline) e.settings.gateTimeout
      e.latches.gate with
    | some next => simp
    | none => simp [Gate.waiting_eq_nil_of_step (Nat.le_max_right ..) hstep]
  | fetching cycle requests =>
    -- the feeds that were asked are still there, so each answers when it is due
    rw [hphase] at hrecords
    obtain ⟨-, hfeeds, -⟩ := hrecords
    have hfeed : ∀ request ∈ requests, request.feed < e.feeds.length := by
      intro request hrequest
      have hmem : request.feed ∈ cycle.feeds.filter (· < e.feeds.length) := by
        rw [← hfeeds]
        exact List.mem_map_of_mem hrequest
      simpa using (List.mem_filter.mp hmem).2
    obtain ⟨t, hnow, hdue⟩ := Fetch.exists_dueAt_le e.now requests
    refine ⟨t, hnow, ?_⟩
    simp only [stepTask, htask, halive, hphase, stepFetching]
    cases hstep : Fetch.step e.feeds t requests with
    | some next =>
      obtain ⟨feeds, result⟩ := next
      cases result <;> simp
    | none =>
      obtain ⟨answers, hanswers⟩ := Fetch.exists_answers?_of_step_eq_none hdue hfeed hstep
      simp [hanswers]

theorem OneRun.live_iff (h : e.OneRun) (hrecorded : Recorded trace e) :
    e.Live i ↔ e.task = some i := by
  constructor
  · rintro ⟨t, -, hstep⟩
    obtain ⟨later, hlater⟩ := Option.isSome_iff_exists.mp hstep
    obtain ⟨task, htask, halive, -⟩ := taskStep_of_stepTask hlater
    exact (h.alive_iff htask).mp halive
  · intro hcurrent
    obtain ⟨n, ⟨-, hnone, -⟩ | ⟨-, hsome, hall⟩⟩ := h
    · simp [hnone] at hcurrent
    · obtain rfl := Option.some.inj (hsome.symm.trans hcurrent)
      have hlast : (e.tasks.map PollTask.aborted)[n]? = some false := by simp [hall]
      rw [List.getElem?_map] at hlast
      obtain ⟨task, htask, halive⟩ := Option.map_eq_some_iff.mp hlast
      exact live_of_alive hrecorded htask halive

/-- An engine that is not started lets no task take a step. -/
theorem OneRun.act_of_idle (h : e.OneRun) (hidle : e.started = false)
    (hstarts : e.startsRun a = false) (hact : e.act a = some later) :
    a.isStepTask = false ∧ later.started = false ∧ e.SameRecords later ∧
      (e.resolves? a = none → later.book = e.book) := by
  cases effect_of_act hact with
  | quiet _ _ htask => exact ⟨htask, hidle, ⟨rfl, rfl, rfl, rfl⟩, fun _ => rfl⟩
  | resolve hresolves =>
    exact ⟨isStepTask_of_resolves hresolves, hidle, ⟨rfl, rfl, rfl, rfl⟩,
      fun hnone => by simp [hnone] at hresolves⟩
  | startRun hstart => simp [hstart] at hstarts
  | stop => exact ⟨rfl, rfl, ⟨rfl, rfl, rfl, rfl⟩, fun _ => rfl⟩
  | changeFeed => exact ⟨rfl, hidle, ⟨rfl, rfl, rfl, rfl⟩, fun _ => rfl⟩
  | stepFeeds => exact ⟨rfl, hidle, ⟨rfl, rfl, rfl, rfl⟩, fun _ => rfl⟩
  | stepTask htask halive _ =>
    have hstarted := h.started_iff.mpr ⟨_, (h.alive_iff htask).mp halive⟩
    simp [hidle] at hstarted

theorem OneRun.execution_of_idle (h : e.OneRun) (hidle : e.started = false)
    (hexecution : Execution e trace later)
    (hstarts : ∀ m ∈ trace, m.engine.startsRun m.action = false) :
    later.started = false ∧ (∀ m ∈ trace, m.action.isStepTask = false) ∧ e.SameRecords later ∧
      ((∀ m ∈ trace, m.engine.resolves? m.action = none) → later.book = e.book) := by
  induction hexecution with
  | nil => exact ⟨hidle, by simp, ⟨rfl, rfl, rfl, rfl⟩, fun _ => rfl⟩
  | @act trace middle later a hbefore hact ih =>
    simp only [List.mem_cons, forall_eq_or_imp] at hstarts ⊢
    obtain ⟨hstart, hrest⟩ := hstarts
    obtain ⟨hmiddle, hnone, hsame, hbook⟩ := ih hrest
    obtain ⟨htask, hlater, hnext, hkept⟩ :=
      (oneRun_of_execution h hbefore).act_of_idle hmiddle hstart hact
    refine ⟨hlater, ⟨htask, hnone⟩, hsame.trans hnext, ?_⟩
    rintro ⟨hresolves, hothers⟩
    exact (hkept hresolves).trans (hbook hothers)

/-- An engine has one task that goes on while it is started, and none while it is not. Between a
stop and the next start that succeeds no task takes a step, and what cycles write stays as it is,
but for the resets of the merged rates. -/
theorem single_run {settings : Settings} {origin : ConfigOrigin} {feeds : List φ}
    {registered : List FeedId} {environment : Environment} {runtime : Bool}
    (h : Execution (new settings origin feeds registered environment runtime) trace e) :
    (e.tasks.countP fun task => !task.aborted) = (if e.started then 1 else 0) ∧
    (∀ i, e.Live i ↔ e.task = some i) ∧ (e.started = true ↔ ∃ i, e.task = some i) ∧
    ∀ after s before, trace = after ++ ⟨s, .stop⟩ :: before →
      (∀ m ∈ after, m.engine.startsRun m.action = false) →
      e.started = false ∧ (∀ m ∈ after, m.action.isStepTask = false) ∧ s.SameRecords e ∧
        ((∀ m ∈ after, m.engine.resolves? m.action = none) → e.book = s.book) := by
  have hrun := oneRun_of_execution oneRun_new h
  refine ⟨hrun.countP_alive, fun i => hrun.live_iff (recorded_of_execution tasks_new h),
    hrun.started_iff, ?_⟩
  intro after s before htrace hstarts
  subst htrace
  -- what follows the stop is an execution of its own, of an engine that is not started
  obtain ⟨hbefore, next, hstop, hafter⟩ := h.split
  have hs := oneRun_of_execution oneRun_new hbefore
  obtain rfl : s.stop = next := Option.some.inj hstop
  have hsame : s.SameRecords s.stop ∧ s.stop.book = s.book ∧ s.stop.started = false := by
    rw [stop_eq]
    exact ⟨⟨rfl, rfl, rfl, rfl⟩, rfl, rfl⟩
  obtain ⟨hstop, hbook, hidle⟩ := hsame
  obtain ⟨hlater, hnone, hkept, hresets⟩ :=
    (hs.act (a := .stop) rfl).execution_of_idle hidle hafter hstarts
  exact ⟨hlater, hnone, hstop.trans hkept, fun hresolves => (hresets hresolves).trans hbook⟩

/-- An engine that is started twice, and stopped while a cycle waits for its feed. -/
def stoppedInFlight : List (Action ScriptedFeed) :=
  [.start, .start, .stepTask 1, .stepTask 1, .stepTask 1]

/-- A stop in the middle of a fetch leaves no task that goes on, and what follows writes nothing. -/
theorem single_run_of_stoppedInFlight :
    ∃ s before after e, Execution bitcoinEngine (after ++ ⟨s, .stop⟩ :: before) e ∧
      s.started = true ∧ (∀ m ∈ after, m.engine.startsRun m.action = false) ∧
      after.length = 2 ∧ (e.tasks.countP fun task => !task.aborted) = 0 ∧ (∀ i, ¬ e.Live i) ∧
      s.SameRecords e ∧ e.book = s.book := by
  obtain ⟨⟨before, s⟩, hperformed, hs⟩ : ∃ run, bitcoinEngine.perform stoppedInFlight = some run ∧
      run.2.started = true := ⟨_, rfl, rfl⟩
  let after : Trace ScriptedFeed :=
    [⟨s.stop.setInterval .zero, .wait 10⟩, ⟨s.stop, .setInterval .zero⟩]
  have hstop := (execution_of_perform hperformed).act (a := .stop) rfl
  have h := (hstop.act (a := .setInterval .zero) rfl).act (a := .wait 10) rfl
  obtain ⟨hcount, hlive, hstarted, hidle⟩ := single_run h
  have hstarts : ∀ m ∈ after, m.engine.startsRun m.action = false := by simp [after, startsRun]
  obtain ⟨hnot, -, hsame, hbook⟩ := hidle after s before rfl hstarts
  rw [hnot] at hcount hstarted
  refine ⟨s, before, after, _, h, hs, hstarts, rfl, hcount, ?_, hsame, ?_⟩
  · intro i hi
    exact absurd (hstarted.mpr ⟨i, (hlive i).mp hi⟩) (by decide)
  · exact hbook (by simp [after, resolves?])

end ExchangeRates.Engine

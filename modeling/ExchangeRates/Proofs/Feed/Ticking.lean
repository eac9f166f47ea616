import ExchangeRates.Feed.Walking
import Mathlib.Data.List.Basic

namespace ExchangeRates

/-- Ticks never break down: the prices stay as they are, or move by changes that can be drawn. -/
def WalkProfile.NeverBreaks (p : WalkProfile) : Prop :=
  p.volatility ≤ 0.0 ∨ Walk.isDrawable p.volatility = true

namespace WalkingFeed

variable {f : WalkingFeed} {now t : Instant} {i : Nat}

theorem period_pos (f : WalkingFeed) : 0 < f.period.nanos :=
  Nat.mul_pos (Nat.lt_of_lt_of_le Nat.one_pos (Nat.le_max_right ..)) (by decide)

/-- A walk changes nothing but the prices, and takes draws. -/
theorem walk_frame (f : WalkingFeed) :
    f.walk = { f with prices := f.walk.prices, drawn := f.walk.drawn } := by
  unfold walk
  split <;> rfl

/-- The feed when a tick has been counted. -/
def counted (f : WalkingFeed) : WalkingFeed := { f.walk with ticks := f.ticks + 1, ready := true }

/-- A tick breaks its task down, or it is counted and makes the feed ready. -/
theorem tick_cases (now : Instant) (i : Nat) (f : WalkingFeed) :
    (¬ f.profile.NeverBreaks ∧ (f.tick now i).1 = f.setNextTick i none) ∨
    (f.tick now i).1 = f.counted.setNextTick i (some (now + f.period.nanos)) := by
  unfold tick
  split
  · next hbroken =>
    rw [Bool.and_eq_true, Bool.not_eq_true', isMoving, Bool.and_eq_true, Bool.not_eq_true',
      decide_eq_false_iff_not] at hbroken
    obtain ⟨⟨hmoves, -⟩, hdraws⟩ := hbroken
    refine .inl ⟨?_, rfl⟩
    rintro (hstill | hdrawable)
    · exact hmoves hstill
    · cases hdraws.symm.trans hdrawable
  · exact .inr rfl

theorem tick_of_neverBreaks (h : f.profile.NeverBreaks) (now : Instant) (i : Nat) :
    (f.tick now i).1 = f.counted.setNextTick i (some (now + f.period.nanos)) :=
  (tick_cases now i f).resolve_left fun hbroken => hbroken.1 h

theorem ticks_tick (h : f.profile.NeverBreaks) (now : Instant) (i : Nat) :
    (f.tick now i).1.ticks = f.ticks + 1 := by
  rw [tick_of_neverBreaks h]
  rfl

theorem counted_frame (f : WalkingFeed) :
    f.counted = { f with
      prices := f.walk.prices
      drawn := f.walk.drawn
      ticks := f.ticks + 1
      ready := true } := by
  rw [counted, walk_frame]

/-- A tick of a task leaves the other tasks as they are. -/
theorem tick_frame (now : Instant) (i : Nat) (f : WalkingFeed) :
    ∃ prices drawn ticks ready nextTick, (f.tick now i).1 =
      { f with
        prices, drawn, ticks, ready
        tasks := f.tasks.modify i fun task => { task with nextTick } } ∧
      ∀ t ∈ nextTick, now < t := by
  obtain ⟨-, heq⟩ | heq := tick_cases now i f
  · exact ⟨_, _, _, _, none, heq, by simp⟩
  · rw [heq, counted_frame]
    refine ⟨_, _, _, _, some (now + f.period.nanos), rfl, ?_⟩
    rintro t ⟨⟩
    exact Nat.lt_add_of_pos_right f.period_pos

theorem ticks_tick_le (now : Instant) (i : Nat) (f : WalkingFeed) :
    f.ticks ≤ (f.tick now i).1.ticks := by
  obtain ⟨-, heq⟩ | heq := tick_cases now i f
  · rw [heq]
    exact Nat.le_refl _
  · rw [heq]
    exact Nat.le_succ _

theorem ready_tick_of_ready (h : f.ready = true) (now : Instant) (i : Nat) :
    (f.tick now i).1.ready = true := by
  obtain ⟨-, heq⟩ | heq := tick_cases now i f
  · rw [heq]
    exact h
  · rw [heq]
    rfl

/-- The first tick makes the feed ready, and it stays so. -/
theorem ready_tick (h : f.ready = true ↔ 0 < f.ticks) (now : Instant) (i : Nat) :
    (f.tick now i).1.ready = true ↔ 0 < (f.tick now i).1.ticks := by
  obtain ⟨-, heq⟩ | heq := tick_cases now i f
  · rw [heq]
    exact h
  · rw [heq]
    exact iff_of_true rfl (Nat.succ_pos _)

/-- A task reports its tick only if it is the first of all. -/
theorem mem_events_tick {event : LogEvent} (h : event ∈ (f.tick now i).2) :
    event = .walkReady f.name := by
  unfold tick at h
  split at h
  · cases h
  · dsimp only at h
    split at h
    · exact List.mem_singleton.mp h
    · cases h

/-- What every tick that is due keeps is kept when all due tasks tick. -/
theorem wake_invariant {P : WalkingFeed → Prop}
    (htick : ∀ f i, P f → f.isDue now i = true → P (f.tick now i).1) (h : P f) :
    P (f.wake now).1 := by
  have hfold (ids : List Nat) (done : WalkingFeed × List LogEvent) (hdone : P done.1) :
      P (ids.foldl (tickIfDue now) done).1 := by
    induction ids generalizing done with
    | nil => exact hdone
    | cons i ids ih =>
      refine ih _ ?_
      unfold tickIfDue
      split
      · next hdue => exact htick done.1 i hdone hdue
      · exact hdone
  exact hfold _ _ h

theorem abortTask_frame (f : WalkingFeed) :
    ∃ tasks task, f.abortTask = { f with tasks, task } := by
  unfold abortTask
  split
  · exact ⟨_, _, rfl⟩
  · exact ⟨_, _, rfl⟩

/-- A start changes nothing but the tasks. -/
theorem start_frame (now : Instant) (f : WalkingFeed) :
    ∃ tasks task, f.start now = { f with started := true, tasks, task } := by
  obtain ⟨_, _, heq⟩ := f.abortTask_frame
  refine ⟨(f.start now).tasks, (f.start now).task, ?_⟩
  unfold start
  rw [heq]

/-- A stop changes nothing but the tasks. -/
theorem stop_frame (f : WalkingFeed) :
    ∃ tasks task, f.stop = { f with started := false, tasks, task } := by
  obtain ⟨_, _, heq⟩ := f.abortTask_frame
  refine ⟨f.stop.tasks, f.stop.task, ?_⟩
  unfold stop
  rw [heq]

theorem profile_start (now : Instant) (f : WalkingFeed) : (f.start now).profile = f.profile := by
  obtain ⟨_, _, heq⟩ := start_frame now f
  rw [heq]

theorem profile_stop (f : WalkingFeed) : f.stop.profile = f.profile := by
  obtain ⟨_, _, heq⟩ := f.stop_frame
  rw [heq]

theorem profile_tick (now : Instant) (i : Nat) (f : WalkingFeed) :
    (f.tick now i).1.profile = f.profile := by
  obtain ⟨_, _, _, _, _, heq, -⟩ := tick_frame now i f
  rw [heq]

theorem profile_wake (now : Instant) (f : WalkingFeed) :
    (f.wake now).1.profile = f.profile :=
  wake_invariant (P := fun g => g.profile = f.profile)
    (fun g i h _ => (profile_tick now i g).trans h) rfl

theorem started_wake (now : Instant) (f : WalkingFeed) :
    (f.wake now).1.started = f.started := by
  refine wake_invariant (P := fun g => g.started = f.started) (fun g i h _ => ?_) rfl
  obtain ⟨_, _, _, _, _, heq, -⟩ := tick_frame now i g
  rw [heq]
  exact h

theorem length_tasks_wake (now : Instant) (f : WalkingFeed) :
    (f.wake now).1.tasks.length = f.tasks.length := by
  refine wake_invariant (P := fun g => g.tasks.length = f.tasks.length) (fun g i h _ => ?_) rfl
  obtain ⟨_, _, _, _, _, heq, -⟩ := tick_frame now i g
  rw [heq, List.length_modify]
  exact h

/-- All that a feed reports when it wakes is that it has become ready. -/
theorem mem_events_foldl {event : LogEvent} {ids : List Nat} {done : WalkingFeed × List LogEvent}
    (h : event ∈ (ids.foldl (tickIfDue now) done).2) :
    event ∈ done.2 ∨ event = .walkReady done.1.name := by
  induction ids generalizing done with
  | nil => exact .inl h
  | cons i ids ih =>
    have hlater := ih h
    unfold tickIfDue at hlater
    split at hlater
    · dsimp only at hlater
      rw [List.mem_append, name, profile_tick] at hlater
      obtain (hearlier | htick) | hready := hlater
      · exact .inl hearlier
      · exact .inr (mem_events_tick htick)
      · exact .inr hready
    · exact hlater

theorem mem_events_wake {event : LogEvent} (h : event ∈ (f.wake now).2) :
    event = .walkReady f.name :=
  (mem_events_foldl h).resolve_left List.not_mem_nil

/-- A task that has had its chance to tick is due only later. -/
theorem lt_of_wakesAt_foldl (now : Instant) (f : WalkingFeed) {n : Nat} (hi : i < n)
    {task : TickTask}
    (htask : ((List.range n).foldl (tickIfDue now) (f, [])).1.tasks[i]? = some task)
    (hwakes : task.wakesAt = some t) : now < t := by
  induction n generalizing task with
  | zero => cases hi
  | succ n ih =>
    rw [List.range_succ, List.foldl_append, List.foldl_cons, List.foldl_nil] at htask
    generalize (List.range n).foldl (tickIfDue now) (f, []) = done at htask ih
    unfold tickIfDue at htask
    split at htask
    · obtain ⟨_, _, _, _, nextTick, heq, hlater⟩ := tick_frame now n done.1
      dsimp only at htask
      rw [heq] at htask
      dsimp only at htask
      rw [List.getElem?_modify] at htask
      obtain ⟨earlier, hearlier, rfl⟩ := Option.map_eq_some_iff.mp htask
      split at hwakes
      · rw [TickTask.wakesAt] at hwakes
        split at hwakes
        · cases hwakes
        · exact hlater t hwakes
      · next hother =>
        exact ih (Nat.lt_of_le_of_ne (Nat.le_of_lt_succ hi) (Ne.symm hother)) hearlier hwakes
    · next hnot =>
      obtain hbefore | rfl := Nat.lt_succ_iff_lt_or_eq.mp hi
      · exact ih hbefore htask hwakes
      · rw [isDue, htask, Option.bind_some, hwakes, Option.any_some, decide_eq_true_eq] at hnot
        exact Nat.lt_of_not_le hnot

/-- No task is due again at the instant at which it has ticked. -/
theorem lt_of_wakesAt_wake (h : (f.wake now).1.wakesAt = some t) : now < t := by
  obtain ⟨task, htask, hwakes⟩ := List.mem_filterMap.mp (List.min?_mem h)
  obtain ⟨i, hi⟩ := List.mem_iff_getElem?.mp htask
  have hlt : i < f.tasks.length := by
    rw [← length_tasks_wake now f]
    exact (List.getElem?_eq_some_iff.mp hi).1
  exact lt_of_wakesAt_foldl now f hlt hi hwakes

/-- No task goes on. -/
structure Idle (f : WalkingFeed) : Prop where
  started : f.started = false
  task : f.task = none
  aborted : ∀ task ∈ f.tasks, task.aborted = true

/-- The task of the latest start goes on and ticks next at an instant, unless it has broken down.
All other tasks have been ended. -/
structure Runs (f : WalkingFeed) (next : Option Instant) : Prop where
  started : f.started = true
  tasks : ∃ ended, f.tasks = ended ++ [⟨next, false⟩] ∧ f.task = some ended.length ∧
    ∀ task ∈ ended, task.aborted = true

/-- At most one task goes on. -/
def OneTask (f : WalkingFeed) : Prop := f.Idle ∨ ∃ next, f.Runs next

/-- How many tasks have not been ended. -/
def alive (f : WalkingFeed) : Nat := f.tasks.countP fun task => !task.aborted

theorem modify_last {α : Type} (l : List α) (x : α) (f : α → α) :
    (l ++ [x]).modify l.length f = l ++ [f x] := by
  rw [List.modify_eq_take_drop, List.take_left, List.drop_left]
  rfl

theorem wakesAt_of_aborted {task : TickTask} (h : task.aborted = true) : task.wakesAt = none := by
  rw [TickTask.wakesAt, if_pos h]

theorem idle_new (p : WalkProfile) (draws : Draws) : (new p draws).Idle :=
  ⟨rfl, rfl, List.forall_mem_nil _⟩

theorem Idle.wakesAt_eq (h : f.Idle) : f.wakesAt = none := by
  rw [wakesAt, List.min?_eq_none_iff, List.filterMap_eq_nil_iff]
  exact fun task htask => wakesAt_of_aborted (h.aborted task htask)

theorem Idle.isDue_eq (h : f.Idle) (now : Instant) (i : Nat) : f.isDue now i = false := by
  unfold isDue
  cases htask : f.tasks[i]? with
  | none => rfl
  | some task =>
    rw [Option.bind_some, wakesAt_of_aborted (h.aborted task (List.mem_of_getElem? htask))]
    rfl

section

variable {next : Option Instant}

/-- Only the task of the latest start is ever due. -/
theorem Runs.task_of_isDue (h : f.Runs next) (hdue : f.isDue now i = true) :
    f.task = some i ∧ ∃ t, next = some t ∧ t ≤ now := by
  obtain ⟨ended, htasks, htask, haborted⟩ := h.tasks
  rw [isDue, Option.any_eq_true] at hdue
  obtain ⟨t, hwakes, hle⟩ := hdue
  obtain ⟨task, hi, hwakes⟩ := Option.bind_eq_some_iff.mp hwakes
  rw [htasks] at hi
  obtain hlt | hge := Nat.lt_or_ge i ended.length
  · rw [List.getElem?_append_left hlt] at hi
    rw [wakesAt_of_aborted (haborted task (List.mem_of_getElem? hi))] at hwakes
    cases hwakes
  · rw [List.getElem?_append_right hge, List.getElem?_singleton] at hi
    split at hi
    · next hlast =>
      obtain rfl := Option.some.inj hi
      refine ⟨?_, t, hwakes, of_decide_eq_true hle⟩
      rw [htask, Nat.le_antisymm (Nat.le_of_sub_eq_zero hlast) hge]
    · cases hi

theorem Runs.wakesAt_eq (h : f.Runs next) : f.wakesAt = next := by
  obtain ⟨ended, htasks, -, haborted⟩ := h.tasks
  have hended : ended.filterMap TickTask.wakesAt = [] :=
    List.filterMap_eq_nil_iff.mpr fun task htask => wakesAt_of_aborted (haborted task htask)
  rw [wakesAt, htasks, List.filterMap_append, hended, List.nil_append]
  cases next <;> rfl

/-- Another tick of the task that goes on. -/
theorem Runs.setNextTick (h : f.Runs next) (hi : f.task = some i) (later : Option Instant) :
    (f.setNextTick i later).Runs later := by
  obtain ⟨ended, htasks, htask, haborted⟩ := h.tasks
  obtain rfl := Option.some.inj (htask.symm.trans hi)
  refine ⟨h.started, ended, ?_, htask, haborted⟩
  rw [WalkingFeed.setNextTick, htasks]
  exact modify_last _ _ _

/-- The task that goes on pauses after its tick, if it does not break down. -/
theorem Runs.tick (h : f.Runs next) (hdue : f.isDue now i = true) :
    ∃ later, (f.tick now i).1.Runs later ∧
      (f.profile.NeverBreaks → later = some (now + f.period.nanos)) := by
  obtain ⟨htask, -⟩ := h.task_of_isDue hdue
  obtain ⟨hbreaks, heq⟩ | heq := tick_cases now i f
  · exact ⟨none, heq ▸ h.setNextTick htask none, fun hnever => absurd hnever hbreaks⟩
  · have hcounted : f.counted.Runs next ∧ f.counted.task = some i := by
      rw [counted_frame]
      exact ⟨⟨h.started, h.tasks⟩, htask⟩
    exact ⟨_, heq ▸ hcounted.1.setNextTick hcounted.2 _, fun _ => rfl⟩

theorem Runs.alive_eq (h : f.Runs next) : f.alive = 1 := by
  obtain ⟨ended, htasks, -, haborted⟩ := h.tasks
  have hended : (ended.countP fun task => !task.aborted) = 0 :=
    List.countP_eq_zero.mpr fun task htask => by rw [haborted task htask]; decide
  rw [alive, htasks, List.countP_append, hended]
  rfl

theorem Idle.alive_eq (h : f.Idle) : f.alive = 0 :=
  List.countP_eq_zero.mpr fun task htask => by rw [h.aborted task htask]; decide

end

theorem OneTask.alive_eq (h : f.OneTask) : f.alive = if f.started then 1 else 0 := by
  obtain hidle | ⟨next, hruns⟩ := h
  · rw [hidle.alive_eq, hidle.started]
    rfl
  · rw [hruns.alive_eq, hruns.started]
    rfl

/-- To end the task of the latest start is to end all. -/
theorem OneTask.abortTask (h : f.OneTask) :
    f.abortTask.task = none ∧ ∀ task ∈ f.abortTask.tasks, task.aborted = true := by
  obtain hidle | ⟨next, hruns⟩ := h
  · rw [WalkingFeed.abortTask, hidle.task]
    exact ⟨hidle.task, hidle.aborted⟩
  · obtain ⟨ended, htasks, htask, haborted⟩ := hruns.tasks
    rw [WalkingFeed.abortTask, htask]
    dsimp only
    rw [htasks, modify_last]
    refine ⟨rfl, fun task hmem => ?_⟩
    obtain hended | hlast := List.mem_append.mp hmem
    · exact haborted task hended
    · rw [List.mem_singleton.mp hlast]

theorem OneTask.wake (h : f.OneTask) : (f.wake now).1.OneTask := by
  refine wake_invariant (fun f i h hdue => ?_) h
  obtain hidle | ⟨next, hruns⟩ := h
  · cases (hidle.isDue_eq now i).symm.trans hdue
  · obtain ⟨later, hlater, -⟩ := hruns.tick hdue
    exact .inr ⟨later, hlater⟩

/-- A start ends the task before, and gives the feed another. -/
theorem OneTask.runs_start (h : f.OneTask) (now : Instant) :
    (f.start now).Runs (some (now + f.warmup.nanos)) := by
  refine ⟨rfl, f.abortTask.tasks, ?_, rfl, h.abortTask.2⟩
  have hwarmup : f.abortTask.warmup = f.warmup := by
    obtain ⟨_, _, heq⟩ := f.abortTask_frame
    rw [heq]
    rfl
  rw [← hwarmup]
  rfl

theorem OneTask.idle_stop (h : f.OneTask) : f.stop.Idle := ⟨rfl, h.abortTask.1, h.abortTask.2⟩

end WalkingFeed

end ExchangeRates

import ExchangeRates.Proofs.Engine.CycleSteps

namespace ExchangeRates

/-- What a cycle reports at its end, if it has failed. -/
def CycleEnd.report? : CycleEnd → Option LogEvent
  | refreshed => none
  | failed error => some (.refreshFailed error)
  | broken fault => some (.refreshBroken fault)

/-- The errors among some events. -/
def errorsOf (events : List LogEvent) : List LogEvent :=
  events.filter fun event => event.level = .error

theorem errorsOf_eq_nil {events : List LogEvent} (h : ∀ event ∈ events, event.level = .warn) :
    errorsOf events = [] := by
  refine List.filter_eq_nil_iff.mpr fun event hevent => ?_
  rw [h event hevent]
  decide

theorem level_failureEvents {answers : List (String × Answer)} :
    ∀ event ∈ RateBook.failureEvents answers, event.level = .warn := by
  intro event hevent
  obtain ⟨_, -, rfl⟩ := List.mem_map.mp hevent
  rfl

namespace Engine

variable {φ : Type}

/-- Two engines differ in nothing but the feeds, the latch of the gate, the log, and what the task
`i` is doing. -/
def OnlyPolls (e : Engine φ) (i : Nat) (later : Engine φ) : Prop :=
  ∃ feeds gate log phase, later = { e with
    feeds, log
    latches := { e.latches with gate }
    tasks := e.tasks.modify i fun t => { t with phase } }

theorem level_of_reportMissing (latches : Latches) (result : RefreshResult) :
    ∀ event ∈ (reportMissing latches result).2, event.level = .warn := by
  intro event hevent
  rw [(reportMissing_eq latches result).1] at hevent
  split at hevent
  · obtain ⟨_, -, rfl⟩ := List.mem_map.mp hevent
    rfl
  · cases hevent

variable [PriceFeed φ] {e later : Engine φ} {i : Nat}

theorem level_of_gateStep {gate later : Gate} {feeds : List φ} {now : Instant} {timeout : Duration}
    {latch next : Latch} {events : List LogEvent}
    (h : gate.step feeds now timeout latch = some (later, next, events)) :
    ∀ event ∈ events, event.level = .warn := by
  intro event hevent
  rw [(Gate.step_reports h).1] at hevent
  split at hevent
  · obtain ⟨_, -, rfl⟩ := List.mem_map.mp hevent
    rfl
  · cases hevent

/-- The only error that a step of a task reports is that its cycle has failed. Unless the cycle
refreshes the book, the step changes nothing else. -/
theorem TaskStep.reports {task : PollTask} (htask : e.tasks[i]? = some task)
    (halive : task.aborted = false) (h : e.TaskStep i task later) :
    (∃ events, later.log = e.log ++ events.toArray ∧
      errorsOf events = ((e.ends? i).bind CycleEnd.report?).toList) ∧
    (e.ends? i = some .refreshed ∨ e.OnlyPolls i later) := by
  have hcurrent := phase?_of_alive htask halive
  have hquiet (hends : e.ends? i = none) (events : List LogEvent)
      (hevents : ∀ event ∈ events, event.level = .warn)
      (hlog : later.log = e.log ++ events.toArray) :
      ∃ events, later.log = e.log ++ events.toArray ∧
        errorsOf events = ((e.ends? i).bind CycleEnd.report?).toList :=
    ⟨events, hlog, by rw [errorsOf_eq_nil hevents, hends]; rfl⟩
  cases h with
  | begin hphase =>
    have hends := ends?_of_idle hcurrent hphase
    exact ⟨hquiet hends [] (by simp) (by simp [beginCycle, setPhase]), .inr ⟨_, _, _, _, rfl⟩⟩
  | pass hphase hstep =>
    have hends : e.ends? i = none := ends?_eq_none hcurrent (by simp [hphase])
    exact ⟨hquiet hends _ (level_of_gateStep hstep) rfl, .inr ⟨_, _, _, _, rfl⟩⟩
  | ask hphase _ =>
    have hends : e.ends? i = none := ends?_eq_none hcurrent (by simp [hphase])
    exact ⟨hquiet hends [] (by simp) (by simp [beginFetching, setPhase]), .inr ⟨_, _, _, _, rfl⟩⟩
  | answer hphase hstep =>
    rw [hphase] at hcurrent
    have hends := ends?_of_answer hcurrent hstep
    exact ⟨hquiet hends [] (by simp) (by simp [setPhase]), .inr ⟨_, _, _, _, rfl⟩⟩
  | breakDown hphase hstep =>
    rw [hphase] at hcurrent
    refine ⟨⟨_, rfl, ?_⟩, .inr ⟨_, _, _, _, rfl⟩⟩
    rw [ends?_of_breakDown hcurrent hstep]
    rfl
  | @fail cycle requests answers error hphase hanswers hrefresh =>
    rw [hphase] at hcurrent
    refine ⟨⟨RateBook.failureEvents answers ++ [.refreshFailed error], ?_, ?_⟩,
      .inr ⟨_, _, _, _, rfl⟩⟩
    · simp [pause, setPhase, Engine.note]
    · rw [ends?_of_error hcurrent hanswers hrefresh, errorsOf, List.filter_append, ← errorsOf,
        errorsOf_eq_nil level_failureEvents]
      rfl
  | @refresh cycle requests answers book result hphase hanswers hrefresh =>
    rw [hphase] at hcurrent
    have hends := ends?_of_ok hcurrent hanswers hrefresh
    refine ⟨⟨RateBook.failureEvents answers ++ (reportMissing e.latches result).2, ?_, ?_⟩,
      .inl hends⟩
    · simp [pause, setPhase, Engine.note]
    · rw [hends, errorsOf_eq_nil (List.forall_mem_append.mpr
        ⟨level_failureEvents, level_of_reportMissing e.latches result⟩)]
      rfl

/-- A cycle that does not fail refreshes the book with its own configuration. -/
theorem exists_refresh_of_ends {cycle : Cycle} (hcycle : e.cycle? i = some cycle)
    (hends : e.ends? i = some .refreshed) (h : e.stepTask i = some later) :
    ∃ answers result, e.answersTo? i = some answers ∧
      e.book.refresh e.now cycle.config answers = .ok (later.book, result) := by
  obtain ⟨task, htask, halive, hstep⟩ := taskStep_of_stepTask h
  have hcurrent := phase?_of_alive htask halive
  have hsame : task.phase.cycle? = some cycle := by
    rwa [cycle?, hcurrent, Option.bind_some] at hcycle
  cases hstep with
  | begin hphase => simp [ends?_of_idle hcurrent hphase] at hends
  | pass hphase _ => simp [ends?_eq_none hcurrent (by simp [hphase])] at hends
  | ask hphase _ => simp [ends?_eq_none hcurrent (by simp [hphase])] at hends
  | answer hphase hstep => simp [ends?_of_answer (hphase ▸ hcurrent) hstep] at hends
  | breakDown hphase hstep => simp [ends?_of_breakDown (hphase ▸ hcurrent) hstep] at hends
  | fail hphase hanswers hrefresh =>
    simp [ends?_of_error (hphase ▸ hcurrent) hanswers hrefresh] at hends
  | @refresh captured _ answers _ result hphase hanswers hrefresh =>
    obtain rfl : captured = cycle := by
      rw [hphase] at hsame
      exact Option.some.inj hsame
    exact ⟨answers, result, (answersTo?_of_fetching htask halive hphase).trans hanswers, hrefresh⟩

end Engine

end ExchangeRates

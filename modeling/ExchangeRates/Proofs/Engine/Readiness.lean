import ExchangeRates.Proofs.Engine.SingleRun

namespace ExchangeRates.Engine

variable {φ : Type}

/-- Whether a run begins at a moment. -/
def Moment.startsRun (m : Moment φ) : Bool := m.engine.startsRun m.action

/-- The moment at which the latest run began. -/
def Trace.runStart? (trace : Trace φ) : Option (Moment φ) := trace.find? Moment.startsRun

/-- The moments after the latest run began. -/
def Trace.currentRun (trace : Trace φ) : Trace φ := trace.takeWhile fun m => !m.startsRun

/-- An action completes a cycle of the task `i`, and the refresh at its end succeeds. -/
def Refreshes (e : Engine φ) (i : Nat) (a : Action φ) : Prop :=
  a = .stepTask i ∧ ∃ task cycle requests answers refreshed,
    e.tasks[i]? = some task ∧ task.aborted = false ∧ task.phase = .fetching cycle requests ∧
      Fetch.answers? requests = some answers ∧
      e.book.refresh e.now cycle.config answers = .ok refreshed

/-- The task that the latest run began with has completed a cycle whose refresh succeeded. -/
def Trace.HasRefreshed (trace : Trace φ) : Prop :=
  ∃ start, trace.runStart? = some start ∧
    ∃ m ∈ trace.currentRun, m.engine.Refreshes start.engine.tasks.length m.action

/-- Every task has a notifier of its own, which was made with it, and the current notifier is the
latest. -/
structure OwnNotifiers (e : Engine φ) : Prop where
  length : e.notifiers.length = e.tasks.length + 1
  current : e.notifier = e.tasks.length
  own : e.tasks.map PollTask.notifier = List.range' 1 e.tasks.length

/-- An action tells no notifier but the current one, and only by a refresh of the current run. It
takes nothing back, and it replaces the current notifier, by one that has not been told, exactly if
it begins a run. -/
structure TellsOwn (e : Engine φ) (a : Action φ) (later : Engine φ) : Prop where
  kept : ∀ n : Nat, e.notifiers[n]? = some true → later.notifiers[n]? = some true
  told : ∀ n : Nat, e.notifiers[n]? = some false → later.notifiers[n]? = some true →
    n = e.notifier ∧ ∃ i, e.task = some i ∧ e.Refreshes i a
  replaced : e.startsRun a = true → e.notifiers[later.notifier]? = none ∧ later.isReady = false
  current : e.startsRun a = false → later.notifier = e.notifier

/-- The task of the current run is the one that the latest run began with. -/
def RunsLatest (trace : Trace φ) (e : Engine φ) : Prop :=
  ∀ i, e.task = some i → ∃ start, trace.runStart? = some start ∧ start.engine.tasks.length = i

section

variable {trace : Trace φ} {e : Engine φ} {m : Moment φ} {a : Action φ} {i : Nat}

theorem Trace.runStart?_cons_of_startsRun (h : m.startsRun = true) :
    Trace.runStart? (m :: trace) = some m :=
  List.find?_cons_of_pos h

theorem Trace.runStart?_cons (h : m.startsRun = false) :
    Trace.runStart? (m :: trace) = trace.runStart? :=
  List.find?_cons_of_neg (by simp [h])

theorem Trace.not_hasRefreshed_cons (h : m.startsRun = true) :
    ¬ Trace.HasRefreshed (m :: trace) := by
  rintro ⟨_, _, d, hd, _⟩
  simp [currentRun, h] at hd

theorem Trace.hasRefreshed_cons (h : m.startsRun = false) :
    Trace.HasRefreshed (m :: trace) ↔
      (∃ start, trace.runStart? = some start ∧
        m.engine.Refreshes start.engine.tasks.length m.action) ∨ trace.HasRefreshed := by
  have hrun : Trace.currentRun (m :: trace) = m :: trace.currentRun := by simp [currentRun, h]
  simp only [HasRefreshed, runStart?_cons h, hrun, List.mem_cons, exists_eq_or_imp, and_or_left,
    exists_or]

theorem not_refreshes (h : a.isStepTask = false) : ¬ e.Refreshes i a := by
  rintro ⟨rfl, -⟩
  cases h

/-- The task of the current run holds the current notifier. -/
theorem OwnNotifiers.notifier_of_alive (h : e.OwnNotifiers) (hrun : e.OneRun) {task : PollTask}
    (htask : e.tasks[i]? = some task) (halive : task.aborted = false) :
    e.task = some i ∧ task.notifier = e.notifier := by
  have hcurrent := (hrun.alive_iff htask).mp halive
  refine ⟨hcurrent, ?_⟩
  obtain ⟨n, ⟨-, hnone, -⟩ | ⟨-, hsome, hall⟩⟩ := hrun
  · simp [hnone] at hcurrent
  · obtain rfl := Option.some.inj (hsome.symm.trans hcurrent)
    have hlength : e.tasks.length = n + 1 := by simpa using congrArg List.length hall
    have hnotifier : (e.tasks.map PollTask.notifier)[n]? = some task.notifier := by simp [htask]
    rw [h.own, List.getElem?_range' (by omega), Option.some.injEq] at hnotifier
    rw [h.current, hlength]
    omega

theorem OwnNotifiers.isReady_set (h : e.OwnNotifiers) :
    (e.notifiers.set e.notifier true).getD e.notifier false = true := by
  have hlt : e.notifier < e.notifiers.length := by
    rw [h.length, h.current]
    exact Nat.lt_succ_self _
  rw [List.getD_eq_getElem?_getD, List.getElem?_set_self hlt]
  rfl

end

theorem ownNotifiers_new {settings : Settings} {origin : ConfigOrigin} {feeds : List φ}
    {registered : List FeedId} {environment : Environment} {runtime : Bool} :
    (new settings origin feeds registered environment runtime).OwnNotifiers := by
  unfold new reconfigure
  split <;> exact ⟨rfl, rfl, rfl⟩

variable [PriceFeed φ] {trace : Trace φ} {e later : Engine φ} {a : Action φ}

/-- Among the steps of a task only the refresh at the end of a cycle tells the task's notifier. -/
theorem TaskStep.notifiers {i : Nat} {task : PollTask} (htask : e.tasks[i]? = some task)
    (halive : task.aborted = false) (h : e.TaskStep i task later) :
    (e.Refreshes i (.stepTask i) ∧ later.notifiers = e.notifiers.set task.notifier true) ∨
    ((∀ j, ¬ e.Refreshes j (.stepTask i)) ∧ later.notifiers = e.notifiers) := by
  -- a refresh that succeeds needs all answers, so it excludes every other kind of step
  have hother (hnot : ∀ cycle requests answers refreshed, task.phase = .fetching cycle requests →
      Fetch.answers? requests = some answers →
      e.book.refresh e.now cycle.config answers ≠ .ok refreshed)
      (hnotifiers : later.notifiers = e.notifiers) :
      (e.Refreshes i (.stepTask i) ∧ later.notifiers = e.notifiers.set task.notifier true) ∨
      ((∀ j, ¬ e.Refreshes j (.stepTask i)) ∧ later.notifiers = e.notifiers) := by
    refine .inr ⟨?_, hnotifiers⟩
    rintro j ⟨hj, same, cycle, requests, answers, refreshed, hsame, -, hphase, hanswers, hrefresh⟩
    obtain rfl := Action.stepTask.inj hj
    obtain rfl := Option.some.inj (htask.symm.trans hsame)
    exact hnot cycle requests answers refreshed hphase hanswers hrefresh
  cases h with
  | begin hphase =>
    refine hother ?_ rfl
    obtain hphase | ⟨t, -, hphase⟩ := hphase <;> simp [hphase]
  | pass hphase _ => exact hother (by simp [hphase]) rfl
  | ask hphase _ => exact hother (by simp [hphase]) rfl
  | answer hphase hfetch =>
    refine hother ?_ rfl
    intro cycle requests answers refreshed hsame hanswers
    obtain ⟨rfl, rfl⟩ := Phase.fetching.inj (hphase.symm.trans hsame)
    simp [Fetch.answers?_of_step hfetch] at hanswers
  | breakDown hphase hfetch =>
    refine hother ?_ rfl
    intro cycle requests answers refreshed hsame hanswers
    obtain ⟨rfl, rfl⟩ := Phase.fetching.inj (hphase.symm.trans hsame)
    simp [Fetch.answers?_of_step hfetch] at hanswers
  | fail hphase hanswers hrefresh =>
    refine hother ?_ rfl
    intro cycle requests answers refreshed hsame hall
    obtain ⟨rfl, rfl⟩ := Phase.fetching.inj (hphase.symm.trans hsame)
    obtain rfl := Option.some.inj (hanswers.symm.trans hall)
    simp [hrefresh]
  | refresh hphase hanswers hrefresh =>
    exact .inl ⟨⟨rfl, task, _, _, _, _, htask, halive, hphase, hanswers, hrefresh⟩, rfl⟩

/-- What an action does to the notifiers: a run begins with a new one, a refresh that succeeds
tells the current one, and nothing else concerns them. -/
theorem OwnNotifiers.act_cases (h : e.OwnNotifiers) (hrun : e.OneRun)
    (hact : e.act a = some later) :
    (e.startsRun a = true ∧ later.notifier = e.notifiers.length ∧
      later.notifiers = e.notifiers ++ [false]) ∨
    (e.startsRun a = false ∧ later.notifier = e.notifier ∧ ∃ i, e.task = some i ∧
      e.Refreshes i a ∧ later.notifiers = e.notifiers.set e.notifier true) ∨
    (e.startsRun a = false ∧ later.notifier = e.notifier ∧ (∀ i, ¬ e.Refreshes i a) ∧
      later.notifiers = e.notifiers) := by
  cases effect_of_act hact with
  | quiet _ hstarts htask =>
    exact .inr (.inr ⟨hstarts, rfl, fun _ => not_refreshes htask, rfl⟩)
  | resolve hresolves =>
    exact .inr (.inr ⟨startsRun_of_resolves hresolves, rfl,
      fun _ => not_refreshes (isStepTask_of_resolves hresolves), rfl⟩)
  | startRun hstarts => exact .inl ⟨hstarts, rfl, rfl⟩
  | stop => exact .inr (.inr ⟨rfl, rfl, fun _ => not_refreshes rfl, rfl⟩)
  | changeFeed => exact .inr (.inr ⟨rfl, rfl, fun _ => not_refreshes rfl, rfl⟩)
  | stepFeeds => exact .inr (.inr ⟨rfl, rfl, fun _ => not_refreshes rfl, rfl⟩)
  | @stepTask i task _ htask halive hstep =>
    have hnotifier : later.notifier = e.notifier := by
      obtain ⟨_, _, _, _, _, _, rfl⟩ := hstep.frame
      rfl
    obtain ⟨hcurrent, hown⟩ := h.notifier_of_alive hrun htask halive
    obtain ⟨hrefreshes, hset⟩ | ⟨hnot, hsame⟩ := hstep.notifiers htask halive
    · exact .inr (.inl ⟨rfl, hnotifier, i, hcurrent, hrefreshes, hown ▸ hset⟩)
    · exact .inr (.inr ⟨rfl, hnotifier, hnot, hsame⟩)

/-- A run begins with a task that holds its notifier; otherwise the tasks keep theirs. -/
theorem Effect.tasks_cases (h : e.Effect a later) :
    (e.startsRun a = true ∧ later.task = some e.tasks.length ∧
      later.tasks.map PollTask.notifier =
        e.tasks.map PollTask.notifier ++ [e.notifiers.length]) ∨
    (e.startsRun a = false ∧ (later.task = e.task ∨ later.task = none) ∧
      later.tasks.map PollTask.notifier = e.tasks.map PollTask.notifier) := by
  cases h with
  | quiet _ hstarts _ => exact .inr ⟨hstarts, .inl rfl, rfl⟩
  | resolve hresolves => exact .inr ⟨startsRun_of_resolves hresolves, .inl rfl, rfl⟩
  | startRun hstarts =>
    refine .inl ⟨hstarts, rfl, ?_⟩
    rw [List.map_append, map_notifier_endedTasks]
    rfl
  | stop => exact .inr ⟨rfl, .inr rfl, map_notifier_endedTasks e⟩
  | changeFeed => exact .inr ⟨rfl, .inl rfl, rfl⟩
  | stepFeeds => exact .inr ⟨rfl, .inl rfl, rfl⟩
  | stepTask _ _ hstep =>
    obtain ⟨_, _, _, _, _, phase, rfl⟩ := hstep.frame
    exact .inr ⟨rfl, .inl rfl, map_modify_eq (by simp) _ _⟩

theorem RunsLatest.act (h : RunsLatest trace e) (hact : e.act a = some later) :
    RunsLatest (⟨e, a⟩ :: trace) later := by
  intro i hcurrent
  obtain ⟨hstarts, htask, -⟩ | ⟨hstarts, htask, -⟩ := (effect_of_act hact).tasks_cases
  · obtain rfl := Option.some.inj (htask.symm.trans hcurrent)
    exact ⟨_, Trace.runStart?_cons_of_startsRun hstarts, rfl⟩
  · rw [Trace.runStart?_cons (m := ⟨e, a⟩) hstarts]
    obtain hsame | hnone := htask
    · exact h i (hsame ▸ hcurrent)
    · simp [hnone] at hcurrent

theorem OwnNotifiers.act (h : e.OwnNotifiers) (hrun : e.OneRun) (hact : e.act a = some later) :
    later.OwnNotifiers := by
  have hcases := h.act_cases hrun hact
  obtain ⟨hlength, hcurrent, hown⟩ := h
  obtain ⟨hstarts, -, htasks⟩ | ⟨hstarts, -, htasks⟩ := (effect_of_act hact).tasks_cases
  · have hcount : later.tasks.length = e.tasks.length + 1 := by
      simpa using congrArg List.length htasks
    obtain ⟨-, hnotifier, hnotifiers⟩ | ⟨hnot, -⟩ | ⟨hnot, -⟩ := hcases
    · refine ⟨by simp [hnotifiers, hlength, hcount], by rw [hnotifier, hlength, hcount], ?_⟩
      rw [htasks, hown, hlength, hcount, List.range'_concat, Nat.one_mul, Nat.add_comm 1]
    all_goals simp [hstarts] at hnot
  · have hcount : later.tasks.length = e.tasks.length := by simpa using congrArg List.length htasks
    have hsame : later.notifiers.length = e.notifiers.length ∧ later.notifier = e.notifier := by
      obtain ⟨hstart, -⟩ | ⟨-, hnotifier, i, -, -, hset⟩ | ⟨-, hnotifier, -, hsame⟩ := hcases
      · simp [hstarts] at hstart
      · exact ⟨by rw [hset, List.length_set], hnotifier⟩
      · exact ⟨by rw [hsame], hnotifier⟩
    exact ⟨by rw [hsame.1, hlength, hcount], by rw [hsame.2, hcurrent, hcount],
      by rw [htasks, hown, hcount]⟩

/-- An action keeps the readiness of the engine in step with what the current run has done. -/
theorem isReady_act (hown : e.OwnNotifiers) (hrun : e.OneRun) (hlatest : RunsLatest trace e)
    (h : e.isReady = true ↔ trace.HasRefreshed) (hact : e.act a = some later) :
    later.isReady = true ↔ Trace.HasRefreshed (⟨e, a⟩ :: trace) := by
  obtain ⟨hstarts, hnotifier, hnotifiers⟩ | ⟨hstarts, hnotifier, i, hcurrent, hrefreshes, hset⟩ |
    ⟨hstarts, hnotifier, hnot, hsame⟩ := hown.act_cases hrun hact
  · refine iff_of_false ?_ (Trace.not_hasRefreshed_cons hstarts)
    simp [isReady, hnotifier, hnotifiers]
  · rw [Trace.hasRefreshed_cons (m := ⟨e, a⟩) hstarts]
    refine iff_of_true ?_ (.inl ?_)
    · rw [isReady, hnotifier, hset]
      exact hown.isReady_set
    · obtain ⟨start, hstart, rfl⟩ := hlatest i hcurrent
      exact ⟨start, hstart, hrefreshes⟩
  · rw [Trace.hasRefreshed_cons (m := ⟨e, a⟩) hstarts, isReady, hnotifier, hsame, ← isReady, h]
    refine (or_iff_right ?_).symm
    rintro ⟨start, -, hrefreshes⟩
    exact hnot _ hrefreshes

theorem OwnNotifiers.tellsOwn (h : e.OwnNotifiers) (hrun : e.OneRun)
    (hact : e.act a = some later) : e.TellsOwn a later := by
  obtain ⟨hstarts, hnotifier, hnotifiers⟩ | ⟨hstarts, hnotifier, i, hcurrent, hrefreshes, hset⟩ |
    ⟨hstarts, hnotifier, -, hsame⟩ := h.act_cases hrun hact
  · have hkept {n : Nat} {told : Bool} (hn : e.notifiers[n]? = some told) :
        later.notifiers[n]? = some told := by
      obtain ⟨hlt, -⟩ := List.getElem?_eq_some_iff.mp hn
      rw [hnotifiers, List.getElem?_append_left hlt]
      exact hn
    refine ⟨fun _ => hkept, ?_, fun _ => ?_, by simp [hstarts]⟩
    · intro n hfalse htrue
      simp [hkept hfalse] at htrue
    · simp [isReady, hnotifier, hnotifiers]
  · have hother {n : Nat} (hn : e.notifier ≠ n) : later.notifiers[n]? = e.notifiers[n]? := by
      rw [hset, List.getElem?_set_ne hn]
    refine ⟨?_, ?_, by simp [hstarts], fun _ => hnotifier⟩
    · intro n htrue
      by_cases hn : e.notifier = n
      · subst hn
        rw [hset, List.getElem?_set_self (List.getElem?_eq_some_iff.mp htrue).1]
      · rw [hother hn]
        exact htrue
    · intro n hfalse htrue
      by_cases hn : e.notifier = n
      · exact ⟨hn.symm, i, hcurrent, hrefreshes⟩
      · simp [hother hn, hfalse] at htrue
  · refine ⟨by simp [hsame], ?_, by simp [hstarts], fun _ => hnotifier⟩
    intro n hfalse htrue
    rw [hsame, hfalse] at htrue
    simp at htrue

/-- A start that fails, be it explicit or that of a conversion, leaves the notifiers alone. -/
theorem start_of_noRuntime (e : Engine φ) (h : e.runtime = false) :
    e.start = (.error .noRuntime, e) ∧ (e.started = false →
      e.startIfIdle.notifier = e.notifier ∧ e.startIfIdle.notifiers = e.notifiers) := by
  refine ⟨by simp [start, h], ?_⟩
  intro hidle
  obtain ⟨hstarted, -⟩ | ⟨-, hruntime, -⟩ | ⟨-, -, start, log, heq⟩ := e.startIfIdle_cases
  · simp [hidle] at hstarted
  · simp [h] at hruntime
  · rw [heq]
    exact ⟨rfl, rfl⟩

section

variable {settings : Settings} {origin : ConfigOrigin} {feeds : List φ} {registered : List FeedId}
  {environment : Environment} {runtime : Bool}

theorem ready_invariant
    (h : Execution (new settings origin feeds registered environment runtime) trace e) :
    e.OwnNotifiers ∧ RunsLatest trace e ∧ (e.isReady = true ↔ trace.HasRefreshed) := by
  induction h with
  | nil =>
    have hnew : (new settings origin feeds registered environment runtime).task = none ∧
        (new settings origin feeds registered environment runtime).isReady = false := by
      unfold new reconfigure
      split <;> exact ⟨rfl, rfl⟩
    refine ⟨ownNotifiers_new, fun i hi => ?_, iff_of_false (by simp [hnew.2]) ?_⟩
    · simp [hnew.1] at hi
    · rintro ⟨_, hstart, -⟩
      simp [Trace.runStart?] at hstart
  | act hbefore hact ih =>
    obtain ⟨hown, hlatest, hready⟩ := ih
    have hrun := oneRun_of_execution oneRun_new hbefore
    exact ⟨hown.act hrun hact, hlatest.act hact, isReady_act hown hrun hlatest hready hact⟩

/-- The current notifier is true exactly if the task of the current run has completed a cycle whose
refresh succeeded. No other cycle tells a notifier of a success, none is taken back, and the current
one is replaced exactly by a start that succeeds. -/
theorem isReady_iff
    (h : Execution (new settings origin feeds registered environment runtime) trace e) :
    (e.isReady = true ↔ trace.HasRefreshed) ∧
    (∀ a later, e.act a = some later → e.TellsOwn a later) ∧
    (e.startsRun .start = true ↔ e.start.1 = .ok ()) ∧
    (e.runtime = false → e.start = (.error .noRuntime, e) ∧ (e.started = false →
      e.startIfIdle.notifier = e.notifier ∧ e.startIfIdle.notifiers = e.notifiers)) := by
  obtain ⟨hown, -, hready⟩ := ready_invariant h
  refine ⟨hready, ?_, ?_, e.start_of_noRuntime⟩
  · intro a later hact
    exact hown.tellsOwn (oneRun_of_execution oneRun_new h) hact
  · cases hruntime : e.runtime <;> simp [startsRun, start, hruntime]

end

/-- A run that is replaced while its cycle waits for the feed, and a cycle of the next run. -/
def restartedInFlight : List (Action ScriptedFeed) :=
  [.start, .stepTask 0, .stepTask 0, .stepTask 0, .start, .stepTask 1, .stepTask 1, .stepTask 1,
    .stepTask 1, .stepTask 1]

/-- Only the task of the second run tells of a success. -/
theorem isReady_of_restartedInFlight :
    ∃ trace e start m, Execution bitcoinEngine trace e ∧ e.notifiers = [false, false, true] ∧
      e.isReady = true ∧ trace.runStart? = some start ∧ m ∈ trace.currentRun ∧
      start.engine.tasks.length = 1 ∧ m.engine.Refreshes 1 m.action := by
  obtain ⟨⟨trace, e⟩, hperformed, hnotifiers, hready, hrun⟩ :
      ∃ run, bitcoinEngine.perform restartedInFlight = some run ∧
        run.2.notifiers = [false, false, true] ∧ run.2.isReady = true ∧
        (run.1.runStart?.map fun start => start.engine.tasks.length) = some 1 :=
    ⟨_, rfl, rfl, rfl, rfl⟩
  have h := execution_of_perform hperformed
  obtain ⟨start, hstart, m, hm, hrefreshes⟩ := (isReady_iff h).1.mp hready
  rw [hstart, Option.map_some, Option.some.injEq] at hrun
  exact ⟨trace, e, start, m, h, hnotifiers, hready, hstart, hm, hrun, hrun ▸ hrefreshes⟩

end ExchangeRates.Engine

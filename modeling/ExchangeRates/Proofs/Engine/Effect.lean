import ExchangeRates.Proofs.Engine.Execution

namespace ExchangeRates.Engine

variable {φ : Type}

theorem completeCycle_of_error {e : Engine φ} {i notifier : Nat} {config : RateConfig}
    {answers : List (String × Answer)} {error : RateError}
    (h : e.book.refresh e.now config answers = .error error) :
    e.completeCycle i notifier config answers =
      ((e.note (RateBook.failureEvents answers)).note [.refreshFailed error]).pause i := by
  simp only [completeCycle, note, h]

theorem completeCycle_of_ok {e : Engine φ} {i notifier : Nat} {config : RateConfig}
    {answers : List (String × Answer)} {refreshed : RateBook × RefreshResult}
    (h : e.book.refresh e.now config answers = .ok refreshed) :
    e.completeCycle i notifier config answers =
      ({ e.note (RateBook.failureEvents answers) with
          book := refreshed.1
          latches := (reportMissing e.latches refreshed.2).1
          notifiers := e.notifiers.set notifier true }.note
        (reportMissing e.latches refreshed.2).2).pause i := by
  simp only [completeCycle, note, h]

/-- The configuration that an action resolves to, if it resolves one. -/
def resolves? (e : Engine φ) : Action φ → Option RateConfig
  | .reconfigure | .register _ => e.resolution.toOption
  | .setOverride o => { e with override := some o }.resolution.toOption
  | .clearOverride => { e with override := none }.resolution.toOption
  | _ => none

/-- Whether an action begins a run of the engine. -/
def startsRun (e : Engine φ) : Action φ → Bool
  | .start => e.runtime
  | .askDollars .. | .askConversion .. => !e.started && e.runtime
  | _ => false

/-- The feeds that are to be polled after an action. -/
def registeredAfter (e : Engine φ) : Action φ → List FeedId
  | .register ids => ids
  | _ => e.registered

/-- How long an action waits, if it is a wait. -/
def Action.wait? : Action φ → Option Nat
  | .wait nanos => some nanos
  | _ => none

/-- Those who begin to wait by an action. -/
def Action.callers : Action φ → List Waiter
  | .spawnWait => [.called]
  | _ => []

def Action.isStepTask : Action φ → Bool
  | .stepTask _ => true
  | _ => false

section

variable {e : Engine φ} {a : Action φ}

theorem resolves?_of_startsRun (h : e.startsRun a = true) :
    e.resolves? a = none ∧ a.isStepTask = false := by
  cases a <;> simp_all [startsRun, resolves?, Action.isStepTask]

theorem startsRun_of_resolves {config : RateConfig} (h : e.resolves? a = some config) :
    e.startsRun a = false := by
  cases a <;> simp_all [resolves?, startsRun]

theorem isStepTask_of_resolves {config : RateConfig} (h : e.resolves? a = some config) :
    a.isStepTask = false := by
  cases a <;> simp_all [resolves?, Action.isStepTask]

end

def endedTasks (e : Engine φ) : List PollTask :=
  match e.task with
  | some i => e.tasks.modify i fun t => { t with aborted := true }
  | none => e.tasks

theorem getElem?_endedTasks (e : Engine φ) (i : Nat) :
    e.endedTasks[i]? =
      e.tasks[i]?.map fun t => if e.task = some i then { t with aborted := true } else t := by
  unfold endedTasks
  cases htask : e.task with
  | none => simp
  | some j =>
    rw [List.getElem?_modify]
    congr 1
    funext t
    simp

theorem length_endedTasks (e : Engine φ) : e.endedTasks.length = e.tasks.length := by
  unfold endedTasks
  split <;> simp

/-- A map that does not see how one entry changes does not see the change of the list. -/
theorem map_modify_eq {α β : Type} {f : α → α} {g : α → β} (h : ∀ x, g (f x) = g x) (l : List α)
    (i : Nat) : (l.modify i f).map g = l.map g := by
  apply List.ext_getElem?
  intro j
  rw [List.getElem?_map, List.getElem?_modify, List.getElem?_map, Option.map_eq_map,
    Option.map_map]
  congr 1
  funext x
  by_cases hj : i = j <;> simp [hj, h]

theorem map_notifier_endedTasks (e : Engine φ) :
    e.endedTasks.map PollTask.notifier = e.tasks.map PollTask.notifier := by
  unfold endedTasks
  split
  · exact map_modify_eq (by simp) _ _
  · rfl

theorem settings_reconfigure (e : Engine φ) : e.reconfigure.settings = e.settings := by
  unfold reconfigure
  split <;> rfl

theorem settings_new (settings : Settings) (origin : ConfigOrigin) (feeds : List φ)
    (registered : List FeedId) (environment : Environment) (runtime : Bool) :
    (new settings origin feeds registered environment runtime).settings = settings :=
  settings_reconfigure _

/-- A step of one who waits begins the wait, or ends it if its notifier has told of a success or is
not the current one. -/
theorem stepWaiter_cases {e later : Engine φ} {i : Nat} (h : e.stepWaiter i = some later) :
    (e.waiters[i]? = some .called ∧
      later = { e with waiters := e.waiters.set i (.waiting e.notifier) }) ∨
    ∃ n, e.waiters[i]? = some (.waiting n) ∧
      (e.notifiers.getD n false = true ∨ n ≠ e.notifier) ∧
      later = { e with waiters := e.waiters.set i .ended } := by
  unfold stepWaiter at h
  split at h
  · next hcalled => exact .inl ⟨hcalled, (Option.some.inj h).symm⟩
  · next n hwaiting =>
    simp only [Option.ite_none_right_eq_some, Option.some.injEq, Bool.or_eq_true,
      bne_iff_ne] at h
    exact .inr ⟨n, hwaiting, h.1, h.2.symm⟩
  · cases h

/-- A step of one who waits changes nothing else. -/
theorem stepWaiter_frame {e later : Engine φ} {i : Nat} (h : e.stepWaiter i = some later) :
    ∃ waiters, later = { e with waiters } := by
  obtain ⟨-, rfl⟩ | ⟨n, -, -, rfl⟩ := stepWaiter_cases h
  · exact ⟨_, rfl⟩
  · exact ⟨_, rfl⟩

variable [PriceFeed φ]

/-- A step of the task `i`, told by what happens to its cycle. -/
inductive TaskStep (e : Engine φ) (i : Nat) (task : PollTask) : Engine φ → Prop
  | begin (hphase : task.phase = .spawned ∨ ∃ t ≤ e.now, task.phase = .sleeping t) :
    TaskStep e i task (e.beginCycle i)
  | pass {cycle : Cycle} {gate next : Gate} {latch : Latch} {events : List LogEvent}
    (hphase : task.phase = .atGate cycle gate)
    (hstep : gate.step e.feeds e.now e.settings.gateTimeout e.latches.gate =
      some (next, latch, events)) :
    TaskStep e i task
      (({ e with latches := { e.latches with gate := latch } }.note events).setPhase i
        (.atGate cycle next))
  | ask {cycle : Cycle} {gate : Gate} (hphase : task.phase = .atGate cycle gate)
    (hwaiting : gate.waiting = []) : TaskStep e i task (e.beginFetching i cycle)
  | answer {cycle : Cycle} {requests next : List Fetch} {feeds : List φ}
    (hphase : task.phase = .fetching cycle requests)
    (hstep : Fetch.step e.feeds e.now requests = some (feeds, .ok next)) :
    TaskStep e i task ({ e with feeds }.setPhase i (.fetching cycle next))
  | breakDown {cycle : Cycle} {requests : List Fetch} {feeds : List φ} {fault : Fault}
    (hphase : task.phase = .fetching cycle requests)
    (hstep : Fetch.step e.feeds e.now requests = some (feeds, .error fault)) :
    TaskStep e i task (({ e with feeds }.note [.refreshBroken fault]).pause i)
  | fail {cycle : Cycle} {requests : List Fetch} {answers : List (String × Answer)}
    {error : RateError} (hphase : task.phase = .fetching cycle requests)
    (hanswers : Fetch.answers? requests = some answers)
    (hrefresh : e.book.refresh e.now cycle.config answers = .error error) :
    TaskStep e i task
      (((e.note (RateBook.failureEvents answers)).note [.refreshFailed error]).pause i)
  | refresh {cycle : Cycle} {requests : List Fetch} {answers : List (String × Answer)}
    {book : RateBook} {result : RefreshResult} (hphase : task.phase = .fetching cycle requests)
    (hanswers : Fetch.answers? requests = some answers)
    (hrefresh : e.book.refresh e.now cycle.config answers = .ok (book, result)) :
    TaskStep e i task
      (({ e.note (RateBook.failureEvents answers) with
          book
          latches := (reportMissing e.latches result).1
          notifiers := e.notifiers.set task.notifier true }.note
        (reportMissing e.latches result).2).pause i)

theorem taskStep_of_stepTask {e later : Engine φ} {i : Nat} (h : e.stepTask i = some later) :
    ∃ task, e.tasks[i]? = some task ∧ task.aborted = false ∧ e.TaskStep i task later := by
  unfold stepTask at h
  cases htask : e.tasks[i]? with
  | none => simp [htask] at h
  | some task =>
    simp only [htask] at h
    split at h
    · simp at h
    next halive =>
    refine ⟨task, rfl, by simpa using halive, ?_⟩
    cases hphase : task.phase with
    | spawned =>
      simp only [hphase, Option.some.injEq] at h
      exact h ▸ .begin (.inl hphase)
    | sleeping t =>
      simp only [hphase, Option.ite_none_right_eq_some, Option.some.injEq] at h
      exact h.2 ▸ .begin (.inr ⟨t, h.1, hphase⟩)
    | atGate cycle gate =>
      simp only [hphase, stepGate] at h
      split at h
      · next hstep =>
        obtain rfl := Option.some.inj h
        exact .pass hphase hstep
      · simp only [Option.ite_none_right_eq_some, Option.some.injEq] at h
        exact h.2 ▸ .ask hphase h.1
    | fetching cycle requests =>
      simp only [hphase, stepFetching] at h
      split at h
      · next hstep =>
        obtain rfl := Option.some.inj h
        exact .answer hphase hstep
      · next hstep =>
        obtain rfl := Option.some.inj h
        exact .breakDown hphase hstep
      · obtain ⟨answers, hanswers, rfl⟩ := Option.map_eq_some_iff.mp h
        cases hrefresh : e.book.refresh e.now cycle.config answers with
        | error error =>
          rw [completeCycle_of_error hrefresh]
          exact .fail hphase hanswers hrefresh
        | ok refreshed =>
          rw [completeCycle_of_ok hrefresh]
          exact .refresh hphase hanswers hrefresh

/-- A step of a task changes nothing but feeds, the book, latches, notifiers, the log, and what
the task itself is doing. -/
theorem TaskStep.frame {e later : Engine φ} {i : Nat} {task : PollTask}
    (h : e.TaskStep i task later) :
    ∃ feeds book latches notifiers log phase,
      later = { e with
        feeds, book, latches, notifiers, log
        tasks := e.tasks.modify i fun t => { t with phase } } := by
  cases h <;> exact ⟨_, _, _, _, _, _, rfl⟩

/-- The feeds, with the registered ones stopped. -/
def stoppedFeeds (e : Engine φ) : List φ :=
  e.registered.foldl (fun feeds id => updateFeed feeds id PriceFeed.stop) e.feeds

/-- The feeds after a start: the registered ones are stopped, and then started. -/
def startedFeeds (e : Engine φ) : List φ :=
  e.registered.foldl (fun feeds id => updateFeed feeds id (startFeed e.now)) e.stoppedFeeds

theorem stop_eq (e : Engine φ) :
    e.stop = { e with
      feeds := e.stoppedFeeds
      tasks := e.endedTasks
      task := none
      started := false } := by
  unfold stop abortTask endedTasks
  cases htask : e.task <;> rfl

theorem startRun_eq (e : Engine φ) :
    e.startRun = { e with
      feeds := e.startedFeeds
      notifier := e.notifiers.length
      notifiers := e.notifiers ++ [false]
      tasks := e.endedTasks ++ [⟨.spawned, e.notifiers.length, false⟩]
      task := some e.tasks.length
      started := true
      log := e.log ++ [LogEvent.pollingStarted e.registered.length].toArray } := by
  unfold startRun
  rw [stop_eq, ← length_endedTasks]
  rfl

theorem eq_of_stepFeeds {e later : Engine φ} (h : e.stepFeeds = some later) :
    later = { e with
      feeds := (wakeFeeds e.now e.feeds).1
      log := e.log ++ (wakeFeeds e.now e.feeds).2.toArray } := by
  simp only [stepFeeds, Option.ite_none_right_eq_some, Option.some.injEq] at h
  exact h.2.symm

/-- What an action does to an engine. -/
inductive Effect (e : Engine φ) : Action φ → Engine φ → Prop
  | quiet {a : Action φ} {override : Option RateOverride} {origin : ConfigOrigin}
    {interval : Duration} {start : Latch} {waiters : List Waiter} {environment : Environment}
    {runtime : Bool} {now : Instant} {log : Array LogEvent} (hresolves : e.resolves? a = none)
    (hstarts : e.startsRun a = false) (htask : a.isStepTask = false) :
    Effect e a { e with
      registered := e.registeredAfter a
      latches := { e.latches with start }
      override, origin, interval, waiters, environment, runtime, now, log }
  | resolve {a : Action φ} {override : Option RateOverride} {config : RateConfig}
    (hresolves : e.resolves? a = some config) :
    Effect e a { e with
      registered := e.registeredAfter a
      override, config
      book := e.book.reset config }
  | startRun {a : Action φ} {log : Array LogEvent} (hstarts : e.startsRun a = true) :
    Effect e a { e with
      feeds := e.startedFeeds
      notifier := e.notifiers.length
      notifiers := e.notifiers ++ [false]
      tasks := e.endedTasks ++ [⟨.spawned, e.notifiers.length, false⟩]
      task := some e.tasks.length
      started := true
      log }
  | stop : Effect e .stop { e with
      feeds := e.stoppedFeeds
      tasks := e.endedTasks
      task := none
      started := false }
  | changeFeed {id : FeedId} {change : φ → φ} :
    Effect e (.changeFeed id change) (e.changeFeed id change)
  | stepFeeds {log : Array LogEvent} :
    Effect e .stepFeeds { e with feeds := (wakeFeeds e.now e.feeds).1, log }
  | stepTask {i : Nat} {task : PollTask} {later : Engine φ} (htask : e.tasks[i]? = some task)
    (halive : task.aborted = false) (hstep : e.TaskStep i task later) :
    Effect e (.stepTask i) later

theorem startIfIdle_cases (e : Engine φ) :
    (e.started = true ∧ e.startIfIdle = e) ∨
    (e.started = false ∧ e.runtime = true ∧ e.startIfIdle = e.startRun) ∨
    (e.started = false ∧ e.runtime = false ∧
      ∃ start log, e.startIfIdle = { e with latches := { e.latches with start }, log }) := by
  by_cases hstarted : e.started = true
  · exact .inl ⟨hstarted, if_pos hstarted⟩
  by_cases hruntime : e.runtime = true
  · refine .inr (.inl ⟨by simpa using hstarted, hruntime, ?_⟩)
    rw [startIfIdle, if_neg hstarted, start, if_pos hruntime]
  · refine .inr (.inr ⟨by simpa using hstarted, by simpa using hruntime, ?_⟩)
    rw [startIfIdle, if_neg hstarted, start, if_neg hruntime]
    exact ⟨_, _, rfl⟩

/-- Starting an idle engine touches no more than a run of it does. -/
theorem startIfIdle_frame (e : Engine φ) :
    ∃ feeds latches notifier notifiers tasks task started log, e.startIfIdle =
      { e with feeds, latches, notifier, notifiers, tasks, task, started, log } := by
  obtain ⟨-, heq⟩ | ⟨-, -, heq⟩ | ⟨-, -, _, _, heq⟩ := e.startIfIdle_cases
  · exact ⟨_, _, _, _, _, _, _, _, heq⟩
  · exact ⟨_, _, _, _, _, _, _, _, heq.trans (startRun_eq e)⟩
  · exact ⟨_, _, _, _, _, _, _, _, heq⟩

private theorem effect_reconfigure (e : Engine φ) {a : Action φ} {override : Option RateOverride}
    (hresolves : e.resolves? a = ({ e with override } : Engine φ).resolution.toOption)
    (hstarts : e.startsRun a = false) (htask : a.isStepTask = false) :
    e.Effect a { e with override, registered := e.registeredAfter a }.reconfigure := by
  have hresolution :
      ({ e with override, registered := e.registeredAfter a } : Engine φ).resolution =
        ({ e with override } : Engine φ).resolution := rfl
  unfold reconfigure
  rw [hresolution]
  cases hconfig : ({ e with override } : Engine φ).resolution with
  | ok config => exact .resolve (by rw [hresolves, hconfig]; rfl)
  | error error => exact .quiet (by rw [hresolves, hconfig]; rfl) hstarts htask

private theorem effect_ask (e : Engine φ) (events : List LogEvent) {a : Action φ}
    (hresolves : e.resolves? a = none) (hstarts : e.startsRun a = (!e.started && e.runtime))
    (htask : a.isStepTask = false) (hregistered : e.registeredAfter a = e.registered) :
    e.Effect a (e.startIfIdle.note events) := by
  have hquiet (start : Latch) (log : Array LogEvent) (hidle : e.startsRun a = false) :
      e.Effect a { e with latches := { e.latches with start }, log } := by
    have h : e.Effect a { e with
        registered := e.registeredAfter a
        latches := { e.latches with start }
        log } := .quiet hresolves hidle htask
    rwa [hregistered] at h
  obtain ⟨hstarted, heq⟩ | ⟨hstarted, hruntime, heq⟩ | ⟨hstarted, hruntime, start, log, heq⟩ :=
    e.startIfIdle_cases
  · rw [heq]
    exact hquiet _ _ (by simp [hstarts, hstarted])
  · rw [heq, startRun_eq]
    exact .startRun (by simp [hstarts, hstarted, hruntime])
  · rw [heq]
    exact hquiet _ _ (by simp [hstarts, hruntime])

/-- Every action has one of these effects, so an invariant of executions needs one argument for each
of them. -/
theorem effect_of_act {e later : Engine φ} {a : Action φ} (h : e.act a = some later) :
    e.Effect a later := by
  cases a with
  | reconfigure => exact Option.some.inj h ▸ effect_reconfigure e rfl rfl rfl
  | setOverride o => exact Option.some.inj h ▸ effect_reconfigure e rfl rfl rfl
  | clearOverride => exact Option.some.inj h ▸ effect_reconfigure e rfl rfl rfl
  | register ids => exact Option.some.inj h ▸ effect_reconfigure e rfl rfl rfl
  | setInterval _ | setOrigin _ | setEnvironment _ | setRuntime _ | askRates _ | spawnWait
  | takeLog | wait _ => exact Option.some.inj h ▸ .quiet rfl rfl rfl
  | changeFeed id change => exact Option.some.inj h ▸ .changeFeed
  | start =>
    obtain rfl := Option.some.inj h
    unfold start
    split
    · next hruntime =>
      rw [startRun_eq]
      exact .startRun hruntime
    · next hruntime => exact .quiet rfl (by simpa [startsRun] using hruntime) rfl
  | stop => exact Option.some.inj h ▸ e.stop_eq ▸ .stop
  | askDollars asset price source =>
    exact Option.some.inj h ▸ effect_ask e _ rfl rfl rfl rfl
  | askConversion amount fromAsset toAsset source =>
    exact Option.some.inj h ▸ effect_ask e _ rfl rfl rfl rfl
  | stepFeeds =>
    obtain rfl := eq_of_stepFeeds h
    exact .stepFeeds
  | stepTask i =>
    obtain ⟨task, htask, halive, hstep⟩ := taskStep_of_stepTask h
    exact .stepTask htask halive hstep
  | stepWaiter i =>
    obtain ⟨_, rfl⟩ := stepWaiter_frame h
    exact .quiet rfl rfl rfl

/-- The configuration is replaced by what an action resolves to, and by nothing else. -/
theorem config_act {e later : Engine φ} {a : Action φ} (hact : e.act a = some later) :
    later.config = (e.resolves? a).getD e.config := by
  cases effect_of_act hact with
  | quiet hresolves _ _ => rw [hresolves]; rfl
  | resolve hresolves => rw [hresolves]; rfl
  | startRun hstarts => rw [(resolves?_of_startsRun hstarts).1]; rfl
  | stop => rfl
  | changeFeed => rfl
  | stepFeeds => rfl
  | stepTask _ _ hstep =>
    obtain ⟨_, _, _, _, _, _, rfl⟩ := hstep.frame
    rfl

/-- The settings of an engine never change. -/
theorem settings_act {e later : Engine φ} {a : Action φ} (hact : e.act a = some later) :
    later.settings = e.settings := by
  cases effect_of_act hact with
  | stepTask _ _ hstep =>
    obtain ⟨_, _, _, _, _, _, rfl⟩ := hstep.frame
    rfl
  | _ => rfl

theorem Execution.settings_eq {first e : Engine φ} {trace : Trace φ}
    (h : Execution first trace e) : e.settings = first.settings :=
  h.invariant (P := fun e => e.settings = first.settings) rfl
    fun hsettings hact => (settings_act hact).trans hsettings

/-- Time passes by a wait alone, and of those who wait an action moves at most one. -/
theorem now_waiters_act {e later : Engine φ} {a : Action φ} (hact : e.act a = some later) :
    later.now = e.now + a.wait?.getD 0 ∧
      ((∃ i, a = .stepWaiter i) ∨ later.waiters = e.waiters ++ a.callers) := by
  have hreconfigure (s : Engine φ) : s.reconfigure.now = s.now ∧
      s.reconfigure.waiters = s.waiters := by
    unfold reconfigure
    split <;> exact ⟨rfl, rfl⟩
  have hask (events : List LogEvent) : (e.startIfIdle.note events).now = e.now ∧
      (e.startIfIdle.note events).waiters = e.waiters := by
    obtain ⟨_, _, _, _, _, _, _, _, heq⟩ := e.startIfIdle_frame
    rw [heq]
    exact ⟨rfl, rfl⟩
  have hsame (ha : a.wait? = none ∧ a.callers = [])
      (h : later.now = e.now ∧ later.waiters = e.waiters) :
      later.now = e.now + a.wait?.getD 0 ∧
        ((∃ i, a = .stepWaiter i) ∨ later.waiters = e.waiters ++ a.callers) := by
    rw [ha.1, ha.2, List.append_nil]
    exact ⟨h.1, .inr h.2⟩
  cases a with
  | reconfigure | setOverride _ | clearOverride | register _ =>
    exact hsame ⟨rfl, rfl⟩ (Option.some.inj hact ▸ hreconfigure _)
  | setInterval _ | setOrigin _ | setEnvironment _ | setRuntime _ | changeFeed _ _ | askRates _
  | takeLog => exact hsame ⟨rfl, rfl⟩ (Option.some.inj hact ▸ ⟨rfl, rfl⟩)
  | spawnWait => exact Option.some.inj hact ▸ ⟨rfl, .inr rfl⟩
  | wait _ => exact Option.some.inj hact ▸ ⟨rfl, .inr (List.append_nil _).symm⟩
  | askDollars _ _ _ | askConversion _ _ _ _ =>
    exact hsame ⟨rfl, rfl⟩ (Option.some.inj hact ▸ hask _)
  | start =>
    refine hsame ⟨rfl, rfl⟩ ?_
    obtain rfl := Option.some.inj hact
    unfold start
    split
    · rw [startRun_eq]
      exact ⟨rfl, rfl⟩
    · exact ⟨rfl, rfl⟩
  | stop =>
    refine hsame ⟨rfl, rfl⟩ ?_
    obtain rfl := Option.some.inj hact
    rw [stop_eq]
    exact ⟨rfl, rfl⟩
  | stepFeeds =>
    refine hsame ⟨rfl, rfl⟩ ?_
    rw [eq_of_stepFeeds hact]
    exact ⟨rfl, rfl⟩
  | stepTask i =>
    obtain ⟨task, -, -, hstep⟩ := taskStep_of_stepTask hact
    obtain ⟨_, _, _, _, _, _, rfl⟩ := hstep.frame
    exact hsame ⟨rfl, rfl⟩ ⟨rfl, rfl⟩
  | stepWaiter i =>
    obtain ⟨_, rfl⟩ := stepWaiter_frame hact
    exact ⟨rfl, .inl ⟨i, rfl⟩⟩

end ExchangeRates.Engine

import ExchangeRates.Proofs.Engine.BookHistory
import ExchangeRates.Proofs.Gate

namespace ExchangeRates

/-- The reports that have a latch. -/
inductive ReportKind where
  | gate
  | miss
  | start
deriving DecidableEq

/-- Whether the latch of a kind of reports is armed. -/
def Latches.armed (latches : Latches) : ReportKind → Bool
  | .gate => latches.gate.armed
  | .miss => latches.miss.armed
  | .start => latches.start.armed

/-- The kind of an event, if it has to pass a latch. -/
def LogEvent.report? : LogEvent → Option ReportKind
  | feedNotReady .. => some .gate
  | assetMissing .. => some .miss
  | pollingNotStarted .. => some .start
  | _ => none

theorem report?_failureEvents {answers : List (String × Answer)} :
    ∀ event ∈ RateBook.failureEvents answers, event.report? = none := by
  intro event hevent
  obtain ⟨_, -, rfl⟩ := List.mem_map.mp hevent
  rfl

namespace Engine

variable {φ : Type}

/-- What the task `i` is doing, unless it has been ended. -/
def phase? (e : Engine φ) (i : Nat) : Option Phase :=
  (e.tasks[i]?.filter fun task => !task.aborted).map PollTask.phase

theorem phase?_of_alive {e : Engine φ} {i : Nat} {task : PollTask} (htask : e.tasks[i]? = some task)
    (halive : task.aborted = false) : e.phase? i = some task.phase := by
  simp [phase?, htask, halive]

/-- What comes of the refresh that ends a cycle of the task `i` now, if it succeeds. -/
def completes? (e : Engine φ) (i : Nat) : Option RefreshResult :=
  match e.phase? i with
  | some (.fetching cycle requests) => (Fetch.answers? requests).bind fun answers =>
    (e.book.refresh e.now cycle.config answers).toOption.map Prod.snd
  | _ => none

theorem reportMissing_eq (latches : Latches) (result : RefreshResult) :
    (reportMissing latches result).2 = (if latches.miss.armed then
      result.missing.map fun m => .assetMissing m.asset m.feed else []) ∧
    (reportMissing latches result).1.miss.armed =
      (latches.miss.armed && result.missing.isEmpty) ∧
    (reportMissing latches result).1.gate = latches.gate ∧
    (reportMissing latches result).1.start = latches.start := by
  unfold reportMissing RefreshResult.hasMisses
  cases hmissing : result.missing with
  | nil => simp
  | cons miss rest => simp [Latch.silence]

theorem reconfigure_quiet (e : Engine φ) :
    ∃ events : List LogEvent, e.reconfigure.log = e.log ++ events.toArray ∧
      e.reconfigure.latches = e.latches ∧ ∀ event ∈ events, event.report? = none := by
  unfold reconfigure
  cases e.resolution with
  | ok config => exact ⟨[], by simp, rfl, by simp⟩
  | error error => exact ⟨[.configRejected error], rfl, rfl, by simp [LogEvent.report?]⟩

theorem ratesEvents_quiet (e : Engine φ) (source : String) :
    ∀ event ∈ e.ratesEvents source, event.report? = none := by
  unfold ratesEvents
  split <;> simp [LogEvent.report?]

theorem armed_new {settings : Settings} {origin : ConfigOrigin} {feeds : List φ}
    {registered : List FeedId} {environment : Environment} {runtime : Bool} (kind : ReportKind) :
    (new settings origin feeds registered environment runtime).latches.armed kind = true := by
  unfold new
  obtain ⟨-, -, hlatches, -⟩ := reconfigure_quiet (φ := φ) _
  rw [hlatches]
  cases kind <;> rfl

variable [PriceFeed φ]

/-- The feed that the task `i` passes over at the gate now. -/
def late? (e : Engine φ) (i : Nat) : Option φ :=
  match e.phase? i with
  | some (.atGate _ gate) => gate.late? e.feeds e.now
  | _ => none

/-- What an action has to report of a kind: a feed that was not ready in time, the lookups that
failed in a refresh that succeeded, or that a conversion could not start the engine. -/
def due (e : Engine φ) : ReportKind → Action φ → List LogEvent
  | .gate, .stepTask i => (e.late? i).toList.map fun feed =>
    .feedNotReady (PriceFeed.name feed) e.settings.gateTimeout
  | .miss, .stepTask i => (e.completes? i).toList.flatMap fun result =>
    result.missing.map fun m => .assetMissing m.asset m.feed
  | .start, .askDollars .. | .start, .askConversion .. =>
    if !e.started && !e.runtime then [.pollingNotStarted .noRuntime] else []
  | _, _ => []

/-- What an action adds to the log. What feeds say of work of their own does not count. -/
def logged (e : Engine φ) : Action φ → List LogEvent
  | .stepFeeds => []
  | a => (e.act a).elim [] fun later => later.log.toList.drop e.log.size

/-- The reports of a kind that an action makes. -/
def reported (e : Engine φ) (kind : ReportKind) (a : Action φ) : List LogEvent :=
  (e.logged a).filter fun event => event.report? = some kind

/-- An action adds events to the log. Of every kind these report what is due if the latch is armed,
and it stays armed if nothing is. -/
structure ReportsDue (e : Engine φ) (a : Action φ) (later : Engine φ) (events : List LogEvent) :
    Prop where
  log : later.log = e.log ++ events.toArray
  filter : ∀ kind, (events.filter fun event => event.report? = some kind) =
    if e.latches.armed kind then e.due kind a else []
  armed : ∀ kind, later.latches.armed kind = (e.latches.armed kind && (e.due kind a).isEmpty)

section

variable {e later : Engine φ} {a : Action φ} {events : List LogEvent} {kind : ReportKind} {i : Nat}
  {task : PollTask}

theorem due_stepTask_eq_nil (hlate : e.late? i = none) (hcompletes : e.completes? i = none)
    (kind : ReportKind) : e.due kind (.stepTask i) = [] := by
  cases kind <;> simp [due, hlate, hcompletes]

theorem report?_of_mem_due : ∀ event ∈ e.due kind a, event.report? = some kind := by
  intro event hevent
  unfold due at hevent
  split at hevent
  · obtain ⟨_, -, rfl⟩ := List.mem_map.mp hevent
    rfl
  · obtain ⟨_, -, hevent⟩ := List.mem_flatMap.mp hevent
    obtain ⟨_, -, rfl⟩ := List.mem_map.mp hevent
    rfl
  · split at hevent <;> simp_all [LogEvent.report?]
  · split at hevent <;> simp_all [LogEvent.report?]
  · cases hevent

theorem filter_report?_eq_nil (h : ∀ event ∈ events, event.report? = none) (kind : ReportKind) :
    (events.filter fun event => event.report? = some kind) = [] := by
  rw [List.filter_eq_nil_iff]
  intro event hevent
  simp [h event hevent]

namespace ReportsDue

theorem of_quiet (hlog : later.log = e.log ++ events.toArray)
    (hlatches : later.latches = e.latches) (hevents : ∀ event ∈ events, event.report? = none)
    (hdue : ∀ kind, e.due kind a = []) : e.ReportsDue a later events where
  log := hlog
  filter kind := by
    rw [filter_report?_eq_nil hevents, hdue]
    simp
  armed kind := by
    rw [hlatches, hdue]
    simp

/-- An action that has to do with one latch passes the reports of its kind through it. -/
theorem of_kind (kind : ReportKind) (events : List LogEvent)
    (hlog : later.log = e.log ++ (events ++
      if e.latches.armed kind then e.due kind a else []).toArray)
    (hevents : ∀ event ∈ events, event.report? = none)
    (harmed : later.latches.armed kind = (e.latches.armed kind && (e.due kind a).isEmpty))
    (hothers : ∀ other, other ≠ kind →
      e.due other a = [] ∧ later.latches.armed other = e.latches.armed other) :
    e.ReportsDue a later (events ++ if e.latches.armed kind then e.due kind a else []) where
  log := hlog
  filter other := by
    rw [List.filter_append, filter_report?_eq_nil hevents, List.nil_append]
    by_cases hother : other = kind
    · subst hother
      rw [List.filter_eq_self]
      intro event hevent
      split at hevent
      · simpa using report?_of_mem_due event hevent
      · cases hevent
    · rw [(hothers other hother).1, ite_self, List.filter_eq_nil_iff]
      intro event hevent
      split at hevent
      · simpa [report?_of_mem_due event hevent] using Ne.symm hother
      · cases hevent
  armed other := by
    by_cases hother : other = kind
    · subst hother
      exact harmed
    · obtain ⟨hdue, hsame⟩ := hothers other hother
      rw [hdue, hsame]
      simp

/-- What is noted besides, and is no report, does not matter. -/
theorem note (h : e.ReportsDue a later events) {more : List LogEvent}
    (hmore : ∀ event ∈ more, event.report? = none) :
    e.ReportsDue a (later.note more) (events ++ more) where
  log := by
    change later.log ++ more.toArray = _
    rw [h.log]
    simp
  filter kind := by
    rw [List.filter_append, filter_report?_eq_nil hmore, List.append_nil]
    exact h.filter kind
  armed := h.armed

end ReportsDue

/-- A step of a task reports at the gate, and at the end of a cycle whose refresh succeeds. -/
theorem TaskStep.exists_reportsDue (htask : e.tasks[i]? = some task)
    (halive : task.aborted = false) (h : e.TaskStep i task later) :
    ∃ events, e.ReportsDue (.stepTask i) later events := by
  have hcurrent := phase?_of_alive htask halive
  have hquiet (events : List LogEvent) (hlog : later.log = e.log ++ events.toArray)
      (hlatches : later.latches = e.latches) (hevents : ∀ event ∈ events, event.report? = none)
      (hlate : e.late? i = none) (hcompletes : e.completes? i = none) :
      ∃ events, e.ReportsDue (.stepTask i) later events :=
    ⟨events, .of_quiet hlog hlatches hevents (due_stepTask_eq_nil hlate hcompletes)⟩
  cases h with
  | begin hphase =>
    have hnot : e.late? i = none ∧ e.completes? i = none := by
      obtain hphase | ⟨t, -, hphase⟩ := hphase <;> simp [late?, completes?, hcurrent, hphase]
    exact hquiet [] (by simp [beginCycle, setPhase]) rfl (by simp) hnot.1 hnot.2
  | @pass cycle gate next latch events hphase hstep =>
    rw [hphase] at hcurrent
    obtain ⟨hevents, harmed⟩ := Gate.step_reports hstep
    have hdue : e.due .gate (.stepTask i) = (gate.late? e.feeds e.now).toList.map fun feed =>
        .feedNotReady (PriceFeed.name feed) e.settings.gateTimeout := by
      simp only [due, late?, hcurrent]
    refine ⟨_, .of_kind .gate [] ?_ (by simp) ?_ ?_⟩
    · rw [hdue, List.nil_append]
      exact congrArg (e.log ++ ·.toArray) hevents
    · rw [hdue]
      change latch.armed = (e.latches.gate.armed && _)
      rw [harmed]
      cases gate.late? e.feeds e.now <;> rfl
    · rintro (_ | _ | _) hother
      · exact absurd rfl hother
      · exact ⟨by simp [due, completes?, hcurrent], rfl⟩
      · exact ⟨rfl, rfl⟩
  | ask hphase hwaiting =>
    rw [hphase] at hcurrent
    refine hquiet [] (by simp [beginFetching, setPhase]) rfl (by simp) ?_ ?_
    · simp only [late?, hcurrent, Gate.late?_of_waiting_eq_nil hwaiting]
    · simp only [completes?, hcurrent]
  | answer hphase hstep =>
    rw [hphase] at hcurrent
    refine hquiet [] (by simp [setPhase]) rfl (by simp) ?_ ?_
    · simp only [late?, hcurrent]
    · simp only [completes?, hcurrent, Fetch.answers?_of_step hstep, Option.bind_none]
  | breakDown hphase hstep =>
    rw [hphase] at hcurrent
    refine hquiet _ rfl rfl (by simp [LogEvent.report?]) ?_ ?_
    · simp only [late?, hcurrent]
    · simp only [completes?, hcurrent, Fetch.answers?_of_step hstep, Option.bind_none]
  | @fail cycle requests answers error hphase hanswers hrefresh =>
    rw [hphase] at hcurrent
    refine hquiet (RateBook.failureEvents answers ++ [.refreshFailed error]) ?_ rfl ?_ ?_ ?_
    · simp [pause, setPhase, Engine.note]
    · simp only [List.forall_mem_append]
      exact ⟨report?_failureEvents, by simp [LogEvent.report?]⟩
    · simp only [late?, hcurrent]
    · simp only [completes?, hcurrent, hanswers, Option.bind_some, hrefresh]
      rfl
  | @refresh cycle requests answers book result hphase hanswers hrefresh =>
    rw [hphase] at hcurrent
    obtain ⟨hevents, harmed, hgate, hstart⟩ := reportMissing_eq e.latches result
    have hdue : e.due .miss (.stepTask i) =
        result.missing.map fun m => .assetMissing m.asset m.feed := by
      simp [due, completes?, hcurrent, hanswers, hrefresh, Except.toOption]
    refine ⟨_, .of_kind .miss (RateBook.failureEvents answers) ?_ report?_failureEvents ?_ ?_⟩
    · rw [hdue]
      change e.log ++ (RateBook.failureEvents answers).toArray ++
        (reportMissing e.latches result).2.toArray = _
      rw [hevents, Array.append_assoc]
      exact congrArg (e.log ++ ·) (List.append_toArray ..)
    · rw [hdue, List.isEmpty_map]
      exact harmed
    · rintro (_ | _ | _) hother
      · exact ⟨by simp [due, late?, hcurrent], congrArg Latch.armed hgate⟩
      · exact absurd rfl hother
      · exact ⟨rfl, congrArg Latch.armed hstart⟩

theorem startRun_quiet (e : Engine φ) (hdue : ∀ kind, e.due kind a = []) :
    e.ReportsDue a e.startRun [.pollingStarted e.registered.length] := by
  rw [startRun_eq]
  exact .of_quiet rfl rfl (by simp [LogEvent.report?]) hdue

/-- A conversion reports that an idle engine cannot be started. -/
theorem exists_reportsDue_startIfIdle (e : Engine φ)
    (hdue : ∀ kind, e.due kind a = if kind = .start ∧ e.started = false ∧ e.runtime = false then
      [.pollingNotStarted .noRuntime] else []) :
    ∃ events, e.ReportsDue a e.startIfIdle events := by
  by_cases hstarted : e.started = true
  · rw [startIfIdle, if_pos hstarted]
    exact ⟨[], .of_quiet (by simp) rfl (by simp) fun kind => by simp [hdue, hstarted]⟩
  by_cases hruntime : e.runtime = true
  · rw [startIfIdle, if_neg hstarted, start, if_pos hruntime]
    exact ⟨_, e.startRun_quiet fun kind => by simp [hdue, hruntime]⟩
  · rw [startIfIdle, if_neg hstarted, start, if_neg hruntime]
    have hreport : e.due .start a = [.pollingNotStarted .noRuntime] := by
      rw [hdue, if_pos ⟨rfl, by simpa using hstarted, by simpa using hruntime⟩]
    refine ⟨_, .of_kind .start [] ?_ (by simp) ?_ ?_⟩
    · rw [hreport]
      rfl
    · rw [hreport]
      exact (Bool.and_false _).symm
    · intro other hother
      refine ⟨by simp [hdue, hother], ?_⟩
      cases other <;> first | rfl | exact absurd rfl hother

/-- What an action does to the log and the latches, apart from clearing the log and from what feeds
say of work of their own. -/
theorem exists_reportsDue (hact : e.act a = some later) (hlog : a ≠ .takeLog)
    (hfeeds : a ≠ .stepFeeds) : ∃ events, e.ReportsDue a later events := by
  have hquiet (hsame : later.log = e.log ∧ later.latches = e.latches)
      (hdue : ∀ kind, e.due kind a = []) : ∃ events, e.ReportsDue a later events :=
    ⟨[], .of_quiet (by simp [hsame.1]) hsame.2 (by simp) hdue⟩
  have hreconfigure (s : Engine φ) (hlater : s.reconfigure = later)
      (hsame : s.log = e.log ∧ s.latches = e.latches) (hdue : ∀ kind, e.due kind a = []) :
      ∃ events, e.ReportsDue a later events := by
    obtain ⟨events, hlog, hlatches, hevents⟩ := s.reconfigure_quiet
    rw [hlater, hsame.1] at hlog
    rw [hlater, hsame.2] at hlatches
    exact ⟨events, .of_quiet hlog hlatches hevents hdue⟩
  have hask (source : String) (hlater : (e.startIfIdle.askRates source).2 = later)
      (hdue : ∀ kind, e.due kind a = if kind = .start ∧ e.started = false ∧ e.runtime = false then
        [.pollingNotStarted .noRuntime] else []) : ∃ events, e.ReportsDue a later events := by
    obtain rfl := hlater
    obtain ⟨events, hevents⟩ := e.exists_reportsDue_startIfIdle hdue
    exact ⟨_, hevents.note (e.startIfIdle.ratesEvents_quiet source)⟩
  cases a with
  | reconfigure | setOverride _ | clearOverride | register _ =>
    exact hreconfigure _ (Option.some.inj hact) ⟨rfl, rfl⟩ (by rintro ⟨⟩ <;> rfl)
  | setInterval _ | setOrigin _ | setEnvironment _ | setRuntime _ | changeFeed _ _ | spawnWait
  | wait _ =>
    obtain rfl := Option.some.inj hact
    exact hquiet ⟨rfl, rfl⟩ (by rintro ⟨⟩ <;> rfl)
  | start =>
    obtain rfl := Option.some.inj hact
    unfold start
    split
    · exact ⟨_, e.startRun_quiet (by rintro ⟨⟩ <;> rfl)⟩
    · exact ⟨[], .of_quiet (by simp) rfl (by simp) (by rintro ⟨⟩ <;> rfl)⟩
  | stop =>
    obtain rfl := Option.some.inj hact
    rw [stop_eq]
    exact ⟨[], .of_quiet (by simp) rfl (by simp) (by rintro ⟨⟩ <;> rfl)⟩
  | askRates source =>
    obtain rfl := Option.some.inj hact
    exact ⟨_, .of_quiet rfl rfl (e.ratesEvents_quiet source) (by rintro ⟨⟩ <;> rfl)⟩
  | askDollars _ _ _ | askConversion _ _ _ _ =>
    refine hask _ (Option.some.inj hact) ?_
    rintro (_ | _ | _) <;> simp [due]
  | takeLog => exact absurd rfl hlog
  | stepFeeds => exact absurd rfl hfeeds
  | stepTask i =>
    obtain ⟨task, htask, halive, hstep⟩ := taskStep_of_stepTask hact
    exact hstep.exists_reportsDue htask halive
  | stepWaiter i =>
    obtain ⟨_, rfl⟩ := stepWaiter_frame hact
    exact ⟨[], .of_quiet (by simp) rfl (by simp) (by rintro ⟨⟩ <;> rfl)⟩

theorem logged_of_log (hact : e.act a = some later) (hfeeds : a ≠ .stepFeeds)
    (hlog : later.log = e.log ++ events.toArray) : e.logged a = events := by
  unfold logged
  split
  · exact absurd rfl hfeeds
  · rw [hact, Option.elim, hlog]
    simp [← Array.length_toList]

/-- An action reports what is due of a kind if the latch is armed, and disarms it then. -/
theorem reported_act (hact : e.act a = some later) (kind : ReportKind) :
    e.reported kind a = (if e.latches.armed kind then e.due kind a else []) ∧
    later.latches.armed kind = (e.latches.armed kind && (e.due kind a).isEmpty) := by
  by_cases hlog : a = .takeLog
  · subst hlog
    obtain rfl := Option.some.inj hact
    have hdue : e.due kind .takeLog = [] := by cases kind <;> rfl
    rw [hdue]
    exact ⟨by simp [reported, logged, act, takeLog], (Bool.and_true _).symm⟩
  by_cases hfeeds : a = .stepFeeds
  · subst hfeeds
    obtain rfl := eq_of_stepFeeds hact
    have hdue : e.due kind .stepFeeds = [] := by cases kind <;> rfl
    rw [hdue]
    exact ⟨by simp [reported, logged], (Bool.and_true _).symm⟩
  obtain ⟨events, h⟩ := exists_reportsDue hact hlog hfeeds
  rw [reported, logged_of_log hact hfeeds h.log]
  exact ⟨h.filter kind, h.armed kind⟩

theorem length_due_le_one (hkind : kind ≠ .miss) : (e.due kind a).length ≤ 1 := by
  unfold due
  split
  · rw [List.length_map]
    cases e.late? _ <;> simp
  · exact absurd rfl hkind
  · split <;> simp
  · split <;> simp
  · simp

end

/-- The reports of a kind that are due at a moment. -/
def Moment.due (kind : ReportKind) (m : Moment φ) : List LogEvent := m.engine.due kind m.action

/-- The reports of a kind that are made at a moment. -/
def Moment.reported (kind : ReportKind) (m : Moment φ) : List LogEvent :=
  m.engine.reported kind m.action

namespace Trace

/-- All reports of a kind, the first of them first. -/
def reported (kind : ReportKind) (trace : Trace φ) : List LogEvent :=
  trace.reverse.flatMap (Moment.reported kind)

/-- The first moment at which a report of a kind is due. -/
def firstDue? (kind : ReportKind) (trace : Trace φ) : Option (Moment φ) :=
  trace.reverse.find? fun m => !(m.due kind).isEmpty

theorem reported_cons (kind : ReportKind) (m : Moment φ) (trace : Trace φ) :
    reported kind (m :: trace) = trace.reported kind ++ m.reported kind := by
  simp [reported]

theorem firstDue?_cons (kind : ReportKind) (m : Moment φ) (trace : Trace φ) :
    firstDue? kind (m :: trace) =
      (trace.firstDue? kind).or (if (m.due kind).isEmpty then none else some m) := by
  rw [firstDue?, List.reverse_cons, List.find?_append, List.find?_singleton]
  cases (m.due kind).isEmpty <;> rfl

end Trace

section

variable {first e : Engine φ} {trace : Trace φ} {kind : ReportKind}

/-- A latch that was armed at first is armed as long as nothing has been due. -/
theorem armed_of_execution (h : Execution first trace e)
    (hfirst : first.latches.armed kind = true) :
    e.latches.armed kind = (trace.firstDue? kind).isNone := by
  induction h with
  | nil => exact hfirst
  | @act trace middle later a _ hact ih =>
    rw [(reported_act hact kind).2, ih, Trace.firstDue?_cons]
    have hdue : Moment.due kind (⟨middle, a⟩ : Moment φ) = middle.due kind a := rfl
    rw [hdue]
    cases trace.firstDue? kind <;> cases (middle.due kind a).isEmpty <;> rfl

theorem reported_moment (h : Execution first trace e) (hfirst : first.latches.armed kind = true)
    {m : Moment φ} {before : Trace φ} (hsuffix : m :: before <:+ trace) :
    m.reported kind = if (before.firstDue? kind).isNone then m.due kind else [] := by
  obtain ⟨after, rfl⟩ := hsuffix
  obtain ⟨hbefore, next, hact, -⟩ := h.split
  rw [← armed_of_execution hbefore hfirst]
  exact (reported_act hact kind).1

/-- What is reported of a kind is what was due first. -/
theorem reported_of_execution (h : Execution first trace e)
    (hfirst : first.latches.armed kind = true) :
    trace.reported kind = (trace.firstDue? kind).elim [] (Moment.due kind) := by
  induction h with
  | nil => rfl
  | @act trace middle later a hbefore hact ih =>
    have hlast := reported_moment (hbefore.act hact) hfirst List.suffix_rfl
    rw [Trace.reported_cons, ih, hlast, Trace.firstDue?_cons]
    cases trace.firstDue? kind with
    | some m => simp
    | none =>
      cases hdue : Moment.due kind (⟨middle, a⟩ : Moment φ) <;> simp [hdue]

end

/-- Over the life of an engine the reports of a kind are those that were due first, which is at most
one of a feed that was not ready and of an engine that could not be started. What is due is reported
exactly if nothing was due before, and the latch is armed exactly until then. -/
theorem reports_once {settings : Settings} {origin : ConfigOrigin} {feeds : List φ}
    {registered : List FeedId} {environment : Environment} {runtime : Bool} {trace : Trace φ}
    {e : Engine φ}
    (h : Execution (new settings origin feeds registered environment runtime) trace e)
    (kind : ReportKind) :
    trace.reported kind = (trace.firstDue? kind).elim [] (Moment.due kind) ∧
    (kind ≠ .miss → (trace.reported kind).length ≤ 1) ∧
    (∀ (m : Moment φ) (before : Trace φ), m :: before <:+ trace →
      m.reported kind = if (before.firstDue? kind).isNone then m.due kind else []) ∧
    ∀ before s, trace.Visits e before s →
      (s.latches.armed kind = true ↔ before.firstDue? kind = none) := by
  have hreported := reported_of_execution h (armed_new kind)
  refine ⟨hreported, ?_, fun m before => reported_moment h (armed_new kind), ?_⟩
  · intro hkind
    rw [hreported]
    cases trace.firstDue? kind with
    | none => simp
    | some m => exact length_due_le_one hkind
  · intro before s hvisits
    rw [armed_of_execution (h.of_visits hvisits) (armed_new kind), Option.isNone_iff_eq_none]

/-- An engine whose only feed is never ready and has none of its prices, where no task can run. -/
def unreadyEngine : Engine ScriptedFeed :=
  new .default (.lists ⟨[["BTC", "fast"], ["ETH", "fast"]], []⟩)
    [{ ScriptedFeed.new "fast" with ready := false }] [0] .empty false

/-- A cycle in which the feed is passed over, and answers. -/
def lateCycle : List (Action ScriptedFeed) :=
  [.stepTask 0, .wait 30000000000, .stepTask 0, .stepTask 0, .stepTask 0, .stepTask 0]

/-- Two cycles, and two conversions that cannot start the engine. -/
def everythingTwice : List (Action ScriptedFeed) :=
  [.askDollars "BTC" 1.0 none, .setRuntime true, .start] ++ lateCycle ++ [.wait 5000000000] ++
    lateCycle ++ [.setRuntime false, .stop, .askDollars "BTC" 1.0 none]

def firstReports : ReportKind → List LogEvent
  | .gate => [.feedNotReady "fast" (.ofSeconds 30)]
  | .miss => [.assetMissing (.ofText "BTC") "fast", .assetMissing (.ofText "ETH") "fast"]
  | .start => [.pollingNotStarted .noRuntime]

/-- Everything is due twice, and reported the first time. -/
theorem reports_of_everythingTwice :
    ∃ trace e, Execution unreadyEngine trace e ∧ ∀ kind : ReportKind,
      (trace.countP fun m => !(m.due kind).isEmpty) = 2 ∧
      trace.reported kind = firstReports kind ∧ e.latches.armed kind = false := by
  obtain ⟨⟨trace, e⟩, hperformed, hdue⟩ :
      ∃ run, unreadyEngine.perform everythingTwice = some run ∧ ∀ kind : ReportKind,
        (run.1.countP fun m => !(m.due kind).isEmpty) = 2 ∧
        (run.1.firstDue? kind).map (Moment.due kind) = some (firstReports kind) :=
    ⟨_, rfl, by rintro (_ | _ | _) <;> exact ⟨rfl, rfl⟩⟩
  have h := execution_of_perform hperformed
  refine ⟨trace, e, h, ?_⟩
  intro kind
  obtain ⟨htwice, hreports⟩ := hdue kind
  obtain ⟨m, hfirst, hm⟩ := Option.map_eq_some_iff.mp hreports
  obtain ⟨hreported, -, -, harmed⟩ := reports_once h kind
  refine ⟨htwice, ?_, ?_⟩
  · rw [hreported, hfirst]
    exact hm
  · have hlatch := harmed trace e (.inl ⟨rfl, rfl⟩)
    rw [hfirst] at hlatch
    simpa using hlatch

end Engine

end ExchangeRates

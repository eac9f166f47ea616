import ExchangeRates.Proofs.Engine.CycleReports
import ExchangeRates.Proofs.Engine.OnTime
import ExchangeRates.Proofs.Engine.Readiness

namespace ExchangeRates

theorem Phase.isIdle_iff (phase : Phase) : phase.isIdle = true ↔ phase.cycle? = none := by
  cases phase <;> simp [isIdle, cycle?]

namespace Engine

variable {φ : Type}

/-- Whether a moment is a step of the task `i`. -/
def Moment.steps (i : Nat) (m : Moment φ) : Bool :=
  match m.action with
  | .stepTask j => j == i
  | _ => false

theorem Moment.steps_iff {m : Moment φ} {i : Nat} : m.steps i = true ↔ m.action = .stepTask i := by
  unfold steps
  split <;> simp_all

theorem begins_of_phase? {e : Engine φ} {i : Nat} {phase : Phase} (h : e.phase? i = some phase) :
    (⟨e, .stepTask i⟩ : Moment φ).begins i = true ↔ phase.cycle? = none := by
  obtain ⟨task, htask, -, rfl⟩ := phase?_eq_some_iff.mp h
  rw [begins_stepTask htask, Phase.isIdle_iff]

theorem steps_of_ne {e : Engine φ} {a : Action φ} {i : Nat} (h : a ≠ .stepTask i) :
    (⟨e, a⟩ : Moment φ).steps i = false := by
  rw [← Bool.not_eq_true, Moment.steps_iff]
  exact h

theorem OneRun.task_of_phase? {e : Engine φ} {i : Nat} {phase : Phase} (h : e.OneRun)
    (hphase : e.phase? i = some phase) : e.task = some i := by
  obtain ⟨task, htask, halive, -⟩ := phase?_eq_some_iff.mp hphase
  exact (h.alive_iff htask).mp halive

variable [PriceFeed φ]

/-- How a cycle of the task `i` ends at a moment, if it does. -/
def Moment.ends? (i : Nat) (m : Moment φ) : Option CycleEnd :=
  if m.steps i then m.engine.ends? i else none

/-- The errors that a step of the task `i` reports at a moment. -/
def Moment.errors (i : Nat) (m : Moment φ) : List LogEvent :=
  if m.steps i then errorsOf (m.engine.logged m.action) else []

/-- All errors that steps of the task `i` report, the first of them first. -/
def Trace.errors (i : Nat) (trace : Trace φ) : List LogEvent :=
  trace.reverse.flatMap (Moment.errors i)

/-- The moments since the task `i` has begun its cycle: none of them ends it or begins another, and
it has what it captured at the beginning. -/
structure InCycle (i : Nat) (cycle : Cycle) (start : Moment φ) (since : Trace φ) : Prop where
  begun : start.begins i = true
  captured : cycle = ⟨start.engine.registered, start.engine.config⟩
  kept : ∀ m ∈ since, m.begins i = false ∧ m.ends? i = none ∧ m.engine.cycle? i = some cycle

/-- A cycle of the task `i` that has come to an end at the moment `last`. It has taken few steps; if
it has failed, these have reported one error and changed nothing but what polling does, and if it
has not, they have reported none, and the last has refreshed the book with what the cycle captured.
-/
structure CompleteCycle (i : Nat) (cycle : Cycle) (start : Moment φ) (since : Trace φ)
    (last : Moment φ) (outcome : CycleEnd) : Prop where
  inCycle : InCycle i cycle start since
  kept : last.engine.cycle? i = some cycle
  steps : List.countP (Moment.steps i) (last :: since) ≤ Phase.stepsOf cycle.feeds
  errors : Trace.errors i (last :: since ++ [start]) = outcome.report?.toList
  onlyPolls : outcome ≠ .refreshed → ∀ m ∈ last :: since ++ [start], m.steps i = true →
    ∀ later, m.engine.act m.action = some later → m.engine.OnlyPolls i later
  refreshes : outcome = .refreshed → ∀ later, last.engine.act last.action = some later →
    ∃ answers result, last.engine.answersTo? i = some answers ∧
      last.engine.book.refresh last.engine.now cycle.config answers = .ok (later.book, result)

/-- The latest cycle of the task `i` has ended, and its pause ends at `t`. -/
def Trace.PausesUntil (i : Nat) (trace : Trace φ) (t : Instant) : Prop :=
  ∃ since last earlier, trace = since ++ last :: earlier ∧ (last.ends? i).isSome = true ∧
    (∀ m ∈ since, m.steps i = false) ∧ t = last.engine.now + last.engine.interval.nanos

/-- Left to itself, the task `i` comes to begin another cycle, and it does not do so late. -/
def GoesOn (e : Engine φ) (i : Nat) : Prop :=
  ∃ next later, Execution e next later ∧
    (∀ m ∈ next, m.OnTime ∧ (m.action = .stepTask i ∨ ∃ nanos, m.action = .wait nanos)) ∧
    ∃ m ∈ next, m.begins i = true

/-- What leads to the phase of a task: nothing, the end of a cycle, or the steps of one. -/
def Trace.LeadsTo (i : Nat) (trace : Trace φ) : Phase → Prop
  | .spawned => ∀ m ∈ trace, m.steps i = false
  | .sleeping t => trace.PausesUntil i t
  | phase => ∀ cycle, phase.cycle? = some cycle → ∃ since start earlier,
    trace = since ++ start :: earlier ∧ InCycle i cycle start since ∧
      since.countP (Moment.steps i) + phase.stepsLeft ≤ Phase.stepsOf cycle.feeds

section

variable {first e later : Engine φ} {trace : Trace φ} {a : Action φ} {m : Moment φ} {i : Nat}
  {phase next : Phase} {t : Instant}

theorem ends?_stepTask (e : Engine φ) (i : Nat) :
    (⟨e, .stepTask i⟩ : Moment φ).ends? i = e.ends? i :=
  if_pos (Moment.steps_iff.mpr rfl)

theorem InCycle.cons {cycle : Cycle} {start : Moment φ} {since : Trace φ}
    (h : InCycle i cycle start since) (hbegins : m.begins i = false) (hends : m.ends? i = none)
    (hcycle : m.engine.cycle? i = some cycle) : InCycle i cycle start (m :: since) where
  begun := h.begun
  captured := h.captured
  kept := List.forall_mem_cons.mpr ⟨⟨hbegins, hends, hcycle⟩, h.kept⟩

theorem Trace.leadsTo_iff {cycle : Cycle} (h : phase.cycle? = some cycle) :
    trace.LeadsTo i phase ↔ ∃ since start earlier,
      trace = since ++ start :: earlier ∧ InCycle i cycle start since ∧
        since.countP (Moment.steps i) + phase.stepsLeft ≤ Phase.stepsOf cycle.feeds := by
  have hcycle (P : Cycle → Prop) : (∀ c, phase.cycle? = some c → P c) ↔ P cycle := by
    simp [h]
  cases phase with
  | spawned | sleeping _ => cases h
  | atGate _ _ | fetching _ _ => exact hcycle _

/-- A moment that is no step of a task leaves what leads to its phase as it was. -/
theorem Trace.LeadsTo.cons (h : trace.LeadsTo i phase) (hphase : m.engine.phase? i = some phase)
    (hm : m.steps i = false) : Trace.LeadsTo i (m :: trace) phase := by
  have hbegins : m.begins i = false := by
    refine begins_of_ne fun haction => ?_
    simp [Moment.steps_iff.mpr haction] at hm
  have hends : m.ends? i = none := if_neg (by simp [hm])
  have hcycle : m.engine.cycle? i = phase.cycle? := by rw [cycle?, hphase]; rfl
  cases phase with
  | spawned => exact List.forall_mem_cons.mpr ⟨hm, h⟩
  | sleeping t =>
    obtain ⟨since, last, earlier, rfl, hlast, hsince, ht⟩ := h
    exact ⟨m :: since, last, earlier, rfl, hlast, List.forall_mem_cons.mpr ⟨hm, hsince⟩, ht⟩
  | atGate _ _ | fetching _ _ =>
    intro cycle hsame
    obtain ⟨since, start, earlier, rfl, hcurrent, hleft⟩ := h cycle hsame
    refine ⟨m :: since, start, earlier, rfl, hcurrent.cons hbegins hends (hcycle.trans hsame), ?_⟩
    rw [List.countP_cons_of_neg (by simp [hm])]
    exact hleft

/-- A step of a task leads to its next phase. -/
theorem PhaseStep.leadsTo (hphase : e.phase? i = some phase) (h : e.PhaseStep i phase next)
    (htrace : trace.LeadsTo i phase) : Trace.LeadsTo i (⟨e, .stepTask i⟩ :: trace) next := by
  have hbegins := begins_of_phase? hphase
  cases h with
  | begin hidle _ _ =>
    intro cycle hcycle
    obtain rfl := Option.some.inj hcycle
    exact ⟨[], _, trace, rfl, ⟨hbegins.mpr hidle, rfl, by simp⟩, Nat.le_of_eq (by
      simp only [Phase.stepsLeft, Phase.stepsOf, Gate.begin, List.countP_nil]
      omega)⟩
  | @goOn cycle next hcycle hnext hends hless _ =>
    obtain ⟨since, start, earlier, rfl, hcurrent, hleft⟩ := (Trace.leadsTo_iff hcycle).mp htrace
    have hnot : (⟨e, .stepTask i⟩ : Moment φ).begins i = false := by
      rw [← Bool.not_eq_true, hbegins, hcycle]
      exact Option.some_ne_none cycle
    have hkept : e.cycle? i = some cycle := by rw [cycle?, hphase, Option.bind_some, hcycle]
    refine (Trace.leadsTo_iff hnext).mpr ⟨⟨e, .stepTask i⟩ :: since, start, earlier, rfl,
      hcurrent.cons hnot ((ends?_stepTask e i).trans hends) hkept, ?_⟩
    rw [List.countP_cons_of_pos (Moment.steps_iff.mpr rfl)]
    omega
  | finish _ hends =>
    refine ⟨[], _, trace, rfl, ?_, by simp, rfl⟩
    rw [ends?_stepTask, hends]
    rfl

theorem steps_eq_false_of_getElem? (h : Execution first trace e) (hnone : e.tasks[i]? = none) :
    ∀ m ∈ trace, m.steps i = false := by
  induction h with
  | nil => simp
  | @act trace e later a _ hact ih =>
    have hearlier : e.tasks[i]? = none := by
      have hlength : e.tasks.length ≤ later.tasks.length := by
        obtain ⟨-, -, htasks⟩ | ⟨-, -, htasks⟩ := (effect_of_act hact).tasks_cases
        · have hcount := congrArg List.length htasks
          simp only [List.length_map, List.length_append, List.length_singleton] at hcount
          omega
        · have hcount := congrArg List.length htasks
          simp only [List.length_map] at hcount
          omega
      exact List.getElem?_eq_none (Nat.le_trans hlength (List.getElem?_eq_none_iff.mp hnone))
    refine List.forall_mem_cons.mpr ⟨steps_of_ne ?_, ih hearlier⟩
    rintro rfl
    obtain ⟨task, htask, -⟩ := taskStep_of_stepTask hact
    simp [hearlier] at htask

/-- What has led to the phase of a task is in its history: the steps of its cycle, with what it
captured when it began, or the end of the cycle and the pause that it set. -/
theorem leadsTo_of_execution (hfirst : first.tasks = []) (h : Execution first trace e)
    (hphase : e.phase? i = some phase) : trace.LeadsTo i phase := by
  induction h generalizing phase with
  | nil => simp [phase?, hfirst] at hphase
  | @act trace e later a hbefore hact ih =>
    obtain ⟨hnone, hne, rfl⟩ | ⟨hne, hsame⟩ | ⟨rfl, old, hold, hstep⟩ := phase?_act hact hphase
    · exact List.forall_mem_cons.mpr
        ⟨steps_of_ne hne, steps_eq_false_of_getElem? hbefore hnone⟩
    · exact (ih hsame).cons hsame (steps_of_ne hne)
    · exact hstep.leadsTo hold (ih hold)

/-- A cycle begins with the first step of its task, or after the pause before it. -/
theorem begins_of_execution (hfirst : first.tasks = []) (h : Execution first trace e)
    {before : Trace φ} (hsuffix : m :: before <:+ trace) (hbegins : m.begins i = true) :
    (∀ d ∈ before, d.steps i = false) ∨
      ∃ t ≤ m.engine.now, m.engine.phase? i = some (.sleeping t) ∧ before.PausesUntil i t := by
  obtain ⟨after, rfl⟩ := hsuffix
  obtain ⟨hbefore, next, hact, -⟩ := h.split
  have haction : m.action = .stepTask i := by
    by_contra hne
    simp [begins_of_ne (e := m.engine) hne] at hbegins
  rw [haction] at hact
  obtain ⟨phase, _, hphase, hstep, -⟩ := phaseStep_of_stepTask hact
  have hleads := leadsTo_of_execution hfirst hbefore hphase
  have hidle : phase.cycle? = none := by
    rw [← begins_of_phase? hphase, ← haction]
    exact hbegins
  cases phase with
  | spawned => exact .inl hleads
  | sleeping t =>
    cases hstep with
    | begin _ hdue _ => exact .inr ⟨t, hdue t rfl, hphase, hleads⟩
    | goOn hcycle _ _ _ _ => cases hcycle
    | finish hcycle _ => cases hcycle
  | atGate _ _ => cases hidle
  | fetching _ _ => cases hidle

/-- On time, a cycle begins at the very end of the pause before it. -/
theorem begins_of_onTime (hfirst : first.tasks = []) (h : Execution first trace e)
    (htime : ∀ m ∈ trace, m.OnTime) {before : Trace φ} (hsuffix : m :: before <:+ trace)
    (hbegins : m.begins i = true) :
    (∀ d ∈ before, d.steps i = false) ∨ before.PausesUntil i m.engine.now := by
  obtain hnone | ⟨t, hnow, hphase, hpauses⟩ := begins_of_execution hfirst h hsuffix hbegins
  · exact .inl hnone
  · obtain ⟨after, rfl⟩ := hsuffix
    have hpunctual := (punctual_of_tasks hfirst).of_execution h.split.1 fun d hd =>
      htime d (List.mem_append_right _ (List.mem_cons_of_mem _ hd))
    obtain rfl := Nat.le_antisymm hnow (hpunctual i t hphase)
    exact .inr hpauses

theorem Trace.errors_cons (i : Nat) (m : Moment φ) (trace : Trace φ) :
    Trace.errors i (m :: trace) = trace.errors i ++ m.errors i := by
  simp [errors]

theorem ends?_of_begins (h : m.begins i = true) : m.ends? i = none := by
  unfold Moment.ends?
  split
  · next hsteps =>
    unfold Engine.ends?
    split
    · next cycle requests hphase =>
      obtain ⟨task, htask, -, hfetching⟩ := phase?_eq_some_iff.mp hphase
      rw [Moment.begins, Moment.steps_iff.mp hsteps] at h
      simp [htask, hfetching, Phase.isIdle] at h
    · rfl
  · rfl

theorem errors_moment (h : Execution first trace e) (hm : m ∈ trace) :
    m.errors i = ((m.ends? i).bind CycleEnd.report?).toList := by
  obtain ⟨after, before, rfl⟩ := List.append_of_mem hm
  obtain ⟨-, next, hact, -⟩ := h.split
  unfold Moment.errors Moment.ends?
  split
  · next hsteps =>
    rw [Moment.steps_iff.mp hsteps] at hact ⊢
    obtain ⟨task, htask, halive, hstep⟩ := taskStep_of_stepTask hact
    obtain ⟨⟨events, hlog, herrors⟩, -⟩ := hstep.reports htask halive
    rw [logged_of_log hact (by simp) hlog, herrors]
  · rfl

theorem onlyPolls_moment (hsteps : m.steps i = true) (hends : m.ends? i ≠ some .refreshed)
    (hact : m.engine.act m.action = some later) : m.engine.OnlyPolls i later := by
  rw [Moment.steps_iff.mp hsteps] at hact
  rw [Moment.ends?, if_pos hsteps] at hends
  obtain ⟨task, htask, halive, hstep⟩ := taskStep_of_stepTask hact
  exact (hstep.reports htask halive).2.resolve_left hends

/-- A cycle that ends is the one that began latest. -/
theorem completeCycle_of_ends (hfirst : first.tasks = []) (h : Execution first trace e)
    {before : Trace φ} (hsuffix : m :: before <:+ trace) {outcome : CycleEnd}
    (hends : m.ends? i = some outcome) :
    ∃ cycle since start earlier, before = since ++ start :: earlier ∧
      CompleteCycle i cycle start since m outcome := by
  obtain ⟨after, rfl⟩ := hsuffix
  obtain ⟨hbefore, next, hact, -⟩ := h.split
  have hsteps : m.steps i = true := by
    by_contra hnot
    simp [Moment.ends?, hnot] at hends
  have haction := Moment.steps_iff.mp hsteps
  rw [haction] at hact
  obtain ⟨phase, _, hphase, hstep, -⟩ := phaseStep_of_stepTask hact
  have hended : m.engine.ends? i = some outcome := by
    rwa [Moment.ends?, if_pos hsteps] at hends
  obtain ⟨cycle, hcycle⟩ : ∃ cycle, phase.cycle? = some cycle := by
    cases hstep with
    | begin _ _ hnone => simp [hended] at hnone
    | goOn _ _ hnone _ _ => simp [hended] at hnone
    | finish hcycle _ => exact ⟨_, hcycle⟩
  obtain ⟨since, start, earlier, rfl, hcurrent, hleft⟩ :=
    (Trace.leadsTo_iff hcycle).mp (leadsTo_of_execution hfirst hbefore hphase)
  have hquiet : ∀ d ∈ since ++ [start], d.ends? i = none := by
    simp only [List.mem_append, List.mem_singleton]
    rintro d (hd | rfl)
    · exact (hcurrent.kept d hd).2.1
    · exact ends?_of_begins hcurrent.begun
  have hkept : m.engine.cycle? i = some cycle := by
    rw [cycle?, hphase, Option.bind_some, hcycle]
  refine ⟨cycle, since, start, earlier, rfl, hcurrent, hkept, ?_, ?_, ?_, ?_⟩
  · rw [List.countP_cons_of_pos hsteps]
    exact Nat.le_trans (Nat.add_le_add_left (Phase.stepsLeft_pos hcycle) _) hleft
  · have hmem : ∀ d ∈ since ++ [start], d ∈ after ++ m :: (since ++ start :: earlier) := by
      simp only [List.mem_append, List.mem_cons]
      tauto
    have hnone : Trace.errors i (since ++ [start]) = [] := by
      rw [Trace.errors, List.flatMap_eq_nil_iff]
      intro d hd
      rw [List.mem_reverse] at hd
      rw [errors_moment h (hmem d hd), hquiet d hd]
      rfl
    rw [List.cons_append, Trace.errors_cons, hnone, errors_moment h (by simp), hends]
    rfl
  · intro hfailed d hd hown later hlater
    refine onlyPolls_moment hown ?_ hlater
    obtain rfl | hd := List.mem_cons.mp hd
    · rw [hends]
      exact fun heq => hfailed (Option.some.inj heq)
    · rw [hquiet d hd]
      simp
  · rintro rfl later hlater
    rw [haction] at hlater
    exact exists_refresh_of_ends hkept hended hlater

/-- The next step of a task can be taken in time. -/
theorem exists_step_onTime (hrun : e.OneRun) (hrecorded : Recorded trace e)
    (hpunctual : e.Punctual) (hphase : e.phase? i = some phase) :
    ∃ nanos, (⟨e, .wait nanos⟩ : Moment φ).OnTime ∧
      (({ e with now := e.now + nanos } : Engine φ).stepTask i).isSome = true := by
  have hcurrent := hrun.task_of_phase? hphase
  obtain ⟨task, htask, halive, rfl⟩ := phase?_eq_some_iff.mp hphase
  -- a wait can only be too long for the current task, as no other goes on
  have honTime (nanos : Nat) (hpause : ∀ t, task.phase = .sleeping t → e.now + nanos ≤ t) :
      (⟨e, .wait nanos⟩ : Moment φ).OnTime := by
    rw [onTime_wait_iff]
    intro j t hj
    obtain rfl := Option.some.inj (hcurrent.symm.trans (hrun.task_of_phase? hj))
    exact hpause t (Option.some.inj (hphase.symm.trans hj))
  cases hcase : task.phase with
  | spawned =>
    refine ⟨0, honTime 0 (by simp [hcase]), ?_⟩
    simp [stepTask, htask, halive, hcase]
  | sleeping t =>
    have hnow : e.now + (t - e.now) = t := Nat.add_sub_cancel' (hpunctual i t (hcase ▸ hphase))
    refine ⟨t - e.now, honTime _ ?_, ?_⟩
    · intro later hlater
      obtain rfl := Phase.sleeping.inj (hcase.symm.trans hlater)
      exact Nat.le_of_eq hnow
    · simp [stepTask, htask, halive, hcase, hnow]
  | atGate _ _ | fetching _ _ =>
    obtain ⟨t, hnow, hstep⟩ := live_of_alive hrecorded htask halive
    refine ⟨t - e.now, honTime _ (by simp [hcase]), ?_⟩
    rw [Nat.add_sub_cancel' hnow]
    exact hstep

theorem GoesOn.of_execution (h : Execution e trace later)
    (hown : ∀ m ∈ trace, m.OnTime ∧ (m.action = .stepTask i ∨ ∃ nanos, m.action = .wait nanos))
    (hlater : later.GoesOn i) : e.GoesOn i := by
  obtain ⟨next, last, hnext, honTime, m, hm, hbegins⟩ := hlater
  exact ⟨next ++ trace, last, h.append hnext, List.forall_mem_append.mpr ⟨honTime, hown⟩, m,
    List.mem_append_left _ hm, hbegins⟩

theorem goesOn_of_phase? (hfirst : first.tasks = []) (hidle : first.OneRun)
    (h : Execution first trace e) (htime : ∀ m ∈ trace, m.OnTime)
    (hphase : e.phase? i = some phase) : e.GoesOn i := by
  -- the steps that are left of the cycle become fewer until it ends, and then the next begins
  induction hn : phase.stepsLeft using Nat.strong_induction_on generalizing trace e phase with
  | _ n ih =>
  have hpunctual := (punctual_of_tasks hfirst).of_execution h htime
  obtain ⟨nanos, hwait, hstep⟩ := exists_step_onTime (oneRun_of_execution hidle h)
    (recorded_of_execution hfirst h) hpunctual hphase
  obtain ⟨later, hlater⟩ := Option.isSome_iff_exists.mp hstep
  have hboth : Execution e [⟨{ e with now := e.now + nanos }, .stepTask i⟩, ⟨e, .wait nanos⟩]
      later := (Execution.nil.act rfl).act hlater
  have honTime : ∀ m ∈ [⟨{ e with now := e.now + nanos }, .stepTask i⟩, ⟨e, .wait nanos⟩],
      Moment.OnTime (φ := φ) m ∧ (m.action = .stepTask i ∨ ∃ nanos, m.action = .wait nanos) := by
    exact List.forall_mem_cons.mpr ⟨⟨onTime_of_wait? rfl, .inl rfl⟩,
      List.forall_mem_singleton.mpr ⟨hwait, .inr ⟨nanos, rfl⟩⟩⟩
  obtain ⟨same, next, hsame, hnext, hreached⟩ := phaseStep_of_stepTask hlater
  obtain rfl : phase = same := Option.some.inj (hphase.symm.trans hsame)
  have hagain (hless : next.stepsLeft < phase.stepsLeft) : e.GoesOn i :=
    (ih next.stepsLeft (hn ▸ hless) (h.append hboth)
      (List.forall_mem_append.mpr ⟨fun m hm => (honTime m hm).1, htime⟩) hreached rfl).of_execution
        hboth honTime
  cases hnext with
  | begin hidle _ _ =>
    exact ⟨_, later, hboth, honTime, _, List.mem_cons_self, (begins_of_phase? hsame).mpr hidle⟩
  | goOn _ _ _ hless _ => exact hagain hless
  | finish hcycle _ => exact hagain (Phase.stepsLeft_pos hcycle)

theorem task_act (hact : e.act a = some later) (hstop : a ≠ .stop)
    (hstarts : e.startsRun a = false) : later.task = e.task := by
  cases effect_of_act hact with
  | quiet _ _ _ => rfl
  | resolve _ => rfl
  | startRun h => simp [h] at hstarts
  | stop => exact absurd rfl hstop
  | changeFeed => rfl
  | stepFeeds => rfl
  | stepTask _ _ hstep =>
    obtain ⟨_, _, _, _, _, _, rfl⟩ := hstep.frame
    rfl

end

section

variable {settings : Settings} {origin : ConfigOrigin} {feeds : List φ} {registered : List FeedId}
  {environment : Environment} {runtime : Bool} {trace : Trace φ} {e : Engine φ}

/-- Polling goes on until the engine is stopped or started again, and in an execution that is on
time every cycle but the first begins exactly when the pause is over that was set at the end of
the one before. A cycle keeps to the feeds and the configuration of its beginning and comes to an
end; if it fails, it reports this once and changes nothing but what polling does. The clock is on
time while there is a pause between two cycles. -/
theorem polling_onTime [PacedFeed φ]
    (h : Execution (new settings origin feeds registered environment runtime) trace e)
    (htime : ∀ m ∈ trace, m.OnTime) :
    (∀ i, e.task = some i → e.GoesOn i ∧ ∀ a later, e.act a = some later → a ≠ .stop →
      e.startsRun a = false → later.task = some i) ∧
    (∀ (m : Moment φ) (before : Trace φ) (i : Nat), m :: before <:+ trace → m.begins i = true →
      (∀ d ∈ before, d.steps i = false) ∨ before.PausesUntil i m.engine.now) ∧
    (∀ i phase cycle, e.phase? i = some phase → phase.cycle? = some cycle →
      phase.OwnFeeds e.feeds.length ∧ ∃ since start earlier, trace = since ++ start :: earlier ∧
        InCycle i cycle start since) ∧
    (∀ (m : Moment φ) (before : Trace φ) (i : Nat) (outcome : CycleEnd), m :: before <:+ trace →
      m.ends? i = some outcome → ∃ cycle since start earlier, before = since ++ start :: earlier ∧
        CompleteCycle i cycle start since m outcome) ∧
    (0 < e.interval.nanos → ∀ limit done, ∃ next, Execution e next (e.runUntil limit done) ∧
      ∀ m ∈ next, m.OnTime) := by
  have hfeeds := (ownFeeds_of_tasks tasks_new).of_execution h
  refine ⟨?_, ?_, ?_, ?_, ?_⟩
  · intro i hcurrent
    refine ⟨?_, fun a later hact hstop hstarts => (task_act hact hstop hstarts).trans hcurrent⟩
    have hrun := oneRun_of_execution oneRun_new h
    obtain ⟨t, -, hstep⟩ := (hrun.live_iff (recorded_of_execution tasks_new h)).mpr hcurrent
    obtain ⟨later, hlater⟩ := Option.isSome_iff_exists.mp hstep
    obtain ⟨phase, _, hphase, -⟩ := phaseStep_of_stepTask hlater
    exact goesOn_of_phase? tasks_new oneRun_new h htime hphase
  · intro m before i hsuffix
    exact begins_of_onTime tasks_new h htime hsuffix
  · intro i phase cycle hphase hcycle
    obtain ⟨since, start, earlier, htrace, hcurrent, -⟩ :=
      (Trace.leadsTo_iff hcycle).mp (leadsTo_of_execution tasks_new h hphase)
    exact ⟨hfeeds i phase hphase, since, start, earlier, htrace, hcurrent⟩
  · intro m before i outcome hsuffix
    exact completeCycle_of_ends tasks_new h hsuffix
  · intro hinterval limit done
    exact exists_onTime_runUntil limit done e hfeeds hinterval

end

/-- A feed breaks down in the first cycle, and the interval is changed in the pause after it. -/
def brokenThenOn : List (Action ScriptedFeed) :=
  [.start, .stepTask 0, .stepTask 0, .stepTask 0,
    .changeFeed 0 fun feed => { feed with fault := some .silentBreakdown }, .stepTask 0,
    .setInterval (.ofSeconds 60), .wait 5000000000, .stepTask 0]

/-- The next cycle begins when the five seconds are over that were set at the end of the first. -/
theorem polling_of_brokenThenOn :
    ∃ (m d : Moment ScriptedFeed) (between before : Trace ScriptedFeed) (e : Engine ScriptedFeed),
      Execution bitcoinEngine (m :: (between ++ d :: before)) e ∧
      (∀ x ∈ m :: (between ++ d :: before), x.OnTime) ∧ e.task = some 0 ∧ e.GoesOn 0 ∧
      m.begins 0 = true ∧ m.engine.now = 5000000000 ∧ m.engine.interval = .ofSeconds 60 ∧
      Trace.PausesUntil 0 (between ++ d :: before) m.engine.now ∧
      d.ends? 0 = some (.broken .silentBreakdown) ∧ ∃ cycle since start earlier,
        before = since ++ start :: earlier ∧
          CompleteCycle 0 cycle start since d (.broken .silentBreakdown) := by
  obtain ⟨m, d, between, before, e, hperformed, htime, hcurrent, hbegins, hnow, hinterval, hsteps,
    hends⟩ : ∃ (m d : Moment ScriptedFeed) (between before : Trace ScriptedFeed)
      (e : Engine ScriptedFeed),
      bitcoinEngine.perform brokenThenOn = some (m :: (between ++ d :: before), e) ∧
      (∀ x ∈ m :: (between ++ d :: before), x.OnTime) ∧ e.task = some 0 ∧
      m.begins 0 = true ∧ m.engine.now = 5000000000 ∧ m.engine.interval = .ofSeconds 60 ∧
      d.steps 0 = true ∧ d.ends? 0 = some (.broken .silentBreakdown) :=
    ⟨_, _, [_, _], _, _, rfl, by decide, rfl, rfl, rfl, rfl, rfl, rfl⟩
  have h := execution_of_perform hperformed
  obtain ⟨hgoes, hcadence, -, hcycles, -⟩ := polling_onTime h htime
  refine ⟨m, d, between, before, e, h, htime, hcurrent, (hgoes 0 hcurrent).1, hbegins, hnow,
    hinterval, ?_, hends, hcycles d before 0 _ ?_ hends⟩
  · refine (hcadence m _ 0 List.suffix_rfl hbegins).resolve_left fun hnone => ?_
    simp [hnone d (by simp)] at hsteps
  · exact ⟨m :: between, by simp⟩

end Engine

end ExchangeRates

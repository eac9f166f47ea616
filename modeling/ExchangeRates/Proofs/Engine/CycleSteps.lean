import ExchangeRates.Proofs.Engine.Reports

namespace ExchangeRates

/-- How a cycle ends. -/
inductive CycleEnd where
  | refreshed
  | failed (error : RateError)
  | broken (fault : Fault)

namespace Phase

/-- The cycle that a task is in. -/
def cycle? : Phase → Option Cycle
  | .spawned | .sleeping _ => none
  | .atGate cycle _ | .fetching cycle _ => some cycle

/-- When the pause of a task ends. -/
def pause? : Phase → Option Instant
  | .sleeping t => some t
  | .spawned | .atGate .. | .fetching .. => none

/-- A bound on the steps that are left of a cycle. -/
def stepsLeft : Phase → Nat
  | .spawned | .sleeping _ => 0
  | .atGate cycle gate => gate.waiting.length + cycle.feeds.length + 2
  | .fetching _ requests => (requests.countP fun r => r.answer.isNone) + 1

/-- A bound on the steps of a cycle of some feeds. -/
def stepsOf (feeds : List FeedId) : Nat := 2 * feeds.length + 2

/-- A task waits for the feeds of its cycle, in their order, and asks each of them that there is;
there are `known` feeds. -/
def OwnFeeds (known : Nat) : Phase → Prop
  | .atGate cycle gate => gate.waiting <:+ cycle.feeds
  | .fetching cycle requests => requests.map Fetch.feed = cycle.feeds.filter (· < known)
  | .spawned | .sleeping _ => True

theorem OwnFeeds.stepsLeft_le {known : Nat} {phase : Phase} {cycle : Cycle}
    (h : phase.OwnFeeds known) (hcycle : phase.cycle? = some cycle) :
    phase.stepsLeft ≤ stepsOf cycle.feeds := by
  cases phase with
  | spawned | sleeping _ => cases hcycle
  | atGate _ gate =>
    obtain rfl := Option.some.inj hcycle
    have hwaiting := List.IsSuffix.length_le h
    simp only [stepsLeft, stepsOf]
    omega
  | fetching captured requests =>
    obtain rfl := Option.some.inj hcycle
    have hunanswered := List.countP_le_length (p := fun r : Fetch => r.answer.isNone)
      (l := requests)
    have hrequests : requests.length ≤ captured.feeds.length := by
      rw [← List.length_map (f := Fetch.feed), h]
      exact List.length_filter_le ..
    simp only [stepsLeft, stepsOf]
    omega

end Phase

namespace Engine

variable {φ : Type}

theorem phase?_eq_some_iff {e : Engine φ} {i : Nat} {phase : Phase} : e.phase? i = some phase ↔
    ∃ task, e.tasks[i]? = some task ∧ task.aborted = false ∧ task.phase = phase := by
  simp only [phase?, Option.map_eq_some_iff, Option.filter_eq_some_iff, Bool.not_eq_true',
    and_assoc]

/-- The cycle that the task `i` is in, unless it has been ended. -/
def cycle? (e : Engine φ) (i : Nat) : Option Cycle := (e.phase? i).bind Phase.cycle?

/-- Every task keeps to the feeds of its cycle. -/
def OwnFeeds (e : Engine φ) : Prop :=
  ∀ i phase, e.phase? i = some phase → phase.OwnFeeds e.feeds.length

theorem ownFeeds_of_tasks {e : Engine φ} (h : e.tasks = []) : e.OwnFeeds := by
  intro i phase hphase
  simp [phase?, h] at hphase

variable [PriceFeed φ]

/-- How the next step of the task `i` ends its cycle, if it does. -/
def ends? (e : Engine φ) (i : Nat) : Option CycleEnd :=
  match e.phase? i with
  | some (.fetching cycle requests) =>
    match Fetch.step e.feeds e.now requests with
    | some (_, .error fault) => some (.broken fault)
    | some (_, .ok _) => none
    | none => (Fetch.answers? requests).map fun answers =>
      match e.book.refresh e.now cycle.config answers with
      | .error error => .failed error
      | .ok _ => .refreshed
  | _ => none

/-- What a step of the task `i` makes of its phase. -/
inductive PhaseStep (e : Engine φ) (i : Nat) (phase : Phase) : Phase → Prop
  | begin (hidle : phase.cycle? = none) (hdue : ∀ t, phase = .sleeping t → t ≤ e.now)
    (hends : e.ends? i = none) :
    PhaseStep e i phase (.atGate ⟨e.registered, e.config⟩
      (.begin e.now e.settings.gateTimeout e.registered))
  | goOn {cycle : Cycle} {next : Phase} (hcycle : phase.cycle? = some cycle)
    (hnext : next.cycle? = some cycle) (hends : e.ends? i = none)
    (hless : next.stepsLeft < phase.stepsLeft)
    (hfeeds : phase.OwnFeeds e.feeds.length → next.OwnFeeds e.feeds.length) :
    PhaseStep e i phase next
  | finish {cycle : Cycle} {outcome : CycleEnd} (hcycle : phase.cycle? = some cycle)
    (hends : e.ends? i = some outcome) :
    PhaseStep e i phase (.sleeping (e.now + e.interval.nanos))

section

variable {e later : Engine φ} {a : Action φ} {i : Nat} {task : PollTask} {phase next : Phase}

theorem PhaseStep.ownFeeds (h : e.PhaseStep i phase next)
    (hphase : phase.OwnFeeds e.feeds.length) : next.OwnFeeds e.feeds.length := by
  cases h with
  | begin _ _ _ => exact List.suffix_rfl
  | goOn _ _ _ _ hfeeds => exact hfeeds hphase
  | finish _ _ => trivial

theorem stepsLeft_begin_lt {cycle : Cycle} (now : Instant) (feeds : List φ) (gate : Gate) :
    (Phase.fetching cycle (Fetch.begin now feeds cycle.feeds)).stepsLeft <
      (Phase.atGate cycle gate).stepsLeft := by
  have hanswers := List.countP_le_length (p := fun r : Fetch => r.answer.isNone)
    (l := Fetch.begin now feeds cycle.feeds)
  have hrequests : (Fetch.begin now feeds cycle.feeds).length ≤ cycle.feeds.length :=
    List.length_filterMap_le ..
  simp only [Phase.stepsLeft]
  omega

theorem ends?_eq_none (hphase : e.phase? i = some phase)
    (hnot : ∀ cycle requests, phase ≠ .fetching cycle requests) : e.ends? i = none := by
  unfold ends?
  rw [hphase]
  split
  · next hfetching => exact absurd (Option.some.inj hfetching) (hnot _ _)
  · rfl

theorem ends?_of_idle (hphase : e.phase? i = some phase)
    (hidle : phase = .spawned ∨ ∃ t ≤ e.now, phase = .sleeping t) : e.ends? i = none := by
  refine ends?_eq_none hphase ?_
  obtain rfl | ⟨t, -, rfl⟩ := hidle <;> simp

theorem ends?_of_answer {cycle : Cycle} {requests answered : List Fetch} {feeds : List φ}
    (hphase : e.phase? i = some (.fetching cycle requests))
    (hstep : Fetch.step e.feeds e.now requests = some (feeds, .ok answered)) :
    e.ends? i = none := by
  simp only [ends?, hphase, hstep]

theorem ends?_of_breakDown {cycle : Cycle} {requests : List Fetch} {feeds : List φ} {fault : Fault}
    (hphase : e.phase? i = some (.fetching cycle requests))
    (hstep : Fetch.step e.feeds e.now requests = some (feeds, .error fault)) :
    e.ends? i = some (.broken fault) := by
  simp only [ends?, hphase, hstep]

theorem ends?_of_error {cycle : Cycle} {requests : List Fetch} {answers : List (String × Answer)}
    {error : RateError} (hphase : e.phase? i = some (.fetching cycle requests))
    (hanswers : Fetch.answers? requests = some answers)
    (hrefresh : e.book.refresh e.now cycle.config answers = .error error) :
    e.ends? i = some (.failed error) := by
  simp only [ends?, hphase, Fetch.step_of_answers? hanswers, hanswers, Option.map_some, hrefresh]

theorem ends?_of_ok {cycle : Cycle} {requests : List Fetch} {answers : List (String × Answer)}
    {refreshed : RateBook × RefreshResult}
    (hphase : e.phase? i = some (.fetching cycle requests))
    (hanswers : Fetch.answers? requests = some answers)
    (hrefresh : e.book.refresh e.now cycle.config answers = .ok refreshed) :
    e.ends? i = some .refreshed := by
  simp only [ends?, hphase, Fetch.step_of_answers? hanswers, hanswers, Option.map_some, hrefresh]

/-- A step of a task begins a cycle, goes on with it or ends it. -/
theorem TaskStep.phaseStep (htask : e.tasks[i]? = some task) (halive : task.aborted = false)
    (h : e.TaskStep i task later) :
    ∃ next, e.PhaseStep i task.phase next ∧
      later.tasks = e.tasks.modify i fun t => { t with phase := next } := by
  have hcurrent := phase?_of_alive htask halive
  cases h with
  | begin hphase =>
    refine ⟨_, .begin ?_ ?_ (ends?_of_idle hcurrent hphase), rfl⟩
    · obtain hphase | ⟨t, -, hphase⟩ := hphase <;> rw [hphase] <;> rfl
    · obtain hphase | ⟨t, ht, hphase⟩ := hphase
      · simp [hphase]
      · simpa [hphase] using ht
  | pass hphase hstep =>
    obtain ⟨id, hwaiting⟩ := Gate.exists_waiting_eq_cons_of_step hstep
    have hends : e.ends? i = none := ends?_eq_none hcurrent (by simp [hphase])
    rw [hphase]
    refine ⟨_, .goOn rfl rfl hends ?_ fun hfeeds => ?_, rfl⟩
    · simp only [Phase.stepsLeft, hwaiting, List.length_cons]
      omega
    · rw [Phase.OwnFeeds, hwaiting] at hfeeds
      exact (List.suffix_cons ..).trans hfeeds
  | @ask cycle gate hphase _ =>
    have hends : e.ends? i = none := ends?_eq_none hcurrent (by simp [hphase])
    rw [hphase]
    refine ⟨_, .goOn rfl rfl hends (stepsLeft_begin_lt e.now e.feeds gate) fun _ => ?_, rfl⟩
    exact Fetch.map_feed_begin ..
  | answer hphase hstep =>
    rw [hphase] at hcurrent ⊢
    have hcount := Fetch.countP_of_step hstep
    refine ⟨_, .goOn rfl rfl (ends?_of_answer hcurrent hstep) ?_ fun hfeeds => ?_, rfl⟩
    · simp only [Phase.stepsLeft]
      omega
    · exact (Fetch.step_ok hstep).1.trans hfeeds
  | breakDown hphase hstep =>
    rw [hphase] at hcurrent ⊢
    exact ⟨_, .finish rfl (ends?_of_breakDown hcurrent hstep), rfl⟩
  | fail hphase hanswers hrefresh =>
    rw [hphase] at hcurrent ⊢
    exact ⟨_, .finish rfl (ends?_of_error hcurrent hanswers hrefresh), rfl⟩
  | refresh hphase hanswers hrefresh =>
    rw [hphase] at hcurrent ⊢
    exact ⟨_, .finish rfl (ends?_of_ok hcurrent hanswers hrefresh), rfl⟩

theorem phaseStep_of_stepTask (h : e.stepTask i = some later) :
    ∃ phase next, e.phase? i = some phase ∧ e.PhaseStep i phase next ∧
      later.phase? i = some next := by
  obtain ⟨task, htask, halive, hstep⟩ := taskStep_of_stepTask h
  obtain ⟨next, hnext, htasks⟩ := hstep.phaseStep htask halive
  refine ⟨task.phase, next, phase?_of_alive htask halive, hnext, ?_⟩
  have hreached : later.tasks[i]? = some { task with phase := next } := by
    rw [htasks, List.getElem?_modify_eq, htask]
    rfl
  exact phase?_eq_some_iff.mpr ⟨_, hreached, halive, rfl⟩

/-- What a task is doing after an action: it has just begun, does what it did, or has taken a step.
-/
theorem phase?_act (hact : e.act a = some later) (hnext : later.phase? i = some next) :
    (e.tasks[i]? = none ∧ a ≠ .stepTask i ∧ next = .spawned) ∨
    (a ≠ .stepTask i ∧ e.phase? i = some next) ∨
    (a = .stepTask i ∧ ∃ phase, e.phase? i = some phase ∧ e.PhaseStep i phase next) := by
  obtain ⟨task, htask, halive, rfl⟩ := phase?_eq_some_iff.mp hnext
  obtain ⟨hstarts, hi, hspawned⟩ | ⟨hne, old, hold, hphase, halone⟩ | ⟨rfl, -⟩ :=
    (effect_of_act hact).task_cases htask
  · refine .inl ⟨List.getElem?_eq_none (Nat.le_of_eq hi.symm), ?_, hspawned⟩
    rintro rfl
    cases hstarts
  · rw [hphase]
    exact .inr (.inl ⟨hne, phase?_of_alive hold (halone halive)⟩)
  · obtain ⟨phase, reached, hphase, hstep, hreached⟩ := phaseStep_of_stepTask hact
    obtain rfl := Option.some.inj (hreached.symm.trans hnext)
    exact .inr (.inr ⟨rfl, phase, hphase, hstep⟩)

theorem OwnFeeds.act (h : e.OwnFeeds) (hact : e.act a = some later) : later.OwnFeeds := by
  intro i next hnext
  rw [(effect_of_act hact).length_feeds]
  obtain ⟨-, -, rfl⟩ | ⟨-, hphase⟩ | ⟨-, phase, hphase, hstep⟩ := phase?_act hact hnext
  · trivial
  · exact h i next hphase
  · exact hstep.ownFeeds (h i phase hphase)

theorem OwnFeeds.of_execution {trace : Trace φ} (h : e.OwnFeeds)
    (hexecution : Execution e trace later) : later.OwnFeeds :=
  hexecution.invariant h OwnFeeds.act

end

end Engine

end ExchangeRates

import ExchangeRates.Proofs.Engine.Effect
import ExchangeRates.Proofs.Fetch

namespace ExchangeRates

def Phase.isIdle : Phase → Bool
  | .spawned | .sleeping _ => true
  | .atGate .. | .fetching .. => false

namespace Engine

variable {φ : Type}

/-- Whether a step begins a cycle of the task `i`. -/
def Moment.begins (i : Nat) (m : Moment φ) : Bool :=
  match m.action with
  | .stepTask j => j == i && m.engine.tasks[i]?.any fun task => task.phase.isIdle
  | _ => false

/-- The engine as it was when the latest cycle of the task `i` began. -/
def Trace.cycleStart? (i : Nat) (trace : Trace φ) : Option (Engine φ) :=
  (trace.find? (Moment.begins i)).map Moment.engine

/-- The moments after the latest cycle of the task `i` began. -/
def Trace.sinceStart (i : Nat) (trace : Trace φ) : Trace φ :=
  trace.takeWhile fun m => !m.begins i

/-- The feed that the next step of the task `i` has an answer of. -/
def asked? (e : Engine φ) (i : Nat) : Option FeedId :=
  e.tasks[i]?.bind fun task =>
    match task.phase with
    | .fetching _ requests => Fetch.asked? e.now requests
    | _ => none

/-- A cycle is the latest that the task `i` has begun. -/
def Trace.HasBegun (i : Nat) (trace : Trace φ) (cycle : Cycle) : Prop :=
  ∃ start, trace.cycleStart? i = some start ∧ cycle = ⟨start.registered, start.config⟩

section

variable {trace : Trace φ} {e : Engine φ} {a : Action φ} {m : Moment φ} {i : Nat} {cycle : Cycle}

theorem begins_of_ne (h : a ≠ .stepTask i) : (⟨e, a⟩ : Moment φ).begins i = false := by
  cases a <;> simp_all [Moment.begins]

theorem begins_stepTask {task : PollTask} (htask : e.tasks[i]? = some task) :
    (⟨e, .stepTask i⟩ : Moment φ).begins i = task.phase.isIdle := by
  simp [Moment.begins, htask]

theorem Trace.HasBegun.cons (h : trace.HasBegun i cycle) (hm : m.begins i = false) :
    Trace.HasBegun i (m :: trace) cycle := by
  obtain ⟨start, hstart, hcycle⟩ := h
  refine ⟨start, ?_, hcycle⟩
  rw [cycleStart?, List.find?_cons_of_neg (by simp [hm])]
  exact hstart

theorem Trace.mem_sinceStart_cons (hm : m.begins i = false) {d : Moment φ}
    (hd : d = m ∨ d ∈ trace.sinceStart i) : d ∈ Trace.sinceStart i (m :: trace) := by
  have hcons : Trace.sinceStart i (m :: trace) = m :: trace.sinceStart i := by
    simp [sinceStart, hm]
  rw [hcons]
  exact List.mem_cons.mpr hd

theorem phase_of_setPhase {phase : Phase} {task : PollTask}
    (h : (e.setPhase i phase).tasks[i]? = some task) : task.phase = phase := by
  simp only [setPhase, List.getElem?_modify_eq] at h
  obtain ⟨old, -, rfl⟩ := Option.map_eq_some_iff.mp h
  rfl

end

theorem length_foldl_updateFeed (ids : List FeedId) (f : φ → φ) (feeds : List φ) :
    (ids.foldl (fun feeds id => updateFeed feeds id f) feeds).length = feeds.length := by
  induction ids generalizing feeds with
  | nil => rfl
  | cons id ids ih =>
    rw [List.foldl_cons, ih]
    exact List.length_modify ..

variable [PriceFeed φ]

/-- At a moment, a feed gives the task `i` an answer under its name. -/
def Moment.Delivers (i : Nat) (m : Moment φ) (id : FeedId) (answer : String × Answer) : Prop :=
  m.action = .stepTask i ∧ m.engine.asked? i = some id ∧
    ∃ feed, m.engine.feeds[id]? = some feed ∧ PriceFeed.name feed = answer.1 ∧
      (PriceFeed.fetch feed).2 = .ok answer.2

/-- A feed gave an answer in the latest cycle of the task `i`. -/
def Trace.Delivers (i : Nat) (trace : Trace φ) (id : FeedId) (answer : String × Answer) : Prop :=
  ∃ m ∈ trace.sinceStart i, m.Delivers i id answer

/-- What the task `i` has captured is what it met on its way. -/
def Trace.Records (i : Nat) (trace : Trace φ) (feeds : Nat) : Phase → Prop
  | .atGate cycle _ => trace.HasBegun i cycle
  | .fetching cycle requests =>
    trace.HasBegun i cycle ∧ requests.map Fetch.feed = cycle.feeds.filter (· < feeds) ∧
      ∀ request ∈ requests, ∀ answer, request.answer = some answer →
        trace.Delivers i request.feed answer
  | .spawned | .sleeping _ => True

/-- What all tasks have captured is what they met on their way. -/
def Recorded (trace : Trace φ) (e : Engine φ) : Prop :=
  ∀ i task, e.tasks[i]? = some task → trace.Records i e.feeds.length task.phase

section

variable {trace : Trace φ} {m : Moment φ} {i n : Nat} {phase : Phase}

theorem Trace.Delivers.cons {id : FeedId} {answer : String × Answer}
    (h : trace.Delivers i id answer) (hm : m.begins i = false) :
    Trace.Delivers i (m :: trace) id answer := by
  obtain ⟨d, hd, hdelivers⟩ := h
  exact ⟨d, mem_sinceStart_cons hm (.inr hd), hdelivers⟩

/-- A moment that begins no cycle of a task changes nothing of what it has captured. -/
theorem Trace.Records.cons (h : trace.Records i n phase) (hm : m.begins i = false) :
    Trace.Records i (m :: trace) n phase := by
  cases phase with
  | spawned => trivial
  | sleeping t => trivial
  | atGate cycle gate => exact Trace.HasBegun.cons h hm
  | fetching cycle requests =>
    obtain ⟨hbegun, hfeeds, hanswers⟩ := h
    refine ⟨hbegun.cons hm, hfeeds, ?_⟩
    intro request hrequest answer hanswer
    exact (hanswers request hrequest answer hanswer).cons hm

end

variable {trace : Trace φ} {e later : Engine φ} {a : Action φ} {i : Nat}

theorem Effect.length_feeds (h : e.Effect a later) : later.feeds.length = e.feeds.length := by
  cases h with
  | quiet _ _ _ => rfl
  | resolve _ => rfl
  | startRun _ =>
    exact (length_foldl_updateFeed ..).trans (length_foldl_updateFeed ..)
  | stop => exact length_foldl_updateFeed ..
  | changeFeed => exact List.length_modify ..
  | stepFeeds => simp [wakeFeeds]
  | stepTask htask _ hstep =>
    cases hstep with
    | answer _ hfetch => exact Fetch.length_feeds_of_step hfetch
    | breakDown _ hfetch => exact Fetch.length_feeds_of_step hfetch
    | _ => rfl

/-- An action begins a task, lets the task `i` be, unless it ends it, or is a step of it. -/
theorem Effect.task_cases (h : e.Effect a later) {task : PollTask}
    (htask : later.tasks[i]? = some task) :
    (e.startsRun a = true ∧ i = e.tasks.length ∧ task.phase = .spawned) ∨
    (a ≠ .stepTask i ∧ ∃ old, e.tasks[i]? = some old ∧ task.phase = old.phase ∧
      (task.aborted = false → old.aborted = false)) ∨
    (a = .stepTask i ∧ ∃ old, e.tasks[i]? = some old ∧ old.aborted = false ∧
      task.aborted = false ∧ e.TaskStep i old later) := by
  have hended {t : PollTask} (ht : e.endedTasks[i]? = some t) :
      ∃ old, e.tasks[i]? = some old ∧ t.phase = old.phase ∧
        (t.aborted = false → old.aborted = false) := by
    rw [getElem?_endedTasks] at ht
    obtain ⟨old, hold, rfl⟩ := Option.map_eq_some_iff.mp ht
    refine ⟨old, hold, ?_⟩
    split <;> simp
  cases h with
  | quiet _ _ hnoStep =>
    exact .inr (.inl ⟨fun ha => by simp [ha, Action.isStepTask] at hnoStep, task, htask, rfl, id⟩)
  | resolve hresolves =>
    exact .inr (.inl ⟨fun ha => by simp [ha, resolves?] at hresolves, task, htask, rfl, id⟩)
  | startRun hstarts =>
    rcases Nat.lt_or_ge i e.endedTasks.length with hi | hi
    · rw [List.getElem?_append_left hi] at htask
      exact .inr (.inl ⟨fun ha => by simp [ha, startsRun] at hstarts, hended htask⟩)
    · rw [List.getElem?_append_right hi, List.getElem?_singleton] at htask
      simp only [Option.ite_none_right_eq_some, Option.some.injEq] at htask
      rw [length_endedTasks] at hi htask
      exact .inl ⟨hstarts, by omega, by rw [← htask.2]⟩
  | stop => exact .inr (.inl ⟨by simp, hended htask⟩)
  | changeFeed => exact .inr (.inl ⟨by simp, task, htask, rfl, id⟩)
  | stepFeeds => exact .inr (.inl ⟨by simp, task, htask, rfl, id⟩)
  | @stepTask j old _ hold halive hstep =>
    have hframe := hstep.frame
    by_cases hj : j = i
    · subst hj
      refine .inr (.inr ⟨rfl, old, hold, halive, ?_, hstep⟩)
      obtain ⟨_, _, _, _, _, phase, rfl⟩ := hframe
      simp only [List.getElem?_modify_eq, hold] at htask
      obtain rfl := Option.some.inj htask
      exact halive
    · obtain ⟨_, _, _, _, _, phase, rfl⟩ := hframe
      refine .inr (.inl ⟨by simpa using hj, task, ?_, rfl, id⟩)
      simpa [hj] using htask

theorem records_of_taskStep {task next : PollTask} (htask : e.tasks[i]? = some task)
    (h : trace.Records i e.feeds.length task.phase) (hstep : e.TaskStep i task later)
    (hnext : later.tasks[i]? = some next) :
    Trace.Records i (⟨e, .stepTask i⟩ :: trace) e.feeds.length next.phase := by
  have hm := begins_stepTask htask
  cases hstep with
  | begin hphase =>
    have hidle : task.phase.isIdle = true := by
      obtain hphase | ⟨t, -, hphase⟩ := hphase <;> rw [hphase] <;> rfl
    rw [phase_of_setPhase hnext]
    refine ⟨e, ?_, rfl⟩
    rw [Trace.cycleStart?, List.find?_cons_of_pos (hm.trans hidle)]
    rfl
  | pass hphase _ =>
    rw [hphase] at h hm
    rw [phase_of_setPhase hnext]
    exact Trace.HasBegun.cons h hm
  | ask hphase _ =>
    rw [hphase] at h hm
    rw [phase_of_setPhase hnext]
    refine ⟨Trace.HasBegun.cons h hm, Fetch.map_feed_begin .., ?_⟩
    intro request hrequest answer hanswer
    rw [Fetch.answer_of_mem_begin hrequest] at hanswer
    simp at hanswer
  | answer hphase hfetch =>
    rw [hphase] at h hm
    rw [phase_of_setPhase hnext]
    obtain ⟨hbegun, hfeeds, hanswers⟩ := h
    obtain ⟨hsame, hnew⟩ := Fetch.step_ok hfetch
    refine ⟨hbegun.cons hm, hsame.trans hfeeds, ?_⟩
    intro request hrequest answer hanswer
    -- an answer is an earlier one, or this moment delivers it
    obtain hold | ⟨hasked, feed, given, hfeed, hgiven, heq⟩ := hnew request hrequest
    · exact (hanswers request hold answer hanswer).cons hm
    · obtain rfl : (PriceFeed.name feed, given) = answer := Option.some.inj (heq.symm.trans hanswer)
      refine ⟨_, Trace.mem_sinceStart_cons hm (.inl rfl), rfl, ?_, feed, hfeed, rfl, hgiven⟩
      simp only [Engine.asked?, htask, Option.bind_some, hphase, hasked]
  | breakDown _ _ => rw [phase_of_setPhase hnext]; trivial
  | fail _ _ _ => rw [phase_of_setPhase hnext]; trivial
  | refresh _ _ _ => rw [phase_of_setPhase hnext]; trivial

theorem recorded_act (h : Recorded trace e) (hact : e.act a = some later) :
    Recorded (⟨e, a⟩ :: trace) later := by
  intro i task htask
  have heffect := effect_of_act hact
  rw [heffect.length_feeds]
  obtain ⟨-, -, hspawned⟩ | ⟨hne, old, hold, hphase, -⟩ | ⟨rfl, old, hold, -, -, hstep⟩ :=
    heffect.task_cases htask
  · rw [hspawned]
    trivial
  · rw [hphase]
    exact (h i old hold).cons (begins_of_ne hne)
  · exact records_of_taskStep hold (h i old hold) hstep htask

/-- At the end of every execution that begins without tasks, what the tasks have captured is what
they met on their way. -/
theorem recorded_of_execution {first : Engine φ} (hfirst : first.tasks = [])
    (h : Execution first trace e) : Recorded trace e := by
  induction h with
  | nil =>
    intro i task htask
    simp [hfirst] at htask
  | act _ hact ih => exact recorded_act ih hact

end Engine

end ExchangeRates

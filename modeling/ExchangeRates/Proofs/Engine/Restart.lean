import ExchangeRates.Proofs.Engine.Effect
import ExchangeRates.Proofs.Feed

namespace ExchangeRates.Engine

variable {φ : Type}

/-- Whether an action converts an amount, which starts an engine that is not started. -/
def Action.converts : Action φ → Bool
  | .askDollars .. | .askConversion .. => true
  | _ => false

/-- No call in a trace starts or stops the engine, apart from conversions. -/
def Trace.LeavesRun (trace : Trace φ) : Prop :=
  ∀ m ∈ trace, m.action ≠ .start ∧ m.action ≠ .stop

/-- No conversion in a trace was made where tasks can run in the background. -/
def Trace.ConvertsInVain (trace : Trace φ) : Prop :=
  ∀ m ∈ trace, m.action.converts = true → m.engine.runtime = false

theorem Trace.convertsInVain_cons {m : Moment φ} {trace : Trace φ} :
    Trace.ConvertsInVain (m :: trace) ↔
      (m.action.converts = true → m.engine.runtime = false) ∧ trace.ConvertsInVain := by
  simp [ConvertsInVain]

/-- Of the actions that begin a run, a start apart, each is a conversion of an engine that is
stopped, where tasks can run. -/
theorem startsRun_iff_of_ne {e : Engine φ} {a : Action φ} (h : a ≠ .start) :
    e.startsRun a = true ↔ a.converts = true ∧ e.started = false ∧ e.runtime = true := by
  cases a <;> simp_all [startsRun, Action.converts]

variable [PriceFeed φ]

/-- A feed that is listed some number of times, after a start. -/
def restartedFeed (now : Instant) (times : Nat) (feed : φ) : φ :=
  if times = 0 then feed else PriceFeed.start now (PriceFeed.stop^[times] feed)

/-- An engine has begun a new run, and nothing else of it has changed. -/
structure Restarted (e later : Engine φ) : Prop where
  feeds : ∀ id, later.feeds[id]? = e.feeds[id]?.map (restartedFeed e.now (e.registered.count id))
  running : ∀ feed ∈ later.registeredFeeds, PriceFeed.started feed = true
  earlier : ∀ i task, e.tasks[i]? = some task →
    later.tasks[i]? = some (if e.task = some i then { task with aborted := true } else task)
  length_tasks : later.tasks.length = e.tasks.length + 1
  spawned : later.tasks[e.tasks.length]? = some ⟨.spawned, e.notifiers.length, false⟩
  task : later.task = some e.tasks.length
  notifiers : later.notifiers = e.notifiers ++ [false]
  notifier : later.notifier = e.notifiers.length
  started : later.started = true
  frame : later = { e with
    feeds := later.feeds
    tasks := later.tasks
    task := later.task
    notifiers := later.notifiers
    notifier := later.notifier
    started := later.started
    log := later.log }

/-- An engine goes on as it was, apart from a report that a conversion could not start it. -/
def Undisturbed (e later : Engine φ) : Prop :=
  ∃ start log, later = { e with latches := { e.latches with start }, log } ∧
    (e.started = true ∨ e.runtime = true → start = e.latches.start)

section

variable {e later : Engine φ} {a : Action φ} {trace : Trace φ}

/-- Apart from a start and a stop, an action leaves an engine started that was, and starts one that
was not exactly if it begins a run. -/
theorem started_act (hact : e.act a = some later) (hstop : a ≠ .stop) :
    later.started = true ↔ e.started = true ∨ e.startsRun a = true := by
  cases effect_of_act hact with
  | quiet _ hstarts _ => simp [hstarts]
  | resolve hresolves => simp [startsRun_of_resolves hresolves]
  | startRun hstarts => simp [hstarts]
  | stop => exact absurd rfl hstop
  | changeFeed => simp [changeFeed, startsRun]
  | stepFeeds => simp [startsRun]
  | stepTask _ _ hstep =>
    obtain ⟨_, _, _, _, _, _, rfl⟩ := hstep.frame
    simp [startsRun]

/-- Without a start or a stop, an engine is stopped as long as it was stopped at the beginning and
no conversion could start it. -/
theorem started_eq_false_iff (h : Execution e trace later) (hleaves : trace.LeavesRun) :
    later.started = false ↔ e.started = false ∧ trace.ConvertsInVain := by
  induction h with
  | nil => simp [Trace.ConvertsInVain]
  | @act trace middle later a _ hact ih =>
    have hcalls := List.forall_mem_cons.mp hleaves
    have hmiddle := ih hcalls.2
    rw [Trace.convertsInVain_cons, ← Bool.not_eq_true, started_act hact hcalls.1.2,
      startsRun_iff_of_ne hcalls.1.1, not_or, Bool.not_eq_true, hmiddle]
    constructor
    · rintro ⟨⟨hidle, hvain⟩, hnot⟩
      refine ⟨hidle, fun hconverts => ?_, hvain⟩
      simpa [hconverts, hidle, hvain] using hnot
    · rintro ⟨hidle, hlast, hvain⟩
      refine ⟨⟨hidle, hvain⟩, ?_⟩
      rintro ⟨hconverts, -, hruntime⟩
      exact Bool.false_ne_true ((hlast hconverts).symm.trans hruntime)

end

theorem Restarted.note {e later : Engine φ} (h : e.Restarted later) (events : List LogEvent) :
    e.Restarted (later.note events) where
  feeds := h.feeds
  running := h.running
  earlier := h.earlier
  length_tasks := h.length_tasks
  spawned := h.spawned
  task := h.task
  notifiers := h.notifiers
  notifier := h.notifier
  started := h.started
  frame := congrArg (Engine.note · events) h.frame

variable [LawfulFeed φ]

/-- Starting a feed that has been stopped starts it once, however often it is tried. -/
theorem iterate_startFeed (now : Instant) (times : Nat) (feed : φ) :
    (startFeed now)^[times] (PriceFeed.stop^[times] feed) = restartedFeed now times feed := by
  have honce (n : Nat) (stopped : φ) (hstopped : PriceFeed.started stopped = false) :
      (startFeed now)^[n + 1] stopped = PriceFeed.start now stopped := by
    induction n with
    | zero => simp [startFeed, hstopped]
    | succ n ih =>
      rw [Function.iterate_succ_apply', ih, startFeed,
        if_pos (LawfulFeed.started_start now stopped)]
  cases times with
  | zero => rfl
  | succ n =>
    rw [restartedFeed, if_neg n.succ_ne_zero]
    refine honce n _ ?_
    rw [Function.iterate_succ_apply']
    exact LawfulFeed.started_stop _

theorem getElem?_startedFeeds (e : Engine φ) (id : FeedId) :
    e.startedFeeds[id]? =
      e.feeds[id]?.map (restartedFeed e.now (e.registered.count id)) := by
  rw [startedFeeds, getElem?_foldl_updateFeed, stoppedFeeds, getElem?_foldl_updateFeed,
    Option.map_map]
  congr 1
  funext feed
  exact iterate_startFeed e.now _ feed

theorem restarted_startRun (e : Engine φ) : e.Restarted e.startRun := by
  rw [startRun_eq]
  refine ⟨e.getElem?_startedFeeds, ?_, ?_, ?_, ?_, rfl, rfl, rfl, rfl, rfl⟩
  · intro feed hfeed
    obtain ⟨id, hid, hget⟩ := List.mem_filterMap.mp hfeed
    obtain ⟨before, -, rfl⟩ := Option.map_eq_some_iff.mp
      ((e.getElem?_startedFeeds id).symm.trans hget)
    have hlisted : e.registered.count id ≠ 0 := Nat.pos_iff_ne_zero.mp (List.count_pos_iff.mpr hid)
    rw [restartedFeed, if_neg hlisted]
    exact LawfulFeed.started_start _ _
  · intro i task htask
    have hlt : i < e.endedTasks.length := by
      rw [length_endedTasks]
      exact (List.getElem?_eq_some_iff.mp htask).1
    rw [List.getElem?_append_left hlt, getElem?_endedTasks, htask, Option.map_some]
  · simp [length_endedTasks]
  · rw [← length_endedTasks, List.getElem?_concat_length]

/-- A conversion begins a run if it finds the engine stopped where tasks can run, and otherwise the
engine goes on as it was. -/
theorem startIfIdle_effect (e : Engine φ) (events : List LogEvent) :
    (e.started = false ∧ e.runtime = true → e.Restarted (e.startIfIdle.note events)) ∧
    (¬ (e.started = false ∧ e.runtime = true) → e.Undisturbed (e.startIfIdle.note events)) := by
  obtain ⟨hstarted, heq⟩ | ⟨hstarted, hruntime, heq⟩ | ⟨hstarted, hruntime, start, log, heq⟩ :=
    e.startIfIdle_cases
  · rw [heq]
    refine ⟨fun h => by simp [hstarted] at h, fun _ => ?_⟩
    exact ⟨e.latches.start, _, rfl, fun _ => rfl⟩
  · rw [heq]
    exact ⟨fun _ => e.restarted_startRun.note events, fun h => absurd ⟨hstarted, hruntime⟩ h⟩
  · rw [heq]
    refine ⟨fun h => by simp [hruntime] at h, fun _ => ⟨start, _, rfl, ?_⟩⟩
    simp [hstarted, hruntime]

/-- A start fails and changes nothing where no task can run in the background, and begins a new run
where one can. In an execution without a start or a stop a conversion begins a new run exactly if
the engine was stopped at the beginning, tasks can run, and no conversion before was made where they
could; every other conversion leaves the engine as it was. -/
theorem start_restarts (e : Engine φ) :
    (e.runtime = false → e.start = (.error .noRuntime, e)) ∧
    (e.runtime = true → ∃ later, e.start = (.ok (), later) ∧ e.Restarted later) ∧
    ∀ (after before : Trace φ) (m : Moment φ) (last : Engine φ),
      Execution e (after ++ m :: before) last → Trace.LeavesRun (after ++ m :: before) →
      m.action.converts = true →
      ∃ next, m.engine.act m.action = some next ∧
        (e.started = false ∧ before.ConvertsInVain ∧ m.engine.runtime = true →
          m.engine.Restarted next) ∧
        (¬ (e.started = false ∧ before.ConvertsInVain ∧ m.engine.runtime = true) →
          m.engine.Undisturbed next) := by
  refine ⟨fun hruntime => by simp [start, hruntime], fun hruntime => ?_, ?_⟩
  · exact ⟨e.startRun, by simp [start, hruntime], e.restarted_startRun⟩
  intro after before m last h hleaves hconverts
  obtain ⟨hbefore, next, hact, -⟩ := h.split
  have hcalls : before.LeavesRun := fun d hd => hleaves d (by simp [hd])
  rw [← and_assoc, ← started_eq_false_iff hbefore hcalls]
  refine ⟨next, hact, ?_⟩
  obtain ⟨events, rfl⟩ : ∃ events, next = m.engine.startIfIdle.note events := by
    cases ha : m.action with
    | askDollars | askConversion => exact ⟨_, (Option.some.inj (ha ▸ hact)).symm⟩
    | _ => simp [ha, Action.converts] at hconverts
  exact m.engine.startIfIdle_effect events

/-- An engine over two feeds, the first of which runs already and is listed twice. -/
def repeatedFeedEngine (runtime : Bool) : Engine ScriptedFeed :=
  new .default (.lists ⟨[["BTC", "one"]], []⟩) [(ScriptedFeed.new "one").start, .new "other"]
    [0, 1, 0] .empty runtime

/-- The feed that is listed twice is stopped twice and started once. Of three conversions, the first
of which is made where no task can run, the second begins a run. -/
theorem start_of_repeatedFeed :
    (repeatedFeedEngine false).start = (.error .noRuntime, repeatedFeedEngine false) ∧
    (∃ later, (repeatedFeedEngine true).start = (.ok (), later) ∧
      (repeatedFeedEngine true).Restarted later ∧
      later.feeds.map (fun feed => (feed.starts, feed.stops)) = [(2, 2), (1, 1)]) ∧
    ∃ s₁ s₂ s₃ last, Execution (repeatedFeedEngine false)
        [⟨s₃, .askDollars "btc" 2.0 none⟩, ⟨s₂, .askConversion 1.0 "btc" "eth" none⟩,
          ⟨s₁, .setRuntime true⟩, ⟨repeatedFeedEngine false, .askDollars "btc" 1.0 none⟩] last ∧
      (repeatedFeedEngine false).Undisturbed s₁ ∧ s₂.Restarted s₃ ∧ s₃.Undisturbed last := by
  obtain ⟨hfails, -, hconverts⟩ := start_restarts (repeatedFeedEngine false)
  obtain ⟨-, hstarts, -⟩ := start_restarts (repeatedFeedEngine true)
  refine ⟨hfails rfl, ?_, ?_⟩
  · obtain ⟨later, hlater, hrestarted⟩ := hstarts rfl
    refine ⟨later, hlater, hrestarted, ?_⟩
    obtain rfl : (repeatedFeedEngine true).start.2 = later := congrArg Prod.snd hlater
    decide
  let s₁ := ((repeatedFeedEngine false).askDollars "btc" 1.0 none).2
  let s₂ : Engine ScriptedFeed := { s₁ with runtime := true }
  let s₃ := (s₂.askConversion 1.0 "btc" "eth" none).2
  let first : Moment ScriptedFeed := ⟨repeatedFeedEngine false, .askDollars "btc" 1.0 none⟩
  let allow : Moment ScriptedFeed := ⟨s₁, .setRuntime true⟩
  let second : Moment ScriptedFeed := ⟨s₂, .askConversion 1.0 "btc" "eth" none⟩
  let third : Moment ScriptedFeed := ⟨s₃, .askDollars "btc" 2.0 none⟩
  have h : Execution (repeatedFeedEngine false) [third, second, allow, first]
      (s₃.askDollars "btc" 2.0 none).2 :=
    (((Execution.nil.act rfl).act (a := .setRuntime true) rfl).act rfl).act rfl
  have hleaves : Trace.LeavesRun [third, second, allow, first] := by
    simp [Trace.LeavesRun, third, second, allow, first]
  obtain ⟨_, hfirst, -, hfailed⟩ := hconverts [third, second, allow] [] first _ h hleaves rfl
  obtain ⟨_, hsecond, hbegun, -⟩ := hconverts [third] [allow, first] second _ h hleaves rfl
  obtain ⟨_, hthird, -, hkept⟩ := hconverts [] [second, allow, first] third _ h hleaves rfl
  obtain rfl := Option.some.inj hfirst
  obtain rfl := Option.some.inj hsecond
  obtain rfl := Option.some.inj hthird
  refine ⟨s₁, s₂, s₃, _, h, hfailed ?_, hbegun ⟨rfl, ?_, rfl⟩, hkept ?_⟩
  · rintro ⟨-, -, hruntime⟩
    exact Bool.false_ne_true hruntime
  · rw [Trace.convertsInVain_cons, Trace.convertsInVain_cons]
    exact ⟨nofun, fun _ => rfl, by simp [Trace.ConvertsInVain]⟩
  · rintro ⟨-, hvain, -⟩
    exact Bool.false_ne_true (hvain second List.mem_cons_self rfl).symm

end ExchangeRates.Engine

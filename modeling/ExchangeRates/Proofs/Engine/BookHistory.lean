import ExchangeRates.Feed.Scripted
import ExchangeRates.Proofs.Engine.Cycle
import ExchangeRates.Proofs.RateBook.Contents

namespace ExchangeRates.Engine

variable {φ : Type}

/-- The answers of all feeds to a task that has not been ended. -/
def answersTo? (e : Engine φ) (i : Nat) : Option (List (String × Answer)) :=
  e.tasks[i]?.bind fun task =>
    match task.aborted, task.phase with
    | false, .fetching _ requests => Fetch.answers? requests
    | _, _ => none

/-- The end of a cycle of the task `i`, as an event: a refresh with the configuration of the moment
at which the cycle began. -/
def Trace.refreshEvent? (trace : Trace φ) (e : Engine φ) (i : Nat) : Option RateBook.Event :=
  match e.answersTo? i, trace.cycleStart? i with
  | some answers, some start =>
    if RateBook.anyAnswer answers then some (.refresh e.now start.config answers) else none
  | _, _ => none

/-- The event that an action is, after the moments of a trace, if it is one. -/
def Trace.event? (trace : Trace φ) (e : Engine φ) (a : Action φ) : Option RateBook.Event :=
  match e.resolves? a, a with
  | some config, _ => some (.reset config)
  | none, .stepTask i => trace.refreshEvent? e i
  | none, _ => none

/-- The events of an execution, the earliest first. -/
def Trace.events : Trace φ → List RateBook.Event
  | [] => []
  | m :: earlier => events earlier ++ (event? earlier m.engine m.action).toList

def opening (origin : ConfigOrigin) (environment : Environment) : List RateBook.Event :=
  match (origin.load environment).bind fun raw => resolve raw none with
  | .ok config => [.reset config]
  | .error _ => []

section

variable {trace : Trace φ} {e : Engine φ} {a : Action φ} {i : Nat} {task : PollTask}

theorem event?_of_resolves {config : RateConfig} (h : e.resolves? a = some config) :
    trace.event? e a = some (.reset config) := by
  simp only [Trace.event?, h]

theorem event?_of_quiet (h : e.resolves? a = none) (htask : a.isStepTask = false) :
    trace.event? e a = none := by
  cases a <;> simp_all [Trace.event?, Action.isStepTask]

theorem event?_stepTask : trace.event? e (.stepTask i) = trace.refreshEvent? e i := rfl

theorem answersTo?_of_fetching {cycle : Cycle} {requests : List Fetch}
    (htask : e.tasks[i]? = some task) (halive : task.aborted = false)
    (hphase : task.phase = .fetching cycle requests) :
    e.answersTo? i = Fetch.answers? requests := by
  simp only [answersTo?, htask, Option.bind_some, halive, hphase]

theorem exists_fetching_of_answersTo? {answers : List (String × Answer)}
    (h : e.answersTo? i = some answers) :
    ∃ task cycle requests, e.tasks[i]? = some task ∧ task.aborted = false ∧
      task.phase = .fetching cycle requests ∧ Fetch.answers? requests = some answers := by
  obtain ⟨task, htask, hanswers⟩ := Option.bind_eq_some_iff.mp h
  split at hanswers
  · next cycle requests halive hphase =>
    exact ⟨task, cycle, requests, htask, halive, hphase, hanswers⟩
  · simp at hanswers

theorem refreshEvent?_of_none (h : e.answersTo? i = none) : trace.refreshEvent? e i = none := by
  simp only [Trace.refreshEvent?, h]

theorem refreshEvent?_of_some {answers : List (String × Answer)} {start : Engine φ}
    (hanswers : e.answersTo? i = some answers) (hstart : trace.cycleStart? i = some start) :
    trace.refreshEvent? e i =
      if RateBook.anyAnswer answers then some (.refresh e.now start.config answers) else none := by
  simp only [Trace.refreshEvent?, hanswers, hstart]

theorem event?_cases (trace : Trace φ) (e : Engine φ) (a : Action φ) :
    (∃ config, e.resolves? a = some config ∧ trace.event? e a = some (.reset config)) ∨
    (e.resolves? a = none ∧ trace.event? e a = none) ∨
    (e.resolves? a = none ∧ ∃ i answers start, a = .stepTask i ∧
      e.answersTo? i = some answers ∧ trace.cycleStart? i = some start ∧
      RateBook.anyAnswer answers = true ∧ trace.event? e a =
        some (.refresh e.now start.config answers)) := by
  cases hresolves : e.resolves? a with
  | some config => exact .inl ⟨config, rfl, event?_of_resolves hresolves⟩
  | none =>
    cases htask : a.isStepTask with
    | false => exact .inr (.inl ⟨rfl, event?_of_quiet hresolves htask⟩)
    | true =>
      obtain ⟨i, rfl⟩ : ∃ i, a = .stepTask i := by cases a <;> simp_all [Action.isStepTask]
      rw [event?_stepTask]
      cases hanswers : e.answersTo? i with
      | none => exact .inr (.inl ⟨rfl, refreshEvent?_of_none hanswers⟩)
      | some answers =>
        cases hstart : trace.cycleStart? i with
        | none => exact .inr (.inl ⟨rfl, by simp only [Trace.refreshEvent?, hanswers, hstart]⟩)
        | some start =>
          rw [refreshEvent?_of_some hanswers hstart]
          by_cases hany : RateBook.anyAnswer answers = true
          · rw [if_pos hany]
            exact .inr (.inr ⟨rfl, i, answers, start, rfl, hanswers, hstart, hany, rfl⟩)
          · rw [if_neg hany]
            exact .inr (.inl ⟨rfl, rfl⟩)

end

variable {settings : Settings} {origin : ConfigOrigin} {feeds : List φ} {registered : List FeedId}
  {environment : Environment} {runtime : Bool}

theorem tasks_new : (new settings origin feeds registered environment runtime).tasks = [] := by
  unfold new reconfigure
  split <;> rfl

theorem book_new :
    (new settings origin feeds registered environment runtime).book =
      RateBook.replay (opening origin environment) := by
  cases hresolved : (origin.load environment).bind fun raw => resolve raw none with
  | ok config =>
    simp only [new, reconfigure, resolution, opening, hresolved]
    rfl
  | error error =>
    simp only [new, reconfigure, resolution, opening, hresolved]
    rfl

theorem exists_reset_new : ∃ book : RateBook,
    (new settings origin feeds registered environment runtime).book =
      book.reset (new settings origin feeds registered environment runtime).config := by
  unfold new reconfigure
  split <;> exact ⟨.empty, rfl⟩

variable [PriceFeed φ] {trace : Trace φ} {e later : Engine φ} {a : Action φ} {i : Nat}

/-- The end of a cycle writes to the book, if it is an event, and no other step of a task does. -/
theorem book_taskStep (hrecorded : Recorded trace e) {task : PollTask}
    (htask : e.tasks[i]? = some task) (halive : task.aborted = false)
    (hstep : e.TaskStep i task later) :
    later.book = (trace.refreshEvent? e i).toList.foldl RateBook.Event.apply e.book := by
  have hrecords := hrecorded i task htask
  -- until all answers are there the step is no event
  have hkept (hnone : e.answersTo? i = none) (hbook : later.book = e.book) :
      later.book = (trace.refreshEvent? e i).toList.foldl RateBook.Event.apply e.book := by
    rw [refreshEvent?_of_none hnone]
    exact hbook
  cases hstep with
  | begin hphase =>
    refine hkept ?_ rfl
    obtain hphase | ⟨t, -, hphase⟩ := hphase <;> simp [answersTo?, htask, hphase]
  | pass hphase _ => exact hkept (by simp [answersTo?, htask, hphase]) rfl
  | ask hphase _ => exact hkept (by simp [answersTo?, htask, hphase]) rfl
  | answer hphase hfetch =>
    refine hkept ?_ rfl
    rw [answersTo?_of_fetching htask halive hphase, Fetch.answers?_of_step hfetch]
  | breakDown hphase hfetch =>
    refine hkept ?_ rfl
    rw [answersTo?_of_fetching htask halive hphase, Fetch.answers?_of_step hfetch]
  | fail hphase hanswers hrefresh =>
    rw [hphase] at hrecords
    obtain ⟨⟨start, hstart, rfl⟩, -⟩ := hrecords
    have hsome := (answersTo?_of_fetching htask halive hphase).trans hanswers
    rw [refreshEvent?_of_some hsome hstart]
    rw [RateBook.refresh_eq] at hrefresh
    split at hrefresh
    · simp at hrefresh
    · next hnone =>
      rw [if_neg hnone]
      rfl
  | refresh hphase hanswers hrefresh =>
    rw [hphase] at hrecords
    obtain ⟨⟨start, hstart, rfl⟩, -⟩ := hrecords
    have hsome := (answersTo?_of_fetching htask halive hphase).trans hanswers
    rw [refreshEvent?_of_some hsome hstart]
    have hevent := RateBook.Event.apply_refresh hrefresh
    rw [RateBook.refresh_eq] at hrefresh
    split at hrefresh
    · next hany =>
      rw [if_pos hany]
      exact hevent.symm
    · simp at hrefresh

/-- An action writes to the book what it is as an event, and nothing else. -/
theorem book_act (hrecorded : Recorded trace e) (hact : e.act a = some later) :
    later.book = (trace.event? e a).toList.foldl RateBook.Event.apply e.book := by
  have hkept (hresolves : e.resolves? a = none) (htask : a.isStepTask = false)
      (hbook : later.book = e.book) :
      later.book = (trace.event? e a).toList.foldl RateBook.Event.apply e.book := by
    rw [event?_of_quiet hresolves htask]
    exact hbook
  cases effect_of_act hact with
  | quiet hresolves _ htask => exact hkept hresolves htask rfl
  | resolve hresolves =>
    rw [event?_of_resolves hresolves]
    rfl
  | startRun hstarts =>
    obtain ⟨hresolves, htask⟩ := resolves?_of_startsRun hstarts
    exact hkept hresolves htask rfl
  | stop => exact hkept rfl rfl rfl
  | changeFeed => exact hkept rfl rfl rfl
  | stepFeeds => exact hkept rfl rfl rfl
  | stepTask htask halive hstep =>
    rw [event?_stepTask]
    exact book_taskStep hrecorded htask halive hstep

/-- An action resets the book to the configuration it installs, keeps both the book and the
configuration, or puts what a refresh writes over the rates under the same configuration. -/
theorem book_act_cases (hrecorded : Recorded trace e) (hact : e.act a = some later) :
    ((∃ config, trace.event? e a = some (.reset config)) ∧
      later.book = e.book.reset later.config) ∨
    (trace.event? e a = none ∧ later.book = e.book ∧ later.config = e.config) ∨
    ∃ i answers start, a = .stepTask i ∧ e.answersTo? i = some answers ∧
      trace.cycleStart? i = some start ∧
      trace.event? e a = some (.refresh e.now start.config answers) ∧
      later.config = e.config ∧ ∀ asset, later.book.rate? asset =
        (e.book.written? e.now start.config answers asset).or (e.book.rate? asset) := by
  have hbook := book_act hrecorded hact
  have hconfig := config_act hact
  obtain ⟨config, hresolves, hevent⟩ | ⟨hresolves, hevent⟩ |
    ⟨hresolves, i, answers, start, rfl, hanswers, hstart, hany, hevent⟩ := event?_cases trace e a
  · rw [hevent] at hbook
    rw [hresolves] at hconfig
    refine .inl ⟨⟨config, hevent⟩, ?_⟩
    rw [hconfig]
    exact hbook
  · rw [hevent] at hbook
    rw [hresolves] at hconfig
    exact .inr (.inl ⟨hevent, hbook, hconfig⟩)
  · rw [hresolves] at hconfig
    refine .inr (.inr ⟨i, answers, start, rfl, hanswers, hstart, hevent, hconfig, ?_⟩)
    intro asset
    rw [hbook, hevent]
    exact RateBook.Event.rate?_apply_refresh hany asset

/-- What a reset establishes for the configuration it installs, and no refresh breaks, whichever
configuration the refresh was begun with, holds in every engine. -/
theorem book_invariant {P : RateConfig → RateBook → Prop}
    (hreset : ∀ config book, P config (RateBook.reset book config))
    (hrefresh : ∀ config book later now captured answers, P config book →
      (∀ asset, RateBook.rate? later asset =
        (RateBook.written? now book captured answers asset).or (book.rate? asset)) →
      P config later)
    (h : Execution (new settings origin feeds registered environment runtime) trace e) :
    P e.config e.book := by
  induction h with
  | nil =>
    obtain ⟨book, hbook⟩ : ∃ book : RateBook,
        (new settings origin feeds registered environment runtime).book = book.reset _ :=
      exists_reset_new
    rw [hbook]
    exact hreset _ book
  | act hbefore hact ih =>
    obtain ⟨-, hbook⟩ | ⟨-, hbook, hconfig⟩ | ⟨_, _, _, -, -, -, -, hconfig, hrate⟩ :=
      book_act_cases (recorded_of_execution tasks_new hbefore) hact
    · rw [hbook]
      exact hreset _ _
    · rw [hbook, hconfig]
      exact ih
    · rw [hconfig]
      exact hrefresh _ _ _ _ _ _ ih hrate

/-- The answers to a task are those of the feeds that were registered when its cycle began. -/
theorem delivers_of_answersTo? (hrecorded : Recorded trace e) {answers : List (String × Answer)}
    (h : e.answersTo? i = some answers) :
    ∃ start, trace.cycleStart? i = some start ∧
      List.Forall₂ (trace.Delivers i) (start.registered.filter (· < e.feeds.length)) answers := by
  obtain ⟨task, cycle, requests, htask, -, hphase, hrequests⟩ := exists_fetching_of_answersTo? h
  have hrecords := hrecorded i task htask
  rw [hphase] at hrecords
  obtain ⟨⟨start, hstart, rfl⟩, hfeeds, hdelivers⟩ := hrecords
  refine ⟨start, hstart, ?_⟩
  rw [← hfeeds, List.forall₂_map_left_iff]
  have hgiven := (List.forall₂_and_left requests answers).mpr
    ⟨hdelivers, Fetch.forall₂_of_answers? hrequests⟩
  exact hgiven.imp fun request answer h => h.1 answer h.2

/-- Every answer to a task was given, since its cycle began, by a feed that was registered then. -/
theorem exists_registered_of_answersTo? (hrecorded : Recorded trace e)
    {answers : List (String × Answer)} (h : e.answersTo? i = some answers)
    {answer : String × Answer} (hmem : answer ∈ answers) :
    ∃ start, trace.cycleStart? i = some start ∧
      ∃ id ∈ start.registered, trace.Delivers i id answer := by
  obtain ⟨start, hstart, hdelivers⟩ := delivers_of_answersTo? hrecorded h
  obtain ⟨n, rfl⟩ := List.mem_iff_get.mp hmem
  have hlt := Nat.lt_of_lt_of_eq n.isLt hdelivers.length_eq.symm
  exact ⟨start, hstart, _, List.mem_of_mem_filter (List.get_mem _ ⟨n, hlt⟩),
    hdelivers.get hlt n.isLt⟩

/-- Every answer to a task was given at some moment of the execution. -/
theorem exists_delivers_of_answersTo? (hrecorded : Recorded trace e)
    {answers : List (String × Answer)} (h : e.answersTo? i = some answers)
    {answer : String × Answer} (hmem : answer ∈ answers) :
    ∃ m ∈ trace, ∃ id, m.Delivers i id answer := by
  obtain ⟨-, -, id, -, m, hm, hanswer⟩ := exists_registered_of_answersTo? hrecorded h hmem
  exact ⟨m, (List.takeWhile_sublist _).subset hm, id, hanswer⟩

/-- The book of an engine is what its history makes of an empty one, and an action that is no event
of it writes nothing. A reset puts the default rates of its configuration in place of the merged
ones, a refresh merges what it has captured, and no event does anything else. The answers of each
refresh were given, in order, by the feeds that were registered when the cycle began, since then. -/
theorem book_eq_replay
    (h : Execution (new settings origin feeds registered environment runtime) trace e) :
    e.book = RateBook.replay (opening origin environment ++ trace.events) ∧
      (∀ (book : RateBook) (event : RateBook.Event), event.Makes book (event.apply book)) ∧
      (∀ a later, e.act a = some later → trace.event? e a = none → later.book = e.book) ∧
      ∀ i answers, e.answersTo? i = some answers →
        ∃ start, trace.cycleStart? i = some start ∧
          List.Forall₂ (trace.Delivers i) (start.registered.filter (· < e.feeds.length))
            answers := by
  have hrecorded := recorded_of_execution tasks_new h
  refine ⟨?_, RateBook.Event.makes_apply, ?_, fun i answers => delivers_of_answersTo? hrecorded⟩
  · clear hrecorded
    induction h with
    | nil =>
      rw [Trace.events, List.append_nil]
      exact book_new
    | act hbefore hact ih =>
      rw [Trace.events, ← List.append_assoc, RateBook.replay_append, ← ih]
      exact book_act (recorded_of_execution tasks_new hbefore) hact
  · intro a later hact hevent
    rw [book_act hrecorded hact, hevent]
    rfl

/-- An engine with one asset, and the feed that is its source. -/
def bitcoinEngine : Engine ScriptedFeed :=
  new .default (.lists ⟨[["BTC", "fast"]], []⟩) [(ScriptedFeed.new "fast").quote "BTC" 50000.0] [0]
    .empty true

/-- An override with another asset is installed while a cycle waits for the feed. -/
def replacedInFlight : List (Action ScriptedFeed) :=
  [.start, .stepTask 0, .stepTask 0, .stepTask 0,
    .setOverride ⟨.ofList [(.ofText "USDC", ⟨0.75, "fast"⟩)], .empty⟩, .stepTask 0, .stepTask 0]

/-- The same happens in the second cycle, when the first has already refreshed the book. -/
def replacedInSecondCycle : List (Action ScriptedFeed) :=
  [.start, .stepTask 0, .stepTask 0, .stepTask 0, .stepTask 0, .stepTask 0,
    .wait (Duration.ofSeconds 5).nanos] ++ replacedInFlight.tail

/-- The override replaces the rate that the first cycle has merged by its own default rate, and
leaves the prices of the feed. The second cycle refreshes the book all the same, with the
configuration that was replaced. -/
theorem book_of_replacedInFlight :
    ∃ trace e polled config refresh, Execution bitcoinEngine trace e ∧
      trace.events = [polled, .reset config, refresh] ∧
      (let before := RateBook.replay (opening (.lists ⟨[["BTC", "fast"]], []⟩) .empty ++ [polled])
      let after := (RateBook.Event.reset config).apply before
      before.rate? (.ofText "BTC") = some 50000.0 ∧ after.snapshots = before.snapshots ∧
        after.merged.get? (.ofText "BTC") = none ∧
        after.merged.get? (.ofText "USDC") = some 0.75) ∧
      e.book.rate? (.ofText "BTC") = some 50000.0 ∧ e.book = RateBook.replay
        (opening (.lists ⟨[["BTC", "fast"]], []⟩) .empty ++ trace.events) := by
  obtain ⟨⟨trace, e⟩, hperformed, polled, config, refresh, hevents, hpolled, hgone, hnew, hrate⟩ :
      ∃ run, bitcoinEngine.perform replacedInSecondCycle = some run ∧
        ∃ polled config refresh, run.1.events = [polled, .reset config, refresh] ∧
          (RateBook.replay (opening (.lists ⟨[["BTC", "fast"]], []⟩) .empty ++ [polled])).rate?
            (.ofText "BTC") = some 50000.0 ∧
          config.global.get? (.ofText "BTC") = none ∧
          config.global.get? (.ofText "USDC") = some ⟨0.75, "fast"⟩ ∧
          run.2.book.rate? (.ofText "BTC") = some 50000.0 :=
    ⟨_, rfl, _, _, _, rfl, rfl, rfl, rfl, rfl⟩
  have h := execution_of_perform hperformed
  obtain ⟨hbook, hmakes, -⟩ := book_eq_replay h
  have hreset (book : RateBook) : book.ResetTo config ((RateBook.Event.reset config).apply book) :=
    hmakes book (.reset config)
  refine ⟨trace, e, polled, config, refresh, h, hevents, ⟨hpolled, (hreset _).snapshots, ?_, ?_⟩,
    hrate, hbook⟩
  · rw [(hreset _).merged, hgone, Option.map_none]
  · rw [(hreset _).merged, hnew, Option.map_some]

end ExchangeRates.Engine

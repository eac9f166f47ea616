import ExchangeRates.Proofs.Engine.Cycle
import ExchangeRates.Proofs.Engine.FeedLifecycle
import ExchangeRates.Proofs.Engine.Restart
import ExchangeRates.Proofs.Engine.Silence
import ExchangeRates.Proofs.Engine.SingleRun

namespace ExchangeRates

variable {φ : Type} [PriceFeed φ] {P : φ → Prop}

/-- What a feed has it keeps whenever it is started, stopped, asked and woken. -/
structure PriceFeed.Keeps (P : φ → Prop) : Prop where
  start : ∀ now feed, P feed → P (PriceFeed.start now feed)
  stop : ∀ feed, P feed → P (PriceFeed.stop feed)
  fetch : ∀ feed, P feed → P (PriceFeed.fetch feed).1
  wake : ∀ now feed, P feed → P (PriceFeed.wake now feed).1

section

variable {feeds : List φ}

omit [PriceFeed φ] in
theorem forall_mem_foldl_updateFeed {f : φ → φ} (hf : ∀ feed, P feed → P (f feed))
    (h : ∀ feed ∈ feeds, P feed) (ids : List FeedId) :
    ∀ feed ∈ ids.foldl (fun feeds id => updateFeed feeds id f) feeds, P feed := by
  induction ids generalizing feeds with
  | nil => exact h
  | cons id ids ih =>
    refine ih fun feed hfeed => ?_
    obtain ⟨i, hi⟩ := List.mem_iff_getElem?.mp hfeed
    dsimp only at hi
    rw [updateFeed, List.getElem?_modify] at hi
    obtain ⟨before, hbefore, rfl⟩ := Option.map_eq_some_iff.mp hi
    have hkept := h before (List.mem_of_getElem? hbefore)
    split
    · exact hf before hkept
    · exact hkept

theorem PriceFeed.Keeps.wakeFeeds (hkeeps : PriceFeed.Keeps P) (h : ∀ feed ∈ feeds, P feed)
    (now : Instant) : ∀ feed ∈ (wakeFeeds now feeds).1, P feed := by
  rw [wakeFeeds_eq, List.forall_mem_map]
  intro feed hfeed
  obtain hwoken | ⟨hquiet, -⟩ := wakeFeed_cases now feed
  · rw [hwoken]
    exact hkeeps.wake now feed (h feed hfeed)
  · rw [hquiet]
    exact h feed hfeed

theorem PriceFeed.Keeps.step (hkeeps : PriceFeed.Keeps P) (h : ∀ feed ∈ feeds, P feed)
    {now : Instant} {requests : List Fetch} {later : List φ} {result : Except Fault (List Fetch)}
    (hstep : Fetch.step feeds now requests = some (later, result)) : ∀ feed ∈ later, P feed := by
  obtain ⟨_, _, _, asked, -, -, hasked, rfl, -⟩ := Fetch.step_eq_some hstep
  intro feed hfeed
  obtain hother | rfl := List.mem_or_eq_of_mem_set hfeed
  · exact h feed hother
  · exact hkeeps.fetch asked (h asked (List.mem_of_getElem? hasked))

end

namespace Engine

/-- An action leaves the choice of feeds, and each of them, to the engine. -/
def Action.leavesFeeds : Action φ → Bool
  | .register _ | .changeFeed _ _ => false
  | _ => true

/-- A step of the background, or time that passes. -/
def Action.isBackground : Action φ → Bool
  | .stepFeeds | .stepTask _ | .stepWaiter _ | .wait _ => true
  | _ => false

section

variable {e later : Engine φ} {a : Action φ}

omit [PriceFeed φ] in
theorem Action.leavesFeeds_of_isBackground (h : a.isBackground = true) : a.leavesFeeds = true := by
  cases a with
  | stepFeeds | stepTask _ | stepWaiter _ | wait _ => rfl
  | _ => cases h

theorem registered_act (hact : e.act a = some later) (hleaves : a.leavesFeeds = true) :
    later.registered = e.registered := by
  have hafter : e.registeredAfter a = e.registered := by
    cases a with
    | register _ => cases hleaves
    | _ => rfl
  cases effect_of_act hact with
  | quiet _ _ _ => exact hafter
  | resolve _ => exact hafter
  | startRun _ => rfl
  | stop => rfl
  | changeFeed => rfl
  | stepFeeds => rfl
  | stepTask _ _ hstep =>
    obtain ⟨_, _, _, _, _, _, rfl⟩ := hstep.frame
    rfl

/-- What feeds keep an action keeps that leaves them to the engine. -/
theorem feeds_act (hkeeps : PriceFeed.Keeps P) (h : ∀ feed ∈ e.feeds, P feed)
    (hact : e.act a = some later) (hleaves : a.leavesFeeds = true) :
    ∀ feed ∈ later.feeds, P feed := by
  have hstopped : ∀ feed ∈ e.stoppedFeeds, P feed :=
    forall_mem_foldl_updateFeed hkeeps.stop h e.registered
  cases effect_of_act hact with
  | quiet _ _ _ => exact h
  | resolve _ => exact h
  | startRun _ =>
    refine forall_mem_foldl_updateFeed (fun feed hfeed => ?_) hstopped e.registered
    unfold startFeed
    split
    · exact hfeed
    · exact hkeeps.start e.now feed hfeed
  | stop => exact hstopped
  | changeFeed => cases hleaves
  | stepFeeds => exact hkeeps.wakeFeeds h e.now
  | stepTask _ _ hstep =>
    cases hstep with
    | answer _ hfetch => exact hkeeps.step h hfetch
    | breakDown _ hfetch => exact hkeeps.step h hfetch
    | _ => exact h

end

/-- Nothing goes on: the engine is not started, none of its tasks is left, and none of its feeds is
started or has a task left. -/
structure AtRest (e : Engine WalkingFeed) : Prop where
  started : e.started = false
  tasks : ∀ task ∈ e.tasks, task.aborted = true
  feeds : ∀ feed ∈ e.feeds, feed.Idle

/-- Everything goes on: the engine is started, one of its tasks is left, and all its feeds are
started and have a task left. -/
structure AtWork (e : Engine WalkingFeed) : Prop where
  started : e.started = true
  tasks : (e.tasks.countP fun task => !task.aborted) = 1
  feeds : ∀ feed ∈ e.feeds, ∃ next, feed.Runs next

/-- The engine polls all its feeds and knows all that goes on: its own task, whether its feeds are
started, and the task of each. -/
structure InControl (e : Engine WalkingFeed) : Prop where
  registered : e.registered = List.range e.feeds.length
  run : e.OneRun
  inStep : e.InStep
  feeds : ∀ feed ∈ e.feeds, feed.OneTask

theorem keeps_oneTask : PriceFeed.Keeps WalkingFeed.OneTask where
  start now _ h := .inr ⟨_, h.runs_start now⟩
  stop _ h := .inl h.idle_stop
  fetch _ h := h
  wake _ _ h := h.wake

/-- A new engine that polls all its feeds is in control of them if none goes on. -/
theorem inControl_new {settings : Settings} {origin : ConfigOrigin} {feeds : List WalkingFeed}
    {environment : Environment} {runtime : Bool} (hidle : ∀ feed ∈ feeds, feed.Idle) :
    (new settings origin feeds (List.range feeds.length) environment runtime).InControl := by
  have hnew : (new settings origin feeds (List.range feeds.length) environment runtime).feeds =
      feeds ∧ (new settings origin feeds (List.range feeds.length) environment runtime).registered =
        List.range feeds.length := by
    unfold new reconfigure
    split <;> exact ⟨rfl, rfl⟩
  refine ⟨?_, oneRun_new, inStep_new fun feed hfeed => (hidle feed hfeed).started, ?_⟩
  · rw [hnew.1, hnew.2]
  · rw [hnew.1]
    exact fun feed hfeed => .inl (hidle feed hfeed)

section

variable {e later : Engine WalkingFeed} {a : Action WalkingFeed} {trace : Trace WalkingFeed}

theorem InControl.of_silent (h : e.InControl) (hsilent : later.silent = e.silent) :
    later.InControl := by
  rw [eq_withLog_of_silent hsilent]
  exact ⟨h.registered, h.run, h.inStep, h.feeds⟩

theorem AtWork.not_atRest (h : e.AtWork) : ¬ e.AtRest := fun hrest =>
  Bool.false_ne_true (hrest.started.symm.trans h.started)

/-- An engine stays in control if its feeds are left to it. -/
theorem InControl.act (h : e.InControl) (hact : e.act a = some later)
    (hleaves : a.leavesFeeds = true) : later.InControl where
  registered := by
    rw [(effect_of_act hact).length_feeds, ← h.registered]
    exact registered_act hact hleaves
  run := h.run.act hact
  inStep := by
    rw [h.inStep.act_iff hact]
    · rintro ids rfl
      cases hleaves
    · rintro id change rfl
      cases hleaves
  feeds := feeds_act keeps_oneTask h.feeds hact hleaves

theorem InControl.of_execution (h : e.InControl) (hexecution : Execution e trace later)
    (hleaves : ∀ m ∈ trace, m.action.leavesFeeds = true) : later.InControl := by
  induction hexecution with
  | nil => exact h
  | act _ hact ih =>
    obtain ⟨hlast, hrest⟩ := List.forall_mem_cons.mp hleaves
    exact (ih hrest).act hact hlast

theorem InControl.started_feed (h : e.InControl) {feed : WalkingFeed} (hfeed : feed ∈ e.feeds) :
    feed.started = e.started := by
  obtain ⟨id, hid⟩ := List.mem_iff_getElem?.mp hfeed
  have hrunning : running? e.feeds id = some feed.started := by
    rw [running?, hid]
    rfl
  have hpolled : id ∈ e.registered := by
    rw [h.registered, List.mem_range]
    exact lt_length_of_running? hrunning
  rw [Bool.eq_iff_iff, h.inStep id _ hrunning, and_iff_left hpolled]

/-- While an engine is not started no task of its own is left, and none of a feed. -/
theorem InControl.atRest (h : e.InControl) (hidle : e.started = false) : e.AtRest where
  started := hidle
  tasks := by
    have hnone := h.run.countP_alive
    rw [hidle, if_neg Bool.false_ne_true, List.countP_eq_zero] at hnone
    exact fun task htask => by simpa using hnone task htask
  feeds feed hfeed := by
    obtain hrest | ⟨next, hruns⟩ := h.feeds feed hfeed
    · exact hrest
    · cases (hruns.started.symm.trans (h.started_feed hfeed)).trans hidle

/-- While an engine is started its task and all of its feeds go on. -/
theorem InControl.atWork (h : e.InControl) (hstarted : e.started = true) : e.AtWork where
  started := hstarted
  tasks := by rw [h.run.countP_alive, hstarted, if_pos rfl]
  feeds feed hfeed := by
    obtain hrest | hruns := h.feeds feed hfeed
    · cases (hrest.started.symm.trans (h.started_feed hfeed)).trans hstarted
    · exact hruns

/-- A stop brings everything to rest. -/
theorem InControl.atRest_of_stop (h : e.InControl) (hsilent : later.silent = e.stop.silent) :
    later.AtRest := by
  refine ((h.act (a := .stop) rfl rfl).of_silent hsilent).atRest ?_
  rw [congr_of_silent (f := started) (fun _ _ => rfl) hsilent, stop_eq]

/-- An engine at rest stays so for as long as it is left alone. -/
theorem AtRest.leftUntil (h : e.AtRest) (t : Instant) : (e.leftUntil t).AtRest := by
  refine (leftUntil_invariant (P := AtRest) ?_ (fun _ h => ⟨h.started, h.tasks, h.feeds⟩) h).1
  intro e later h hstep
  obtain ⟨a, hact, rfl | ⟨i, rfl⟩ | ⟨i, rfl⟩⟩ := exists_act_of_step hstep
  · obtain rfl := eq_of_stepFeeds hact
    refine ⟨h.started, h.tasks, ?_⟩
    rw [wakeFeeds_eq, List.forall_mem_map]
    intro feed hfeed
    rw [wakeFeed_of_quiet fun t ht => ?_]
    · exact h.feeds feed hfeed
    · cases (h.feeds feed hfeed).wakesAt_eq.symm.trans ht
  · obtain ⟨task, htask, halive, -⟩ := taskStep_of_stepTask hact
    cases (h.tasks task (List.mem_of_getElem? htask)).symm.trans halive
  · obtain ⟨_, rfl⟩ := stepWaiter_frame hact
    exact ⟨h.started, h.tasks, h.feeds⟩

/-- While the engine is started, the background leaves it so. -/
theorem started_of_background (hstarted : e.started = true) (hact : e.act a = some later)
    (hbackground : a.isBackground = true) : later.started = true := by
  refine (started_act hact ?_).mpr (.inl hstarted)
  rintro rfl
  cases hbackground

end

end Engine

end ExchangeRates

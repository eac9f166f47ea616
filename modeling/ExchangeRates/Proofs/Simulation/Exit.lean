import ExchangeRates.Proofs.Engine.Shutdown
import ExchangeRates.Proofs.Simulation.Run

namespace ExchangeRates

open Engine

namespace Run

/-- One state of a run can lead to another, in whatever order things are done: the background goes
on, also between the conversions of one report, and what has been done is noted and counted. -/
inductive Leads (first : Run) : Run → Prop
  | begun : first.Leads first
  /-- A step of the background, or time passes. -/
  | background {r : Run} {a : Action WalkingFeed} {engine : Engine WalkingFeed} :
    first.Leads r → a.isBackground = true → r.simulation.engine.act a = some engine →
    first.Leads { r with simulation := { r.simulation with engine } }
  | tryProbe {r : Run} (probe : Probe) : first.Leads r →
    first.Leads { r with simulation := r.simulation.tryProbe probe }
  | note {r : Run} (events : List LogEvent) : first.Leads r →
    first.Leads { r with simulation := r.simulation.note events }
  | count {r : Run} (metrics : Metrics) (nextReport : Instant) : first.Leads r →
    first.Leads { r with simulation := { r.simulation with metrics }, nextReport }

/-- What becomes of a run that ends by itself or is interrupted. -/
structure Ends (interruption : Option Interruption) (ended : Except RunFailure Unit × Simulation) :
    Prop where
  ok_iff : ended.1 = .ok () ↔ ∀ reason, interruption ≠ some (.listenerFailed reason)
  atRest_iff : ended.2.engine.AtRest ↔ ∀ reason, interruption ≠ some (.listenerFailed reason)
  stays : ended.2.engine.AtRest → ∀ t, (ended.2.engine.leftUntil t).AtRest
  /-- When the listener fails, its error is returned and everything goes on. -/
  listenerFailed : ∀ reason, interruption = some (.listenerFailed reason) →
    ended.1 = .error (.error (.listener reason)) ∧ ended.2.engine.AtWork

section

variable {first r : Run}

namespace Leads

theorem report (h : first.Leads r) : first.Leads r.report := by
  have htried (probes : List Probe) {r : Run} (h : first.Leads r) :
      first.Leads { r with simulation := probes.foldl Simulation.tryProbe r.simulation } := by
    induction probes generalizing r with
    | nil => exact h
    | cons probe probes ih => exact ih (h.tryProbe probe)
  unfold Run.report
  split
  · exact (htried _ (h.count _ r.nextReport)).count _ _
  · exact (h.note _).count _ _

theorem passTo (h : first.Leads r) (limit : Instant) : first.Leads (r.passTo limit) := by
  refine (leftUntil_invariant (P := fun engine =>
    first.Leads { r with simulation := { r.simulation with engine } }) ?_ ?_ h).1
  · intro engine later hleads hstep
    obtain ⟨a, hact, rfl | ⟨i, rfl⟩ | ⟨i, rfl⟩⟩ := exists_act_of_step hstep
    · exact hleads.background rfl hact
    · exact hleads.background rfl hact
    · exact hleads.background rfl hact
  · intro engine t hlater hleads
    refine hleads.background (a := .wait (t - engine.now)) rfl ?_
    rw [act, Nat.add_sub_cancel' hlater]

/-- One of the orders is that in which all that is due at an instant is done by its kind. -/
theorem goTo (h : first.Leads r) (limit : Instant) : first.Leads (r.goTo limit) := by
  fun_induction Run.goTo r limit with
  | case1 r hdue ih => exact ih (h.passTo r.nextReport).report
  | case2 r hdue => exact h.passTo limit

end Leads

/-- Nothing is done at the instant at which a run ends. -/
theorem goTo_now (h : r.simulation.engine.now ≤ r.nextReport) :
    r.goTo r.simulation.engine.now = r := by
  have hslept : r.simulation.engine.sleep
      ⟨r.simulation.engine.now - r.simulation.engine.now⟩ = r.simulation.engine :=
    leftUntil_of_le (by rw [Nat.sub_self]; exact Nat.le_refl _)
  rw [Run.goTo, if_neg (Nat.not_lt_of_le h), Run.passTo, hslept]

/-- A run leaves its engine started and in control of its feeds. -/
theorem Leads.inControl (hcontrol : first.simulation.engine.InControl)
    (hstarted : first.simulation.engine.started = true) (h : first.Leads r) :
    r.simulation.engine.InControl ∧ r.simulation.engine.started = true := by
  induction h with
  | begun => exact ⟨hcontrol, hstarted⟩
  | background _ hbackground hact ih =>
    exact ⟨ih.1.act hact (Action.leavesFeeds_of_isBackground hbackground),
      started_of_background ih.2 hact hbackground⟩
  | tryProbe probe _ ih =>
    obtain ⟨hsilent, -⟩ := Simulation.tryProbe_of_started ih.2 probe
    exact ⟨ih.1.of_silent hsilent, (congr_of_silent (fun _ _ => rfl) hsilent).trans ih.2⟩
  | note _ _ ih => exact ⟨ih.1.of_silent rfl, ih.2⟩
  | count _ _ _ ih => exact ih

/-- Every end of a run brings its engine to rest, unless the listener fails. -/
theorem ends_of_finish (hcontrol : r.simulation.engine.InControl)
    (hstarted : r.simulation.engine.started = true) (interruption : Option Interruption) :
    Ends interruption (r.finish interruption) := by
  obtain ⟨hregular, s, hfinish, hengine, -⟩ | ⟨reason, rfl, hfinish⟩ := r.finish_cases interruption
  · rw [hfinish]
    have hrest := hcontrol.atRest_of_stop hengine
    exact ⟨iff_of_true rfl hregular, iff_of_true hrest hregular, fun _ => hrest.leftUntil,
      fun reason h => absurd h (hregular reason)⟩
  · rw [hfinish]
    have hwork := hcontrol.atWork hstarted
    refine ⟨iff_of_false (fun h => ?_) fun h => h reason rfl,
      iff_of_false hwork.not_atRest fun h => h reason rfl, AtRest.leftUntil, fun other h => ?_⟩
    · cases h
    · cases h
      exact ⟨rfl, hwork⟩

section

variable {s : Simulation} {every : Duration} {duration : Option Duration}

theorem inControl_of_begin (hcontrol : s.engine.InControl)
    (hbegin : Run.begin s every duration = .ok first) :
    first.simulation.engine.InControl ∧ first.simulation.engine.started = true := by
  obtain ⟨r, hok, ⟨hruntime, -⟩, -, hfollows, -, hnow, -⟩ | ⟨⟨failure, herror⟩, -⟩ :=
    begin_cases s every duration
  · obtain rfl := Except.ok.inj (hok.symm.trans hbegin)
    have hstart : s.engine.act .start = some s.engine.startRun := by
      rw [act, start, if_pos hruntime]
    have hfollowed := hfollows.engine
    rw [leftUntil_of_le (by rw [hnow, startRun_eq])] at hfollowed
    exact ⟨(hcontrol.act hstart rfl).of_silent hfollowed,
      hfollows.started (by rw [startRun_eq])⟩
  · cases herror.symm.trans hbegin

end

end

end Run

namespace Simulation

section

variable {scenario : Scenario} {settings : Settings} {draws : Nat → Draws} {runtime : Bool}
  {fresh s : Simulation} {every : Duration} {duration : Option Duration} {first : Run}
  {trace : Trace WalkingFeed}

theorem inControl_of_ofScenario (h : ofScenario scenario settings draws runtime = .ok s) :
    s.engine.InControl := by
  have hidle : ∀ feed ∈ feedsOf scenario draws, feed.Idle := by
    intro feed hfeed
    obtain ⟨i, hi, rfl⟩ := List.mem_mapIdx.mp hfeed
    exact WalkingFeed.idle_new _ _
  unfold ofScenario at h
  split at h
  · cases h
  · obtain rfl := Except.ok.inj h
    exact (inControl_new hidle).of_silent rfl

/-- However a run of a scenario that has begun goes on, and whatever has happened to its engine
before that left the feeds to it, the run leaves nothing going on exactly if it is not ended by a
failure of the listener. -/
theorem atRest_iff_of_run (hs : ofScenario scenario settings draws runtime = .ok fresh)
    (hbefore : Execution fresh.engine trace s.engine)
    (hleaves : ∀ m ∈ trace, m.action.leavesFeeds = true)
    (hbegin : Run.begin s every duration = .ok first) :
    (∀ r interruption, first.Leads r → Run.Ends interruption (r.finish interruption)) ∧
    ∀ horizon : Horizon, horizon.duration? = duration →
      Run.Ends horizon.ending.2 (s.run every horizon) := by
  have hcontrol := (inControl_of_ofScenario hs).of_execution hbefore hleaves
  obtain ⟨hfirst, hstarted⟩ := Run.inControl_of_begin hcontrol hbegin
  have hends (r : Run) (interruption : Option Interruption) (hleads : first.Leads r) :
      Run.Ends interruption (r.finish interruption) := by
    obtain ⟨hcontrol, hstarted⟩ := hleads.inControl hfirst hstarted
    exact Run.ends_of_finish hcontrol hstarted interruption
  refine ⟨hends, fun horizon hduration => ?_⟩
  rw [Simulation.run, hduration, hbegin]
  exact hends _ _ (Run.Leads.begun.goTo _)

end

/-- The engine is started before the run starts it again. In the run a cycle begins, and a
conversion is tried, before the user interrupts it. -/
theorem atRest_of_interrupted : ∃ fresh trace s first r,
    ofScenario warmingScenario .default (fun _ => .ofSeed 7) true = .ok fresh ∧
    Execution fresh.engine trace s.engine ∧ (∀ m ∈ trace, m.action.leavesFeeds = true) ∧
    Run.begin s (.ofMillis 200) none = .ok first ∧ first.Leads r ∧
    (r.finish (some .signal)).2.engine.AtRest ∧
    (s.run (.ofMillis 200) (.interruption (.ofMillis 500) .signal)).2.engine.AtRest := by
  obtain ⟨fresh, first, hs, hstart, hbegin, hstep⟩ : ∃ fresh first,
      ofScenario warmingScenario .default (fun _ => .ofSeed 7) true = .ok fresh ∧
      fresh.engine.act .start = some fresh.engine.startRun ∧
      Run.begin { fresh with engine := fresh.engine.startRun } (.ofMillis 200) none = .ok first ∧
      (first.simulation.engine.act (.stepTask 1)).isSome = true := by
    refine ⟨_, _, rfl, rfl, rfl, ?_⟩
    rfl
  obtain ⟨engine, hact⟩ := Option.isSome_iff_exists.mp hstep
  let s : Simulation := { fresh with engine := fresh.engine.startRun }
  have hbefore : Execution fresh.engine [⟨fresh.engine, .start⟩] s.engine :=
    Execution.nil.act hstart
  have hleaves : ∀ m ∈ [Moment.mk fresh.engine .start], m.action.leavesFeeds = true :=
    List.forall_mem_singleton.mpr rfl
  have hleads := (Run.Leads.begun.background rfl hact).tryProbe ⟨1.0, "BTC", "USDC", none⟩
  obtain ⟨hends, hrun⟩ := atRest_iff_of_run hs hbefore hleaves hbegin
  refine ⟨fresh, _, s, first, _, hs, hbefore, hleaves, hbegin, hleads, ?_, ?_⟩
  · exact (hends _ (some .signal) hleads).atRest_iff.mpr (by simp)
  · exact (hrun (.interruption (.ofMillis 500) .signal) rfl).atRest_iff.mpr
      (by simp [Horizon.ending])

/-- If the listener fails at once, the run returns its error while the engine is started, a task of
it is left, and its feed runs. -/
theorem exists_not_atRest : ∃ s first final,
    ofScenario warmingScenario .default (fun _ => .ofSeed 7) true = .ok s ∧
    Run.begin s (.ofMillis 200) none = .ok first ∧
    s.run (.ofMillis 200) (.interruption .zero (.listenerFailed "no signals")) =
      (.error (.error (.listener "no signals")), final) ∧
    final.engine.started = true ∧ (∃ task ∈ final.engine.tasks, task.aborted = false) ∧
    ∃ feed ∈ final.engine.feeds, PriceFeed.started feed = true := by
  obtain ⟨s, first, hs, hbegin, hnow, hstarted, htasks, hfeeds⟩ : ∃ s first,
      ofScenario warmingScenario .default (fun _ => .ofSeed 7) true = .ok s ∧
      Run.begin s (.ofMillis 200) none = .ok first ∧
      first.simulation.engine.now = first.nextReport ∧
      first.simulation.engine.started = true ∧
      first.simulation.engine.tasks.map PollTask.aborted = [false] ∧
      first.simulation.engine.feeds.map PriceFeed.started = [true] := by
    refine ⟨_, _, rfl, rfl, ?_, ?_, ?_, ?_⟩
    · rfl
    · rfl
    · rfl
    · rfl
  have hend : first.goTo (first.simulation.engine.now + Duration.zero.nanos) = first :=
    Run.goTo_now (Nat.le_of_eq hnow)
  refine ⟨s, first, first.simulation, hs, hbegin, ?_, hstarted, ?_, ?_⟩
  · unfold Simulation.run Horizon.duration?
    rw [hbegin]
    exact congrArg (Run.finish · (some (.listenerFailed "no signals"))) hend
  · exact List.mem_map.mp (htasks ▸ List.mem_singleton_self false)
  · exact List.mem_map.mp (hfeeds ▸ List.mem_singleton_self true)

end Simulation

end ExchangeRates

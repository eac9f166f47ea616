import ExchangeRates.Proofs.Engine.FeedLifecycle
import ExchangeRates.Proofs.Engine.Pauses
import ExchangeRates.Proofs.Engine.Silence
import ExchangeRates.Simulation.Run
import Mathlib.Algebra.BigOperators.Group.Finset.Basic

namespace ExchangeRates

open Engine

namespace Metrics

/-- How many conversions came out in one way. -/
def count (m : Metrics) : ProbeResult → Nat
  | .success => m.successful
  | .unresolvable => m.unresolvable
  | .failure => m.failed

/-- Conversions are counted one by one, each in the way it came out. -/
theorem foldl_record (m : Metrics) (results : List ProbeResult) :
    (results.foldl record m).reports = m.reports ∧
    (results.foldl record m).total = m.total + results.length ∧
    ∀ result, (results.foldl record m).count result = m.count result + results.count result := by
  induction results generalizing m with
  | nil => exact ⟨rfl, rfl, fun _ => rfl⟩
  | cons first rest ih =>
    obtain ⟨hreports, htotal, hcount⟩ := ih (m.record first)
    rw [List.foldl_cons]
    refine ⟨?_, ?_, fun result => ?_⟩
    · rw [hreports]
      cases first <;> rfl
    · rw [htotal, List.length_cons]
      cases first <;> simp only [record] <;> omega
    · rw [hcount, List.count_cons]
      cases first <;> cases result <;> simp [record, count] <;> omega

theorem length_eq_count (results : List ProbeResult) : results.length =
    results.count .success + results.count .unresolvable + results.count .failure := by
  induction results with
  | nil => rfl
  | cons first rest ih =>
    simp only [List.length_cons, List.count_cons, ih]
    cases first <;> simp <;> omega

end Metrics

namespace Simulation

/-- What an engine answers if it is asked for the conversions of a scenario. -/
def valuesOf (scenario : Scenario) (e : Engine WalkingFeed) : List (Except RateError Float) :=
  scenario.probes.map fun probe =>
    (e.askConversion probe.amount probe.source probe.target probe.rateSource).1

/-- The conversion has a value. -/
def succeeds : Except RateError Float → Bool
  | .ok _ => true
  | .error _ => false

/-- A rate that the conversion needs is not known. -/
def lacksRate : Except RateError Float → Bool
  | .error (.rateNotKnown ..) => true
  | .error _ | .ok _ => false

/-- The conversion is refused for another reason. -/
def fails : Except RateError Float → Bool
  | .ok _ | .error (.rateNotKnown ..) => false
  | .error _ => true

/-- How the conversions of a scenario come out if an engine is asked for them. -/
def resultsOf (scenario : Scenario) (e : Engine WalkingFeed) : List ProbeResult :=
  (valuesOf scenario e).map resultOf

theorem length_resultsOf (scenario : Scenario) (e : Engine WalkingFeed) :
    (resultsOf scenario e).length = scenario.probes.length := by
  rw [resultsOf, valuesOf, List.length_map, List.length_map]

/-- Every value is of one of the three kinds, and counted as such. -/
theorem count_map_resultOf (values : List (Except RateError Float)) :
    (values.map resultOf).count .success = values.countP succeeds ∧
    (values.map resultOf).count .unresolvable = values.countP lacksRate ∧
    (values.map resultOf).count .failure = values.countP fails := by
  have hkind (value : Except RateError Float) : (resultOf value == .success) = succeeds value ∧
      (resultOf value == .unresolvable) = lacksRate value ∧
      (resultOf value == .failure) = fails value := by
    rcases value with error | value
    · cases error <;> exact ⟨rfl, rfl, rfl⟩
    · exact ⟨rfl, rfl, rfl⟩
  simp only [List.count, List.countP_map, Function.comp_def, hkind, and_self]

/-- The age of prices is no part of what is counted. -/
theorem foldl_observeAge (e : Engine WalkingFeed) (feeds : List WalkingFeed) (m : Metrics) :
    (feeds.foldl (observeAge e) m).reports = m.reports ∧
    (feeds.foldl (observeAge e) m).total = m.total ∧
    (feeds.foldl (observeAge e) m).count = m.count := by
  have hage (m : Metrics) (feed : WalkingFeed) : (observeAge e m feed).reports = m.reports ∧
      (observeAge e m feed).total = m.total ∧ (observeAge e m feed).count = m.count := by
    unfold observeAge
    split
    · exact ⟨rfl, rfl, rfl⟩
    · exact ⟨rfl, rfl, rfl⟩
  induction feeds generalizing m with
  | nil => exact ⟨rfl, rfl, rfl⟩
  | cons feed feeds ih =>
    obtain ⟨hreports, htotal, hcount⟩ := ih (observeAge e m feed)
    obtain ⟨hreports', htotal', hcount'⟩ := hage m feed
    exact ⟨hreports.trans hreports', htotal.trans htotal', hcount.trans hcount'⟩

section

variable {s : Simulation}

/-- Trying a conversion leaves a started engine as it is, but for its log, and counts it. -/
theorem tryProbe_of_started (hstarted : s.engine.started = true) (probe : Probe) :
    (s.tryProbe probe).engine.silent = s.engine.silent ∧
      (s.tryProbe probe).scenario = s.scenario ∧ (s.tryProbe probe).metrics = s.metrics.record
        (resultOf (s.engine.askConversion probe.amount probe.source probe.target
          probe.rateSource).1) := by
  refine ⟨?_, rfl, rfl⟩
  have hasked := (silent_ask hstarted).1 probe.amount probe.source probe.target probe.rateSource
  have hstill : (s.engine.askConversion probe.amount probe.source probe.target
      probe.rateSource).2.started = true := by
    rw [← hstarted]
    exact congr_of_silent (fun _ _ => rfl) hasked
  unfold tryProbe
  dsimp only
  split
  · exact ((silent_ask hstill).2 probe.source probe.amount probe.rateSource).trans hasked
  · exact hasked

theorem foldl_tryProbe (hstarted : s.engine.started = true) (probes : List Probe) :
    (probes.foldl tryProbe s).engine.silent = s.engine.silent ∧
      (probes.foldl tryProbe s).scenario = s.scenario ∧
      (probes.foldl tryProbe s).metrics = ((probes.map fun probe =>
        (s.engine.askConversion probe.amount probe.source probe.target probe.rateSource).1).map
          resultOf).foldl Metrics.record s.metrics := by
  induction probes generalizing s with
  | nil => exact ⟨rfl, rfl, rfl⟩
  | cons probe probes ih =>
    obtain ⟨hengine, hscenario, hmetrics⟩ := tryProbe_of_started hstarted probe
    have hstill : (s.tryProbe probe).engine.started = true := by
      rw [← hstarted]
      exact congr_of_silent (fun _ _ => rfl) hengine
    obtain ⟨hrest, hsame, hcounted⟩ := ih hstill
    rw [List.foldl_cons]
    refine ⟨hrest.trans hengine, hsame.trans hscenario, ?_⟩
    rw [hcounted, hmetrics, List.map_cons, List.map_cons, List.foldl_cons]
    simp only [askConversion_of_silent hengine]

/-- A report leaves a started engine as it is, but for its log, and counts each conversion of the
scenario once. -/
theorem report_of_started (hstarted : s.engine.started = true) :
    s.report.engine.silent = s.engine.silent ∧ s.report.scenario = s.scenario ∧
      s.report.metrics.reports = s.metrics.reports + 1 ∧
      s.report.metrics.total = s.metrics.total + s.scenario.probes.length ∧
      ∀ result, s.report.metrics.count result =
        s.metrics.count result + (resultsOf s.scenario s.engine).count result := by
  let counted : Simulation := { s with metrics := s.metrics.recordReport }
  let tried := s.scenario.probes.foldl tryProbe counted
  obtain ⟨hengine, hscenario, hmetrics⟩ : tried.engine.silent = s.engine.silent ∧
      tried.scenario = s.scenario ∧ tried.metrics =
        (resultsOf s.scenario s.engine).foldl Metrics.record s.metrics.recordReport :=
    foldl_tryProbe (s := counted) hstarted s.scenario.probes
  obtain ⟨hreports, htotal, hcount⟩ :=
    foldl_observeAge tried.engine tried.engine.feeds tried.metrics
  obtain ⟨hkept, hadded, hcounts⟩ :=
    s.metrics.recordReport.foldl_record (resultsOf s.scenario s.engine)
  rw [← hmetrics] at hkept hadded hcounts
  refine ⟨hengine, hscenario, hreports.trans hkept, ?_, fun result => ?_⟩
  · rw [length_resultsOf] at hadded
    exact htotal.trans hadded
  · exact (congrFun hcount result).trans (hcounts result)

end

end Simulation

/-- A count grows with each report by what the engine comes to then, which the log is no part of. -/
structure Metrics.Tallies (scenario : Scenario) (total : Metrics → Nat)
    (gain : Engine WalkingFeed → Nat) : Prop where
  silent : ∀ (e : Engine WalkingFeed) (log : Array LogEvent), gain (e.withLog log) = gain e
  report : ∀ s : Simulation, s.scenario = scenario → s.engine.started = true →
    total s.report.metrics = total s.metrics + gain s.engine

namespace Run

/-- A run leaves its engine, which it began with as `first`, alone but for its log. -/
structure Follows (first : Engine WalkingFeed) (r : Run) : Prop where
  start : first.now ≤ r.simulation.engine.now
  engine : r.simulation.engine.silent = (first.leftUntil r.simulation.engine.now).silent
  notifier : r.notifier = first.notifier

section

variable {first : Engine WalkingFeed} {r : Run} {t limit : Instant}

theorem Follows.started (h : r.Follows first) (hstarted : first.started = true) :
    r.simulation.engine.started = true := by
  rw [← hstarted, ← (continues_leftUntil first r.simulation.engine.now).1.started]
  exact congr_of_silent (fun _ _ => rfl) h.engine

theorem Follows.isReady_eq (h : r.Follows first) :
    r.isReady = (first.leftUntil r.simulation.engine.now).isReady := by
  have hnotifier := (continues_leftUntil first r.simulation.engine.now).1.notifier
  rw [Run.isReady, Engine.isReady, hnotifier, ← h.notifier]
  exact congr_of_silent (f := fun e => e.notifiers.getD r.notifier false) (fun _ _ => rfl) h.engine

theorem Follows.passTo (hfeeds : first.OwnFeeds) (hinterval : 0 < first.interval.nanos)
    (h : r.Follows first) (hle : r.simulation.engine.now ≤ t) :
    (r.passTo t).Follows first ∧ (r.passTo t).simulation.engine.now = t := by
  have hengine : (r.passTo t).simulation.engine = r.simulation.engine.leftUntil t := by
    change r.simulation.engine.leftUntil
      (r.simulation.engine.now + (t - r.simulation.engine.now)) = _
    rw [Nat.add_sub_cancel' hle]
  have hnow : (r.passTo t).simulation.engine.now = t := by rw [hengine, now_leftUntil hle]
  refine ⟨⟨?_, ?_, h.notifier⟩, hnow⟩
  · exact Nat.le_trans (Nat.le_trans h.start hle) (Nat.le_of_eq hnow.symm)
  · rw [hnow, hengine, silent_leftUntil h.engine, leftUntil_leftUntil hfeeds hinterval hle]

/-- A report leaves the engine alone, and counts if the engine is ready. -/
theorem Follows.report (h : r.Follows first) (hstarted : first.started = true) :
    r.report.Follows first ∧
      r.report.simulation.engine.now = r.simulation.engine.now ∧
      r.report.simulation.scenario = r.simulation.scenario ∧
      ∀ total gain, Metrics.Tallies r.simulation.scenario total gain →
        total r.report.simulation.metrics = total r.simulation.metrics +
          if (first.leftUntil r.simulation.engine.now).isReady then
            gain (first.leftUntil r.simulation.engine.now) else 0 := by
  have hkept (s : Simulation) (hs : s.engine.silent = r.simulation.engine.silent)
      (next : Instant) : ({ r with simulation := s, nextReport := next } : Run).Follows first ∧
        s.engine.now = r.simulation.engine.now := by
    have hnow : s.engine.now = r.simulation.engine.now := congr_of_silent (fun _ _ => rfl) hs
    refine ⟨⟨?_, ?_, h.notifier⟩, hnow⟩
    · exact hnow ▸ h.start
    · exact hnow ▸ hs.trans h.engine
  have hready := h.isReady_eq
  unfold Run.report
  rw [hready]
  split
  · next hyes =>
    obtain ⟨hengine, hscenario, -⟩ := Simulation.report_of_started (h.started hstarted)
    obtain ⟨hfollows, hnow⟩ := hkept _ hengine (r.nextReport + r.every.nanos)
    refine ⟨hfollows, hnow, hscenario, fun total gain htallies => ?_⟩
    rw [← congr_of_silent htallies.silent h.engine]
    exact htallies.report _ rfl (h.started hstarted)
  · obtain ⟨hfollows, hnow⟩ := hkept (r.simulation.note [.awaitingRates]) rfl
      (r.nextReport + r.every.nanos)
    exact ⟨hfollows, hnow, rfl, fun total gain _ => rfl⟩

/-- On the way to an instant a run makes every report that is due before it. -/
theorem Follows.goTo (hfeeds : first.OwnFeeds) (hinterval : 0 < first.interval.nanos)
    (hstarted : first.started = true) (n : Nat) (h : r.Follows first)
    (hnext : r.simulation.engine.now ≤ r.nextReport) (hlimit : r.simulation.engine.now ≤ limit)
    (hdue : ∀ k : Nat, r.nextReport + k * r.every.nanos < limit ↔ k < n) :
    (r.goTo limit).Follows first ∧ (r.goTo limit).simulation.engine.now = limit ∧
      ∀ total gain, Metrics.Tallies r.simulation.scenario total gain →
        total (r.goTo limit).simulation.metrics = total r.simulation.metrics +
          ∑ k ∈ Finset.range n,
            if (first.leftUntil (r.nextReport + k * r.every.nanos)).isReady then
              gain (first.leftUntil (r.nextReport + k * r.every.nanos)) else 0 := by
  induction n generalizing r with
  | zero =>
    have hnone : ¬ r.nextReport < limit := by simpa using hdue 0
    rw [Run.goTo, if_neg hnone]
    obtain ⟨hfollows, hnow⟩ := h.passTo hfeeds hinterval hlimit
    exact ⟨hfollows, hnow, fun total gain _ => rfl⟩
  | succ n ih =>
    have hfirst : r.nextReport < limit := by simpa using hdue 0
    obtain ⟨hpassed, hnow⟩ := h.passTo hfeeds hinterval hnext
    obtain ⟨hfollows, hstill, hscenario, hcounts⟩ := hpassed.report hstarted
    -- what is the report `k + 1` now is the report `k` from the next on
    have hshift (k : Nat) : r.nextReport + r.every.nanos + k * r.every.nanos =
        r.nextReport + (k + 1) * r.every.nanos := by
      rw [Nat.succ_mul, Nat.add_assoc, Nat.add_comm r.every.nanos]
    have hrest (k : Nat) : r.nextReport + r.every.nanos + k * r.every.nanos < limit ↔ k < n := by
      rw [hshift, hdue, Nat.succ_lt_succ_iff]
    have hat := Nat.le_of_eq (hstill.trans hnow)
    obtain ⟨hlast, hend, htotals⟩ := ih hfollows (Nat.le_trans hat (Nat.le_add_right ..))
      (Nat.le_trans hat (Nat.le_of_lt hfirst)) hrest
    rw [Run.goTo, if_pos hfirst]
    refine ⟨hlast, hend, fun total gain htallies => ?_⟩
    rw [htotals total gain (hscenario ▸ htallies), hcounts total gain htallies, hnow,
      Finset.sum_range_succ']
    simp only [← hshift, Nat.zero_mul, Nat.add_zero]
    exact (Nat.add_assoc ..).trans (congrArg _ (Nat.add_comm ..))

end

section

variable {s : Simulation} {every : Duration} {duration : Option Duration}

/-- A run begins exactly if the engine can be started, its end is within reach of the clock, and
reports have a distance. Its first report is then due at once. -/
theorem begin_cases (s : Simulation) (every : Duration) (duration : Option Duration) :
    (∃ r, Run.begin s every duration = .ok r ∧ (s.engine.runtime = true ∧
      (duration.any fun d => clockSeconds ≤ Duration.seconds ⟨s.engine.now + d.nanos⟩) = false ∧
      0 < every.nanos) ∧ r.every = every ∧ r.Follows s.engine.startRun ∧
      r.nextReport = s.engine.now ∧ r.simulation.engine.now = s.engine.now ∧
      r.simulation.scenario = s.scenario ∧ r.simulation.metrics = s.metrics) ∨
    ((∃ failure, Run.begin s every duration = .error failure) ∧ ¬ (s.engine.runtime = true ∧
      (duration.any fun d => clockSeconds ≤ Duration.seconds ⟨s.engine.now + d.nanos⟩) = false ∧
      0 < every.nanos)) := by
  have hstart (events : List LogEvent) : (s.engine.note events).startRun.now = s.engine.now ∧
      (s.engine.note events).startRun.notifier = s.engine.startRun.notifier ∧
      (s.engine.note events).startRun.silent = s.engine.startRun.silent := by
    rw [startRun_eq, startRun_eq]
    exact ⟨rfl, rfl, rfl⟩
  have hnow : s.engine.startRun.now = s.engine.now := by rw [startRun_eq]
  have hbegin (events : List LogEvent) : (s.engine.note events).start =
      if s.engine.runtime then (.ok (), (s.engine.note events).startRun)
      else (.error .noRuntime, s.engine.note events) := rfl
  unfold Run.begin Simulation.note
  simp only [hbegin]
  cases hruntime : s.engine.runtime with
  | false => exact .inr ⟨⟨_, rfl⟩, by simp⟩
  | true =>
    simp only [if_true, (hstart _).1, (hstart _).2.1]
    cases hclock : duration.any fun d =>
        clockSeconds ≤ Duration.seconds ⟨s.engine.now + d.nanos⟩ with
    | true => exact .inr ⟨⟨_, rfl⟩, by simp⟩
    | false =>
      by_cases hevery : 0 < every.nanos
      · obtain ⟨hsame, -, hsilent⟩ := hstart [.scenarioRunning s.scenario.name
          s.scenario.description s.engine.feeds.length]
        have hnone := Nat.le_of_eq (hsame.trans hnow.symm)
        refine .inl ⟨⟨_, _, every, hevery, s.engine.now⟩, dif_pos hevery,
          ⟨trivial, rfl, hevery⟩, rfl, ⟨?_, ?_, rfl⟩, rfl, hsame, rfl, rfl⟩
        · exact Nat.le_of_eq (hnow.trans hsame.symm)
        · rw [leftUntil_of_le hnone]
          exact hsilent
      · exact .inr ⟨⟨_, dif_neg hevery⟩, by simp [hevery]⟩

/-- A run that is not ended by a failing listener ends with a stop of its engine. -/
theorem finish_cases (r : Run) (interruption : Option Interruption) :
    ((∀ reason, interruption ≠ some (.listenerFailed reason)) ∧
      ∃ s, r.finish interruption = (.ok (), s) ∧
        s.engine.silent = r.simulation.engine.stop.silent ∧ s.metrics = r.simulation.metrics) ∨
    ∃ reason, interruption = some (.listenerFailed reason) ∧
      r.finish interruption = (.error (.error (.listener reason)), r.simulation) := by
  cases interruption with
  | none => exact .inl ⟨by simp, _, rfl, rfl, rfl⟩
  | some cause =>
    cases cause with
    | signal => exact .inl ⟨by simp, _, rfl, silent_stop rfl, rfl⟩
    | listenerFailed reason => exact .inr ⟨reason, rfl, rfl⟩

end

end Run

namespace Simulation

/-- What is counted by a report. -/
theorem tallies (scenario : Scenario) :
    Metrics.Tallies scenario Metrics.reports (fun _ => 1) ∧
    Metrics.Tallies scenario Metrics.total (fun _ => scenario.probes.length) ∧
    Metrics.Tallies scenario (fun m => m.successful + m.unresolvable + m.failed)
      (fun _ => scenario.probes.length) ∧
    ∀ result, Metrics.Tallies scenario (fun m => m.count result)
      fun e => (resultsOf scenario e).count result := by
  refine ⟨⟨fun _ _ => rfl, fun s _ hs => ?_⟩, ⟨fun _ _ => rfl, ?_⟩, ⟨fun _ _ => rfl, ?_⟩,
    fun result => ⟨?_, ?_⟩⟩
  · exact (report_of_started hs).2.2.1
  · rintro s rfl hs
    exact (report_of_started hs).2.2.2.1
  · rintro s rfl hs
    have hcount := (report_of_started hs).2.2.2.2
    have hlength := Metrics.length_eq_count (resultsOf s.scenario s.engine)
    rw [length_resultsOf] at hlength
    have hsuccess := hcount .success
    have hunresolvable := hcount .unresolvable
    have hfailure := hcount .failure
    simp only [Metrics.count] at hsuccess hunresolvable hfailure
    omega
  · intro e log
    have hsame : (e.withLog log).silent = e.silent := rfl
    simp only [resultsOf, valuesOf, askConversion_of_silent hsame]
  · rintro s rfl hs
    exact (report_of_started hs).2.2.2.2 result

section

variable {s : Simulation} {every : Duration} {horizon : Horizon}

/-- A run comes to a regular end exactly if tasks can run in the background, its reports have a
distance, its deadline is within reach of the clock, and no failing listener ends it. -/
theorem exists_run_eq_ok_iff : (∃ final, s.run every horizon = (.ok (), final)) ↔
    (s.engine.runtime = true ∧ (horizon.duration?.any fun d =>
      clockSeconds ≤ Duration.seconds ⟨s.engine.now + d.nanos⟩) = false ∧ 0 < every.nanos) ∧
    ∀ reason, horizon.ending.2 ≠ some (.listenerFailed reason) := by
  unfold Simulation.run
  obtain ⟨r, hbegin, hcan, -⟩ | ⟨⟨failure, hbegin⟩, hcannot⟩ :=
    Run.begin_cases s every horizon.duration?
  · rw [hbegin, and_iff_right hcan]
    unfold Run.toEnd
    obtain ⟨hregular, final, hfinish, -⟩ | ⟨reason, hlistener, hfinish⟩ :=
      (r.goTo (r.simulation.engine.now + horizon.ending.1.nanos)).finish_cases horizon.ending.2
    · exact iff_of_true ⟨final, hfinish⟩ hregular
    · refine iff_of_false ?_ fun hregular => hregular reason hlistener
      rintro ⟨final, hok⟩
      cases hfinish.symm.trans hok
  · rw [hbegin]
    refine iff_of_false ?_ fun h => hcannot h.1
    rintro ⟨final, hok⟩
    cases hok

theorem run_eq_ok {final : Simulation} (h : s.run every horizon = (.ok (), final)) :
    ∃ r : Run, r.every = every ∧ r.Follows s.engine.startRun ∧ r.nextReport = s.engine.now ∧
      r.simulation.engine.now = s.engine.now ∧ r.simulation.scenario = s.scenario ∧
      r.simulation.metrics = s.metrics ∧ 0 < every.nanos ∧ s.engine.runtime = true ∧
      ∃ last, last = r.goTo (s.engine.now + horizon.ending.1.nanos) ∧
        final.engine.silent = last.simulation.engine.stop.silent ∧
        final.metrics = last.simulation.metrics := by
  unfold Simulation.run at h
  obtain ⟨r, hbegin, ⟨hruntime, -, hpos⟩, hevery, hfollows, hnext, hnow, hscenario, hmetrics⟩ |
    ⟨⟨failure, hbegin⟩, -⟩ := Run.begin_cases s every horizon.duration?
  · rw [hbegin] at h
    refine ⟨r, hevery, hfollows, hnext, hnow, hscenario, hmetrics, hpos, hruntime, ?_⟩
    unfold Run.toEnd at h
    obtain ⟨-, final', hfinish, hengine, hcounts⟩ | ⟨reason, -, hfinish⟩ :=
      (r.goTo (r.simulation.engine.now + horizon.ending.1.nanos)).finish_cases horizon.ending.2
    · obtain rfl := (Prod.mk.inj (hfinish.symm.trans h)).2
      exact ⟨_, by rw [← hnow], hengine, hcounts⟩
    · cases hfinish.symm.trans h
  · rw [hbegin] at h
    cases h

end

section

variable {scenario : Scenario} {settings : Settings} {draws : Nat → Draws} {runtime : Bool}
  {s : Simulation} {delay every : Duration} {horizon : Horizon} {first : Engine WalkingFeed}

theorem ofScenario_eq_ok (h : ofScenario scenario settings draws runtime = .ok s) :
    s.scenario = scenario ∧ s.metrics = .zero ∧ 0 < s.engine.interval.nanos ∧
      s.engine.tasks = [] ∧ s.engine.registered = List.range s.engine.feeds.length := by
  obtain ⟨defect, -, herror⟩ | ⟨hnone, same, hok, hfresh⟩ :=
    ofScenario_cases scenario settings draws runtime
  · cases herror.symm.trans h
  obtain rfl := Except.ok.inj (hok.symm.trans h)
  have hkept : same.scenario = scenario ∧ same.metrics = .zero ∧
      same.engine.registered = List.range same.engine.feeds.length := by
    unfold ofScenario at hok
    rw [hnone] at hok
    obtain rfl := Except.ok.inj hok
    refine ⟨rfl, rfl, ?_⟩
    simp only [Engine.note, Engine.new, reconfigure]
    split <;> rfl
  refine ⟨hkept.1, hkept.2.1, ?_, hfresh.tasks, hkept.2.2⟩
  rw [hfresh.interval]
  exact (Settings.defect?_eq_none_iff.mp hnone).1

/-- The engine of a run, as it starts: it polls all its feeds, and is not ready. -/
theorem startRun_of_ofScenario (h : ofScenario scenario settings draws runtime = .ok s)
    (hruntime : (s.engine.sleep delay).runtime = true)
    (hfirst : first = (s.engine.sleep delay).startRun) :
    first.OwnFeeds ∧ 0 < first.interval.nanos ∧ first.started = true ∧ first.isReady = false ∧
      first.registered = List.range first.feeds.length ∧
      first.now = (s.engine.sleep delay).now := by
  obtain ⟨-, -, hinterval, htasks, hregistered⟩ := ofScenario_eq_ok h
  have hslept : s.engine.Continues (s.engine.sleep delay) :=
    (continues_leftUntil s.engine (s.engine.now + delay.nanos)).1
  obtain ⟨trace, htrace⟩ := reaches_sleep s.engine delay
  have hfeeds := (ownFeeds_of_tasks htasks).of_execution htrace
  have hact : (s.engine.sleep delay).act .start = some first := by
    rw [hfirst, act, start, if_pos hruntime]
  have hlength := (effect_of_act hact).length_feeds
  refine ⟨hfeeds.act hact, ?_, ?_, ?_, ?_, ?_⟩
  · rw [hfirst, startRun_eq]
    exact hslept.interval ▸ hinterval
  · rw [hfirst, startRun_eq]
  · rw [hfirst, startRun_eq]
    simp [isReady]
  · rw [hlength, hslept.feeds, ← hregistered, ← hslept.registered, hfirst, startRun_eq]
  · rw [hfirst, startRun_eq]

/-- A stop leaves no feed of an engine running that polls them all. -/
theorem feeds_stop_of_registered {e : Engine WalkingFeed}
    (h : e.registered = List.range e.feeds.length) :
    ∀ feed ∈ e.stop.feeds, PriceFeed.started feed = false := by
  intro feed hfeed
  obtain ⟨id, running, hrunning, heq⟩ := exists_running?_of_mem_stop hfeed
  rw [heq, if_pos]
  rw [h, List.mem_range]
  exact lt_length_of_running? hrunning

/-- A stop ends the run that an engine goes on with, and leaves none of its feeds running. -/
theorem stopped_of_silent {e final : Engine WalkingFeed}
    (hregistered : first.registered = List.range first.feeds.length) (hkept : first.Continues e)
    (h : final.silent = e.stop.silent) :
    (final.started = false ∧ final.task = none) ∧
      ∀ feed ∈ final.feeds, PriceFeed.started feed = false := by
  rw [eq_withLog_of_silent h]
  constructor
  · rw [stop_eq]
    exact ⟨rfl, rfl⟩
  · refine feeds_stop_of_registered ?_
    rw [hkept.registered, hregistered, hkept.feeds]

/-- The instants at a distance before an end are the first few. -/
theorem exists_lt_iff_mul_lt {distance : Nat} (h : 0 < distance) (limit : Nat) :
    ∃ n, ∀ k, k * distance < limit ↔ k < n := by
  refine ⟨(limit + distance - 1) / distance, fun k => ?_⟩
  have hle := Nat.le_div_iff_mul_le h (x := k + 1) (y := limit + distance - 1)
  rw [Nat.succ_mul, Nat.succ_le_iff] at hle
  rw [hle]
  omega

/-- A run counts what is due before its end while the engine is ready, and stops the engine. -/
theorem exists_made_of_run {final : Simulation}
    (hs : ofScenario scenario settings draws runtime = .ok s)
    (hfirst : first = (s.engine.sleep delay).startRun)
    (hrun : ({ s with engine := s.engine.sleep delay } : Simulation).run every horizon =
      (.ok (), final)) :
    final.engine.silent = (first.leftUntil (first.now + horizon.ending.1.nanos)).stop.silent ∧
    ∃ made : Finset Nat,
      (∀ k, k ∈ made ↔ k * every.nanos < horizon.ending.1.nanos ∧
        (first.leftUntil (first.now + k * every.nanos)).isReady = true) ∧
      ∀ total gain, Metrics.Tallies scenario total gain → total .zero = 0 →
        total final.metrics =
          ∑ k ∈ made, gain (first.leftUntil (first.now + k * every.nanos)) := by
  obtain ⟨r, rfl, hfollows, hnext, hnow, hscenario, hmetrics, hpos, hruntime, last, rfl, hengine,
    hcounts⟩ := run_eq_ok hrun
  obtain ⟨hfeeds, hinterval, hstarted, -, -, hstart⟩ := startRun_of_ofScenario hs hruntime hfirst
  obtain ⟨hsame, hzero, -⟩ := ofScenario_eq_ok hs
  dsimp only at hfollows hnext hnow hscenario hmetrics hengine hcounts
  rw [← hstart] at hnext hnow hengine hcounts
  obtain ⟨n, hn⟩ := exists_lt_iff_mul_lt hpos horizon.ending.1.nanos
  have hdue (k : Nat) :
      r.nextReport + k * r.every.nanos < first.now + horizon.ending.1.nanos ↔ k < n := by
    rw [hnext, Nat.add_lt_add_iff_left, hn]
  obtain ⟨hlast, hend, htotals⟩ := Run.Follows.goTo hfeeds hinterval hstarted n
    (hfirst ▸ hfollows) (Nat.le_of_eq (hnow.trans hnext.symm))
    (Nat.le_trans (Nat.le_of_eq hnow) (Nat.le_add_right ..)) hdue
  refine ⟨?_, (Finset.range n).filter fun k =>
    (first.leftUntil (first.now + k * r.every.nanos)).isReady = true, fun k => ?_,
    fun total gain htallies hnone => ?_⟩
  · rw [hengine, silent_stop hlast.engine, hend]
  · rw [Finset.mem_filter, Finset.mem_range, hn]
  · rw [hscenario, hsame, hmetrics, hzero, hnext, ← hcounts] at htotals
    rw [htotals total gain htallies, hnone, Nat.zero_add, Finset.sum_filter]

/-- What a run comes to that starts its engine as `first` and ends regularly after some time, if the
reports in `made` are made and the others only say that the rates are waited for. Reports are
numbered from the start of the run on. -/
structure Outcome (first : Engine WalkingFeed) (scenario : Scenario) (every lasting : Duration)
    (made : Finset Nat) (final : Simulation) : Prop where
  ready : (∃ passed, first.ReadyFirstAfter passed) ∨
    ∀ n, (first.leftUntil (first.now + n)).settle.isReady = false
  /-- The reports made are those that are due once the engine is ready and before the run ends. -/
  due : ∀ passed, first.ReadyFirstAfter passed → (∀ k, k * every.nanos ≠ passed) →
    ∀ k, k ∈ made ↔ passed ≤ k * every.nanos ∧ k * every.nanos < lasting.nanos
  never : (∀ n, (first.leftUntil (first.now + n)).settle.isReady = false) → made = ∅
  reports : final.metrics.reports = made.card
  total : final.metrics.total = made.card * scenario.probes.length
  parts : final.metrics.total =
    final.metrics.successful + final.metrics.unresolvable + final.metrics.failed
  /-- Each conversion is counted at each report by what the engine answers to it, as if it had been
  left alone until then. -/
  successful : final.metrics.successful = ∑ k ∈ made,
    (valuesOf scenario (first.leftUntil (first.now + k * every.nanos))).countP succeeds
  unresolvable : final.metrics.unresolvable = ∑ k ∈ made,
    (valuesOf scenario (first.leftUntil (first.now + k * every.nanos))).countP lacksRate
  failed : final.metrics.failed = ∑ k ∈ made,
    (valuesOf scenario (first.leftUntil (first.now + k * every.nanos))).countP fails
  /-- The engine is not started again until it is stopped. -/
  started : first.started = true
  continues : ∀ n, first.Continues (first.leftUntil (first.now + n))
  engine : final.engine.silent = (first.leftUntil (first.now + lasting.nanos)).stop.silent
  stopped : final.engine.started = false ∧ final.engine.task = none
  feeds : ∀ feed ∈ final.engine.feeds, PriceFeed.started feed = false

/-- The first run of a simulation that has been set up comes to a regular end exactly if tasks can
run in the background, its reports have a distance, its deadline is within reach of the clock, and
no failing listener ends it. It then makes exactly the reports that are due while its engine is
ready, counts each conversion at each of them, and leaves the rates alone: a report of a started
engine only writes to its log. -/
theorem outcome_of_run (every : Duration) (horizon : Horizon)
    (hs : ofScenario scenario settings draws runtime = .ok s)
    (hfirst : first = (s.engine.sleep delay).startRun) :
    ((∃ final, ({ s with engine := s.engine.sleep delay } : Simulation).run every horizon =
        (.ok (), final)) ↔
      ((s.engine.sleep delay).runtime = true ∧ (horizon.duration?.any fun d =>
        clockSeconds ≤ Duration.seconds ⟨(s.engine.sleep delay).now + d.nanos⟩) = false ∧
        0 < every.nanos) ∧
      ∀ reason, horizon.ending.2 ≠ some (.listenerFailed reason)) ∧
    (∀ final, ({ s with engine := s.engine.sleep delay } : Simulation).run every horizon =
      (.ok (), final) → ∃ made, Outcome first scenario every horizon.ending.1 made final) ∧
    ∀ reporting : Simulation, reporting.engine.started = true →
      reporting.report.engine.silent = reporting.engine.silent := by
  refine ⟨exists_run_eq_ok_iff, fun final hrun => ?_, fun _ h => (report_of_started h).1⟩
  have hruntime : (s.engine.sleep delay).runtime = true :=
    (exists_run_eq_ok_iff.mp ⟨final, hrun⟩).1.1
  obtain ⟨hfeeds, hinterval, hstarted, hidle, hregistered, -⟩ :=
    startRun_of_ofScenario hs hruntime hfirst
  obtain ⟨hengine, made, hmade, hsum⟩ := exists_made_of_run hs hfirst hrun
  obtain ⟨hreports, htotal, hparts, hresults⟩ := tallies scenario
  obtain ⟨hstopped, hstill⟩ := stopped_of_silent hregistered (continues_leftUntil ..).1 hengine
  have hcount (result : ProbeResult) := hsum _ _ (hresults result) (by cases result <;> rfl)
  have hkinds (k : Nat) :=
    count_map_resultOf (valuesOf scenario (first.leftUntil (first.now + k * every.nanos)))
  refine ⟨made, readyFirstAfter_or_never first, ?_, ?_, ?_, ?_, ?_, ?_, ?_, ?_, hstarted,
    fun n => (continues_leftUntil first (first.now + n)).1, hengine, hstopped, hstill⟩
  · intro passed hready hapart k
    have hlt : passed < k * every.nanos ↔ passed ≤ k * every.nanos :=
      ⟨Nat.le_of_lt, fun hle => Nat.lt_of_le_of_ne hle (hapart k).symm⟩
    rw [hmade, hready.isReady_leftUntil_iff hfeeds hinterval hidle, hlt, and_comm]
  · intro hnever
    rw [Finset.eq_empty_iff_forall_notMem]
    intro k hk
    have hready := ((hmade k).mp hk).2
    rw [isReady_eq_false_of_never hnever] at hready
    cases hready
  · rw [hsum _ _ hreports rfl, Finset.card_eq_sum_ones]
  · rw [hsum _ _ htotal rfl, Finset.sum_const_nat fun _ _ => rfl]
  · exact (hsum _ _ htotal rfl).trans (hsum _ _ hparts rfl).symm
  · exact (hcount .success).trans (Finset.sum_congr rfl fun k _ => (hkinds k).1)
  · exact (hcount .unresolvable).trans (Finset.sum_congr rfl fun k _ => (hkinds k).2.1)
  · exact (hcount .failure).trans (Finset.sum_congr rfl fun k _ => (hkinds k).2.2)

end

/-- A scenario with a feed that is ready after 50 milliseconds. Two of its conversions succeed, one
is into an asset that is not known, and one is by the rates of a source that is not known. -/
def warmingScenario : Scenario where
  name := "warming"
  description := "a slow feed"
  rates := ⟨[], [["BTC", "3", "fast"], ["USDC", "1", "fast"]]⟩
  feeds := [{ WalkProfile.new "fast" (.ofList [("BTC", 6.0)]) with
    volatility := 0.0, warmup := 50 }]
  probes := [⟨1.0, "BTC", "USDC", none⟩, ⟨1.0, "BTC", "XMR", none⟩,
    ⟨1.0, "BTC", "USDC", some "slow"⟩, ⟨1.0, "ETH", "WETH", none⟩]

/-- The simulation of the scenario polls at once, when its feed is ready, and after five seconds. -/
theorem exists_warming : ∃ s first, ofScenario warmingScenario .default (fun _ => .ofSeed 7) true =
      .ok s ∧ first = s.engine.startRun ∧ s.engine.runtime = true ∧
    ¬ clockSeconds ≤ Duration.seconds ⟨s.engine.now + (Duration.ofMillis 500).nanos⟩ ∧
    first.now = 0 ∧ first.settle.nextDue? = some (Duration.ofMillis 50).nanos ∧
    first.settle.isReady = false ∧
    ∃ ready, ready = ({ first.settle with now := (Duration.ofMillis 50).nanos } : Engine _) ∧
      ready.settle.isReady = true ∧
      ready.settle.nextDue? = some (Duration.ofMillis 1050).nanos ∧
      ∀ k ∈ ({1, 2} : Finset Nat),
        let values := valuesOf warmingScenario
          { ready.settle with now := 0 + k * (Duration.ofMillis 200).nanos }
        values.countP succeeds = 2 ∧ values.countP lacksRate = 1 ∧ values.countP fails = 1 := by
  refine ⟨_, _, rfl, rfl, rfl, by decide, rfl, rfl, rfl, _, rfl, rfl, rfl, ?_⟩
  simp only [Finset.mem_insert, Finset.mem_singleton]
  rintro k (rfl | rfl)
  · exact ⟨rfl, rfl, rfl⟩
  · exact ⟨rfl, rfl, rfl⟩

/-- With a report every 200 milliseconds, of the three reports of a run of half a second the last
two find the rates. -/
theorem outcome_of_warmingScenario : ∃ s final,
    ofScenario warmingScenario .default (fun _ => .ofSeed 7) true = .ok s ∧
    s.run (.ofMillis 200) (.deadline (.ofMillis 500)) = (.ok (), final) ∧
    final.metrics.reports = 2 ∧ final.metrics.total = 8 ∧ final.metrics.successful = 4 ∧
    final.metrics.unresolvable = 2 ∧ final.metrics.failed = 2 ∧
    final.engine.started = false ∧ ∀ feed ∈ final.engine.feeds, PriceFeed.started feed = false := by
  obtain ⟨s, first, hs, hfirst, hruntime, hclock, hstart, hnext, hidle, ready, hready, hthen,
    hlater, hvalues⟩ := exists_warming
  have hdelay : s.engine.sleep .zero = s.engine := leftUntil_of_le (Nat.le_refl _)
  have hslept : first = (s.engine.sleep .zero).startRun := by rw [hdelay, hfirst]
  obtain ⟨hends, hall, -⟩ :=
    outcome_of_run (.ofMillis 200) (.deadline (.ofMillis 500)) hs hslept
  rw [hdelay] at hends hall
  have hdeadline (p : Duration → Bool) :
      (Horizon.deadline (.ofMillis 500)).duration?.any p = p (.ofMillis 500) := rfl
  obtain ⟨final, hrun⟩ := hends.mpr ⟨⟨hruntime, (hdeadline _).trans (decide_eq_false hclock),
    by decide⟩, by simp [Horizon.ending]⟩
  obtain ⟨made, h⟩ := hall final hrun
  obtain ⟨hfeeds, hinterval, -⟩ := startRun_of_ofScenario hs (by rw [hdelay, hruntime]) hslept
  have hfound : first.ReadyFirstAfter (Duration.ofMillis 50).nanos := by
    have hafter := readyFirstAfter_of_nextDue? hfeeds hinterval hnext hidle (hready ▸ hthen)
    rw [hstart, Nat.sub_zero] at hafter
    exact hafter
  have hmade : made = {1, 2} := by
    ext k
    rw [h.due _ hfound (fun k => ?_), Finset.mem_insert, Finset.mem_singleton]
    · simp only [Horizon.ending, Duration.ofMillis, Duration.nanosPerMilli]
      omega
    · simp only [Duration.ofMillis, Duration.nanosPerMilli]
      omega
  -- from the 50th to the 1050th millisecond nothing happens
  have hleft (t : Instant) (hafter : (Duration.ofMillis 50).nanos < t)
      (hbefore : t ≤ (Duration.ofMillis 1050).nanos) :
      first.leftUntil t = { ready.settle with now := t } := by
    rw [leftUntil_of_due hnext hafter, ← hready, leftUntil_of_quiet]
    · rw [hready]
      exact hafter
    · intro next hdue
      obtain rfl := Option.some.inj (hlater.symm.trans hdue)
      exact hbefore
  subst hmade
  have hcounts (k : Nat) (hk : k ∈ ({1, 2} : Finset Nat)) :
      let values := valuesOf warmingScenario
        (first.leftUntil (first.now + k * (Duration.ofMillis 200).nanos))
      values.countP succeeds = 2 ∧ values.countP lacksRate = 1 ∧ values.countP fails = 1 := by
    have hwithin : (Duration.ofMillis 50).nanos < 0 + k * (Duration.ofMillis 200).nanos ∧
        0 + k * (Duration.ofMillis 200).nanos ≤ (Duration.ofMillis 1050).nanos := by
      obtain rfl | rfl : k = 1 ∨ k = 2 := by simpa using hk
      · decide
      · decide
    rw [hstart, hleft _ hwithin.1 hwithin.2]
    exact hvalues k hk
  refine ⟨s, final, hs, hrun, h.reports, h.total, ?_, ?_, ?_, h.stopped.1, h.feeds⟩
  · exact h.successful.trans (Finset.sum_const_nat fun k hk => (hcounts k hk).1)
  · exact h.unresolvable.trans (Finset.sum_const_nat fun k hk => (hcounts k hk).2.1)
  · exact h.failed.trans (Finset.sum_const_nat fun k hk => (hcounts k hk).2.2)

end Simulation

end ExchangeRates

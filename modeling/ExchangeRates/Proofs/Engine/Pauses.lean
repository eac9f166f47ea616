import ExchangeRates.Proofs.Engine.Cadence
import ExchangeRates.Proofs.Settings
import ExchangeRates.Proofs.SharedEngine
import ExchangeRates.Simulation.Basic

namespace ExchangeRates.Engine

variable {φ : Type}

/-- The interval that an action sets, if it sets one. -/
def Action.interval? : Action φ → Option Duration
  | .setInterval interval => some interval
  | _ => none

/-- Every interval that is set is some time. -/
def Trace.SetsTime (trace : Trace φ) : Prop :=
  ∀ m ∈ trace, ∀ interval ∈ m.action.interval?, 0 < interval.nanos

/-- There is a pause between two cycles throughout an execution. -/
def Trace.AlwaysPauses (trace : Trace φ) (last : Engine φ) : Prop :=
  ∀ before s, trace.Visits last before s → 0 < s.interval.nanos

theorem interval_reconfigure (e : Engine φ) : e.reconfigure.interval = e.interval := by
  unfold reconfigure
  split <;> rfl

/-- An engine has some settings and the interval in them, and no task yet. -/
structure Fresh (initial : Settings) (first : Engine φ) : Prop where
  settings : first.settings = initial
  interval : first.interval = initial.interval
  tasks : first.tasks = []

theorem fresh_new (settings : Settings) (origin : ConfigOrigin) (feeds : List φ)
    (registered : List FeedId) (environment : Environment) (runtime : Bool) :
    Fresh settings (new settings origin feeds registered environment runtime) :=
  ⟨settings_new .., interval_reconfigure _, tasks_new⟩

theorem Trace.forall_mem_iff {trace : Trace φ} {P : Moment φ → Prop} :
    (∀ m ∈ trace, P m) ↔ ∀ m before, m :: before <:+ trace → P m := by
  constructor
  · intro h m before hsuffix
    exact h m (hsuffix.subset List.mem_cons_self)
  · intro h m hm
    obtain ⟨after, before, rfl⟩ := List.append_of_mem hm
    exact h m before (List.suffix_append ..)

variable [PriceFeed φ]

/-- Every cycle but the first of its task begins later than the cycle before it has ended. -/
def Trace.CyclesApart (trace : Trace φ) : Prop :=
  ∀ i (m : Moment φ) before, m :: before <:+ trace → m.begins i = true →
    (∀ d ∈ before, d.steps i = false) ∨ ∃ since last earlier,
      before = since ++ last :: earlier ∧ (last.ends? i).isSome = true ∧
        (∀ d ∈ since, d.steps i = false) ∧ last.engine.now < m.engine.now

section

variable {first e later : Engine φ} {trace : Trace φ} {a : Action φ}

theorem interval_startIfIdle (e : Engine φ) : e.startIfIdle.interval = e.interval := by
  obtain ⟨_, _, _, _, _, _, _, _, heq⟩ := e.startIfIdle_frame
  rw [heq]

/-- Nothing but a call that sets the interval changes it. -/
theorem interval_act (hact : e.act a = some later) :
    later.interval = a.interval?.getD e.interval := by
  cases a with
  | reconfigure | setOverride _ | clearOverride | register _ =>
    obtain rfl := Option.some.inj hact
    exact interval_reconfigure _
  | start =>
    obtain rfl := Option.some.inj hact
    unfold start
    split
    · rw [startRun_eq]
      rfl
    · rfl
  | stop =>
    obtain rfl := Option.some.inj hact
    rw [stop_eq]
    rfl
  | askDollars _ _ _ | askConversion _ _ _ _ =>
    obtain rfl := Option.some.inj hact
    exact interval_startIfIdle e
  | stepFeeds =>
    obtain rfl := eq_of_stepFeeds hact
    rfl
  | stepTask i =>
    obtain ⟨_, _, _, hstep⟩ := taskStep_of_stepTask hact
    obtain ⟨_, _, _, _, _, _, rfl⟩ := hstep.frame
    rfl
  | stepWaiter i =>
    obtain ⟨_, rfl⟩ := stepWaiter_frame hact
    rfl
  | _ =>
    obtain rfl := Option.some.inj hact
    rfl

theorem Execution.visits_first (h : Execution first trace e) : trace.Visits e [] first := by
  induction h with
  | nil => exact .inl ⟨rfl, rfl⟩
  | act _ _ ih => exact Trace.visits_cons_iff.mpr (.inr ih)

/-- There is always a pause exactly if there is one at the beginning and every interval that is set
is some time. -/
theorem alwaysPauses_iff_setsTime (h : Execution first trace e) :
    trace.AlwaysPauses e ↔ 0 < first.interval.nanos ∧ trace.SetsTime := by
  rw [Trace.SetsTime, Trace.forall_mem_iff]
  have hthroughout (hfirst : 0 < first.interval.nanos) := h.throughout_iff
    (P := fun _ s => 0 < s.interval.nanos)
    (Q := fun _ m => ∀ interval ∈ m.action.interval?, 0 < interval.nanos) hfirst
    fun before s a next _ _ hpause hact => by
      rw [interval_act hact]
      cases a.interval? with
      | none => simpa using hpause
      | some interval => simp
  constructor
  · intro hpauses
    have hfirst := hpauses [] first h.visits_first
    exact ⟨hfirst, (hthroughout hfirst).mp hpauses⟩
  · rintro ⟨hfirst, hsets⟩
    exact (hthroughout hfirst).mpr hsets

/-- If there is always a pause, no two cycles of a task are at one instant. -/
theorem Trace.AlwaysPauses.cyclesApart (hpauses : trace.AlwaysPauses e)
    (hfirst : first.tasks = []) (h : Execution first trace e) : trace.CyclesApart := by
  intro i m before hsuffix hbegins
  obtain hnone | ⟨t, hnow, -, since, last, earlier, rfl, hends, hstill, rfl⟩ :=
    begins_of_execution hfirst h hsuffix hbegins
  · exact .inl hnone
  · refine .inr ⟨since, last, earlier, rfl, hends, hstill, Nat.lt_of_lt_of_le ?_ hnow⟩
    have hlast : last :: earlier <:+ trace :=
      ((List.suffix_append ..).trans (List.suffix_cons ..)).trans hsuffix
    exact Nat.lt_add_of_pos_right (hpauses earlier last.engine (.inr ⟨last, hlast, rfl⟩))

end

theorem Fresh.pauses {settings : Settings} {first e : Engine φ} {trace : Trace φ}
    (hfirst : Fresh settings first) (h : Execution first trace e) :
    e.settings = settings ∧
      (trace.AlwaysPauses e ↔ 0 < settings.interval.nanos ∧ trace.SetsTime) ∧
      (trace.AlwaysPauses e → trace.CyclesApart) := by
  refine ⟨h.settings_eq.trans hfirst.settings, ?_, fun hpauses => ?_⟩
  · rw [alwaysPauses_iff_setsTime h, hfirst.interval]
  · exact hpauses.cyclesApart hfirst.tasks h

end ExchangeRates.Engine

namespace ExchangeRates

open Engine

/-- A simulation is made exactly with settings that have no defect. -/
theorem Simulation.ofScenario_cases (scenario : Scenario) (settings : Settings)
    (draws : Nat → Draws) (runtime : Bool) :
    (∃ defect, settings.defect? = some defect ∧
      ofScenario scenario settings draws runtime = .error defect) ∨
    (settings.defect? = none ∧ ∃ s, ofScenario scenario settings draws runtime = .ok s ∧
      Fresh settings s.engine) := by
  unfold ofScenario
  cases settings.defect? with
  | some defect => exact .inl ⟨defect, rfl, rfl⟩
  | none =>
    refine .inr ⟨rfl, _, rfl, ?_⟩
    obtain ⟨hsettings, hinterval, htasks⟩ := fresh_new settings (.lists scenario.rates)
      (feedsOf scenario draws) (List.range (feedsOf scenario draws).length) .empty runtime
    exact ⟨hsettings, hinterval, htasks⟩

/-- The engine of a simulation has settings without a defect, so it pauses between two cycles
exactly if every interval that is set is some time. The engine that a process makes when it is asked
for has the settings of the environment, with or without a defect, and pauses exactly if the
environment gives some time too. With a pause throughout, no two cycles of a task are at one
instant. -/
theorem alwaysPauses_iff {φ : Type} [PriceFeed φ] :
    (∀ scenario settings draws runtime,
      ((∃ s, Simulation.ofScenario scenario settings draws runtime = .ok s) ↔
        settings.defect? = none) ∧
      ∀ s trace e, Simulation.ofScenario scenario settings draws runtime = .ok s →
        Execution s.engine trace e → e.settings = settings ∧
          (trace.AlwaysPauses e ↔ trace.SetsTime) ∧ (trace.AlwaysPauses e → trace.CyclesApart)) ∧
    ∀ (process : SharedEngine φ) n first trace e, process.shared = none →
      process.access.1 = .ok (n, first) → Execution first trace e →
        (e.settings.defect? = none ↔ Settings.PassesCheck process.environment) ∧
        (trace.AlwaysPauses e ↔
          ¬ Settings.GivesNoTime process.environment "FX_UPDATE_INTERVAL_SECS" ∧ trace.SetsTime) ∧
        (trace.AlwaysPauses e → trace.CyclesApart) := by
  refine ⟨fun scenario settings draws runtime => ?_, ?_⟩
  · obtain ⟨defect, hdefect, herror⟩ | ⟨hnone, s, hok, hfresh⟩ :=
      Simulation.ofScenario_cases scenario settings draws runtime
    · rw [hdefect, herror]
      simp
    · rw [hnone, hok]
      refine ⟨by simp, fun s' trace e hs h => ?_⟩
      obtain rfl := Except.ok.inj hs
      obtain ⟨hsettings, hpauses, hapart⟩ := hfresh.pauses h
      refine ⟨hsettings, ?_, hapart⟩
      rw [hpauses, and_iff_right (Settings.defect?_eq_none_iff.mp hnone).1]
  · intro process n first trace e hunshared hgiven h
    cases hengine : SharedEngine.engineOf (φ := φ) process.environment process.runtime with
    | error fault => simp [SharedEngine.access_of_engineOf_error hunshared hengine] at hgiven
    | ok engine =>
      rw [SharedEngine.access_of_engineOf_ok hunshared hengine, Except.ok.injEq,
        Prod.mk.injEq] at hgiven
      obtain ⟨-, rfl⟩ := hgiven
      obtain ⟨settings, hread, rfl⟩ := SharedEngine.engineOf_eq_ok_iff.mp hengine
      obtain ⟨hpasses, htime⟩ := Settings.passesCheck_iff hread
      obtain ⟨hsettings, hpauses, hapart⟩ := (fresh_new settings ..).pauses h
      refine ⟨hsettings ▸ hpasses, ?_, hapart⟩
      rw [hpauses, htime]

/-- A process in which the variable for the interval is set. -/
def intervalProcess (seconds : String) : SharedEngine ScriptedFeed :=
  .new (.ofList [("FX_UPDATE_INTERVAL_SECS", seconds.toUTF8)]) true

/-- A tenth of a nanosecond is no time, and a quarter of a second is some. -/
theorem alwaysPauses_of_intervalProcess :
    (∃ first, (intervalProcess "1e-10").access.1 = .ok (0, first) ∧
      first.settings.defect? ≠ none ∧ ¬ Trace.AlwaysPauses [] first) ∧
    ∃ first trace e, (intervalProcess "0.25").access.1 = .ok (0, first) ∧
      Execution first trace e ∧ e.settings.defect? = none ∧ e.interval = .ofMillis 500 ∧
      trace.AlwaysPauses e ∧ trace.CyclesApart := by
  obtain ⟨-, hshared⟩ := alwaysPauses_iff (φ := ScriptedFeed)
  constructor
  · obtain ⟨first, hgiven⟩ : ∃ first, (intervalProcess "1e-10").access.1 = .ok (0, first) :=
      ⟨_, rfl⟩
    have hzero : Settings.GivesNoTime (intervalProcess "1e-10").environment
        "FX_UPDATE_INTERVAL_SECS" := ⟨_, rfl, by decide, by decide⟩
    obtain ⟨hpasses, hpauses, -⟩ := hshared _ 0 first [] first rfl hgiven .nil
    exact ⟨first, hgiven, fun hnone => (hpasses.mp hnone).interval hzero,
      fun h => (hpauses.mp h).1 hzero⟩
  · obtain ⟨first, hgiven, ⟨trace, e⟩, hperformed, hdefect, hinterval, hsets⟩ :
        ∃ first, (intervalProcess "0.25").access.1 = .ok (0, first) ∧
          ∃ run, first.perform [.setInterval (.ofMillis 500)] = some run ∧
            run.2.settings.defect? = none ∧ run.2.interval = .ofMillis 500 ∧ run.1.SetsTime :=
      ⟨_, rfl, _, rfl, rfl, rfl, by simp [Trace.SetsTime, Action.interval?, Duration.ofMillis,
        Duration.nanosPerMilli]⟩
    have h := execution_of_perform hperformed
    obtain ⟨hpasses, hpauses, hapart⟩ := hshared _ 0 first trace e rfl hgiven h
    have halways := hpauses.mpr ⟨(hpasses.mp hdefect).interval, hsets⟩
    exact ⟨first, trace, e, hgiven, h, hdefect, hinterval, halways, hapart halways⟩

/-- The engine that a process makes if the variable says zero. -/
def noPauseEngine : Engine ScriptedFeed :=
  .new { Settings.default with interval := .zero } .environment [] []
    (intervalProcess "0").environment true

/-- Two cycles of an engine without feeds and without a pause. -/
def twoCycles : List (Action ScriptedFeed) :=
  [.start, .stepTask 0, .stepTask 0, .stepTask 0, .stepTask 0]

/-- The shared engine is made with an interval of no time, which its settings may not have, and then
its cycles follow each other at one instant. -/
theorem exists_not_cyclesApart :
    (intervalProcess "0").access.1 = .ok (0, noPauseEngine) ∧
    noPauseEngine.settings.defect? = some .zeroInterval ∧
    ∃ trace e, Execution noPauseEngine trace e ∧ ¬ trace.AlwaysPauses e ∧
      ¬ trace.CyclesApart := by
  have hread : Settings.ofEnvironment (intervalProcess "0").environment =
      .ok { Settings.default with interval := .zero } := by decide +kernel
  have hengine : SharedEngine.engineOf (intervalProcess "0").environment true =
      .ok noPauseEngine := SharedEngine.engineOf_eq_ok_iff.mpr ⟨_, hread, rfl⟩
  refine ⟨?_, rfl, ?_⟩
  · rw [SharedEngine.access_of_engineOf_ok rfl hengine]
    rfl
  obtain ⟨m, d, before, e, hperformed, hbegins, hsteps, hnow⟩ :
      ∃ m d before e, noPauseEngine.perform twoCycles = some (m :: d :: before, e) ∧
        m.begins 0 = true ∧ d.steps 0 = true ∧ ∀ x ∈ m :: d :: before, x.engine.now = 0 :=
    ⟨_, _, _, _, rfl, rfl, rfl, by decide⟩
  have h := execution_of_perform hperformed
  refine ⟨_, e, h, ?_, ?_⟩
  · intro hpauses
    exact Nat.lt_irrefl 0 (hpauses [] noPauseEngine h.visits_first)
  · intro hapart
    obtain hnone | ⟨since, last, earlier, heq, -, -, hlater⟩ :=
      hapart 0 m (d :: before) List.suffix_rfl hbegins
    · simp [hnone d List.mem_cons_self] at hsteps
    · have hmem : last ∈ m :: d :: before := by simp [heq]
      simp [hnow m List.mem_cons_self, hnow last hmem] at hlater

end ExchangeRates

import ExchangeRates.CommandLine.Program
import ExchangeRates.Proofs.Engine.Pauses

namespace ExchangeRates.Program

/-- The variables of the settings are not set. -/
structure Unset (env : Environment) : Prop where
  interval : env.text? "FX_UPDATE_INTERVAL_SECS" = none
  gateTimeout : env.text? "FX_FEED_READY_TIMEOUT_SECS" = none
  defaultFeed : env.text? "FX_DEFAULT_FEED_NAME" = none

/-- The durations in arguments are durations, those of the engine some time, and the scenario can be
loaded. -/
structure Accepts (args : Arguments) (readFile : String → Except String String) : Prop where
  interval : ∀ x, args.interval = some x → Duration.Fits x ∧ ¬ Duration.AtMostHalfNano x
  feedTimeout : ∀ x, args.feedTimeout = some x → Duration.Fits x ∧ ¬ Duration.AtMostHalfNano x
  scenario : ∃ s, Scenario.load readFile args.config = .ok s
  reportEvery : Duration.Fits args.reportEvery

/-- What becomes of arguments before the first report. -/
inductive Prepares (args : Arguments) (readFile : String → Except String String) :
    Except Abort Run → Prop
  | refused (cause : ProgramError) (h : ¬ Accepts args readFile) :
    Prepares args readFile (.error (.error cause))
  | outOfReach (h : Accepts args readFile) (hduration : clockSeconds ≤ args.duration) :
    Prepares args readFile (.error (.fault .clockOverflow))
  | noPeriod (h : Accepts args readFile) (hduration : args.duration < clockSeconds)
    (hevery : Duration.AtMostHalfNano args.reportEvery) :
    Prepares args readFile (.error (.fault .zeroPeriod))
  | reports (r : Run) (h : Accepts args readFile) (hduration : args.duration < clockSeconds)
    (hevery : ¬ Duration.AtMostHalfNano args.reportEvery) : Prepares args readFile (.ok r)

section

variable {args : Arguments} {env : Environment} {readFile : String → Except String String}

theorem ofEnvironment_of_unset (h : Unset env) : Settings.ofEnvironment env = .ok .default := by
  simp only [Settings.ofEnvironment, Settings.readDuration, h.interval, h.gateTimeout,
    h.defaultFeed, Option.bind_none, Option.getD_none]
  rfl

theorem durationOf_of_fits {option : ValueOption} {x : Float} (h : Duration.Fits x) :
    durationOf option x = .ok ⟨Duration.nearestNanos x⟩ :=
  mapError_eq_ok_iff.mpr (Duration.ofFloat_of_fits h)

theorem exists_durationOf_of_not_fits (option : ValueOption) {x : Float} (h : ¬ Duration.Fits x) :
    ∃ cause, durationOf option x = .error (.error cause) := by
  obtain ⟨cause, hcause⟩ := Duration.ofFloat_of_not_fits h
  exact ⟨_, mapError_eq_error_iff.mpr ⟨cause, hcause, rfl⟩⟩

/-- The duration of an option that may be missing. It is no time exactly if the option is given and
its number is at most half a nanosecond. -/
theorem durationOr_cases (option : ValueOption) (seconds : Option Float) (earlier : Duration)
    (hearlier : 0 < earlier.nanos) :
    ((∀ x, seconds = some x → Duration.Fits x) ∧
      ∃ d, durationOr option seconds earlier = .ok d ∧
        (0 < d.nanos ↔ ∀ x, seconds = some x → ¬ Duration.AtMostHalfNano x)) ∨
    (¬ (∀ x, seconds = some x → Duration.Fits x) ∧
      ∃ cause, durationOr option seconds earlier = .error (.error cause)) := by
  cases seconds with
  | none => exact .inl ⟨by simp, earlier, rfl, by simp [hearlier]⟩
  | some x =>
    simp only [Option.some.injEq, forall_eq']
    by_cases hfits : Duration.Fits x
    · refine .inl ⟨hfits, _, durationOf_of_fits hfits, ?_⟩
      rw [← Duration.nearestNanos_eq_zero_iff, Nat.pos_iff_ne_zero]
    · exact .inr ⟨hfits, exists_durationOf_of_not_fits option hfits⟩

/-- The settings of arguments, where the environment gives none. -/
theorem settingsOf_cases (henv : Unset env) (args : Arguments) :
    ((∀ x, args.interval = some x → Duration.Fits x) ∧
      (∀ x, args.feedTimeout = some x → Duration.Fits x) ∧
      ∃ settings, settingsOf args env = .ok settings ∧ (settings.defect? = none ↔
        (∀ x, args.interval = some x → ¬ Duration.AtMostHalfNano x) ∧
          ∀ x, args.feedTimeout = some x → ¬ Duration.AtMostHalfNano x)) ∨
    (¬ ((∀ x, args.interval = some x → Duration.Fits x) ∧
        ∀ x, args.feedTimeout = some x → Duration.Fits x) ∧
      ∃ cause, settingsOf args env = .error (.error cause)) := by
  have hdefault : (Settings.ofEnvironment env).mapError Abort.fault = .ok .default :=
    mapError_eq_ok_iff.mpr (ofEnvironment_of_unset henv)
  unfold settingsOf
  simp only [bind_eq_ok_iff, bind_eq_error_iff, hdefault]
  obtain ⟨hinterval, interval, hread, hsome⟩ | ⟨hinterval, cause, hread⟩ :=
    durationOr_cases .interval args.interval Settings.default.interval (by decide)
  · obtain ⟨htimeout, gateTimeout, hread', hsome'⟩ | ⟨htimeout, cause, hread'⟩ :=
      durationOr_cases .feedTimeout args.feedTimeout Settings.default.gateTimeout (by decide)
    · refine .inl ⟨hinterval, htimeout,
        ⟨interval, gateTimeout, Settings.default.defaultFeed⟩, ?_, ?_⟩
      · exact ⟨_, rfl, interval, hread, gateTimeout, hread', rfl⟩
      · rw [Settings.defect?_eq_none_iff, hsome, hsome']
        simp [Settings.default]
    · refine .inr ⟨fun h => htimeout h.2, cause, ?_⟩
      exact .inr ⟨_, rfl, .inr ⟨interval, hread, .inl hread'⟩⟩
  · refine .inr ⟨fun h => hinterval h.1, cause, ?_⟩
    exact .inr ⟨_, rfl, .inl hread⟩

theorem runtime_now_of_ofScenario {scenario : Scenario} {settings : Settings}
    {draws : Nat → Draws} {runtime : Bool} {s : Simulation}
    (h : Simulation.ofScenario scenario settings draws runtime = .ok s) :
    s.engine.runtime = runtime ∧ s.engine.now = 0 := by
  obtain ⟨defect, -, herror⟩ | ⟨hnone, -⟩ :=
    Simulation.ofScenario_cases scenario settings draws runtime
  · cases herror.symm.trans h
  · unfold Simulation.ofScenario at h
    rw [hnone] at h
    obtain rfl := Except.ok.inj h
    simp only [Engine.note, Engine.new, Engine.reconfigure]
    split <;> exact ⟨rfl, rfl⟩

/-- The simulation of arguments: it is made if there is a scenario and the settings have no
defect. -/
theorem simulationOf_cases (args : Arguments) (readFile : String → Except String String)
    (seed : UInt64) (settings : Settings) :
    ((∃ scenario, Scenario.load readFile args.config = .ok scenario) ∧ settings.defect? = none ∧
      ∃ s, simulationOf args readFile seed settings = .ok s ∧ s.engine.runtime = true ∧
        s.engine.now = 0) ∨
    (¬ ((∃ scenario, Scenario.load readFile args.config = .ok scenario) ∧
        settings.defect? = none) ∧
      ∃ cause, simulationOf args readFile seed settings = .error (.error cause)) := by
  unfold simulationOf
  simp only [bind_eq_ok_iff, bind_eq_error_iff, mapError_eq_ok_iff, mapError_eq_error_iff]
  cases hload : Scenario.load readFile args.config with
  | error cause => exact .inr ⟨by simp, .scenario cause, .inl ⟨cause, rfl, rfl⟩⟩
  | ok scenario =>
    obtain ⟨defect, hdefect, herror⟩ | ⟨hnone, s, hs, -⟩ :=
      Simulation.ofScenario_cases scenario settings (drawsOf (args.seed.getD seed)) true
    · refine .inr ⟨by simp [hdefect], .settings defect, ?_⟩
      exact .inr ⟨scenario, rfl, defect, herror, rfl⟩
    · exact .inl ⟨⟨scenario, rfl⟩, hnone, s, ⟨scenario, rfl, hs⟩, runtime_now_of_ofScenario hs⟩

theorem outOfReach_iff (args : Arguments) :
    ((durationOfRun args).any fun d => clockSeconds ≤ Duration.seconds ⟨0 + d.nanos⟩) = true ↔
      clockSeconds ≤ args.duration := by
  unfold durationOfRun
  split
  · next hzero => simp [hzero, clockSeconds]
  · have hseconds : Duration.seconds ⟨0 + (Duration.ofSeconds args.duration).nanos⟩ =
        args.duration := by
      rw [Nat.zero_add]
      exact Nat.mul_div_cancel _ (by decide)
    rw [Option.any_some, hseconds, decide_eq_true_iff]

/-- A run begins unless its duration or the distance of its reports is out of bounds. -/
theorem beginRun_cases (args : Arguments) (s : Simulation) (hruntime : s.engine.runtime = true)
    (hnow : s.engine.now = 0) :
    (¬ Duration.Fits args.reportEvery ∧ ∃ cause later,
      beginRun args s = .error (.error cause, later)) ∨
    (Duration.Fits args.reportEvery ∧
      ((clockSeconds ≤ args.duration ∧ ∃ later,
        beginRun args s = .error (.fault .clockOverflow, later)) ∨
      (args.duration < clockSeconds ∧ Duration.AtMostHalfNano args.reportEvery ∧ ∃ later,
        beginRun args s = .error (.fault .zeroPeriod, later)) ∨
      (args.duration < clockSeconds ∧ ¬ Duration.AtMostHalfNano args.reportEvery ∧ ∃ r,
        beginRun args s = .ok r))) := by
  by_cases hfits : Duration.Fits args.reportEvery
  · refine .inr ⟨hfits, ?_⟩
    have hstart (events : List LogEvent) : (s.engine.note events).start =
        (.ok (), (s.engine.note events).startRun) := by
      rw [Engine.start, if_pos]
      exact hruntime
    have hstays (events : List LogEvent) : (s.engine.note events).startRun.now = 0 := by
      rw [Engine.startRun_eq]
      exact hnow
    rw [← Duration.nearestNanos_eq_zero_iff]
    simp only [beginRun, durationOf_of_fits hfits, Run.begin, Simulation.note, hstart, hstays,
      outOfReach_iff]
    by_cases hclock : clockSeconds ≤ args.duration
    · rw [if_pos hclock]
      exact .inl ⟨hclock, _, rfl⟩
    · rw [if_neg hclock]
      by_cases hevery : Duration.nearestNanos args.reportEvery = 0
      · rw [dif_neg (by omega)]
        exact .inr (.inl ⟨Nat.lt_of_not_le hclock, hevery, _, rfl⟩)
      · rw [dif_pos (Nat.pos_of_ne_zero hevery)]
        exact .inr (.inr ⟨Nat.lt_of_not_le hclock, hevery, _, rfl⟩)
  · obtain ⟨cause, hcause⟩ := exists_durationOf_of_not_fits .reportEvery hfits
    refine .inl ⟨hfits, cause, s, ?_⟩
    simp only [beginRun, hcause]

/-- Preparation refuses arguments, is a fault, or leads to a run. -/
theorem prepares_prepare (henv : Unset env) (args : Arguments)
    (readFile : String → Except String String) (seed : UInt64) :
    Prepares args readFile (prepare args env readFile seed).1 := by
  unfold prepare
  obtain ⟨hinterval, htimeout, settings, hsettings, hdefect⟩ | ⟨hrefused, cause, hsettings⟩ :=
    settingsOf_cases henv args
  · rw [hsettings]
    obtain ⟨hscenario, hnone, s, hs, hruntime, hnow⟩ | ⟨hrefused, cause, hs⟩ :=
      simulationOf_cases args readFile seed settings
    · simp only [hs]
      obtain ⟨hsome, hsome'⟩ := hdefect.mp hnone
      have haccepts (hevery : Duration.Fits args.reportEvery) : Accepts args readFile :=
        ⟨fun x hx => ⟨hinterval x hx, hsome x hx⟩, fun x hx => ⟨htimeout x hx, hsome' x hx⟩,
          hscenario, hevery⟩
      obtain ⟨hevery, cause, later, hbegin⟩ | ⟨hevery, ⟨hclock, later, hbegin⟩ |
        ⟨hclock, hzero, later, hbegin⟩ | ⟨hclock, hpos, r, hbegin⟩⟩ :=
        beginRun_cases args (s.note (hint args)) hruntime hnow
      all_goals simp only [hbegin]
      · exact .refused cause fun h => hevery h.reportEvery
      · exact .outOfReach (haccepts hevery) hclock
      · exact .noPeriod (haccepts hevery) hclock hzero
      · exact .reports _ (haccepts hevery) hclock hpos
    · simp only [hs]
      refine .refused cause fun h => hrefused ⟨h.scenario, hdefect.mpr ⟨?_, ?_⟩⟩
      · exact fun x hx => (h.interval x hx).2
      · exact fun x hx => (h.feedTimeout x hx).2
  · rw [hsettings]
    refine .refused cause fun h => hrefused ⟨?_, ?_⟩
    · exact fun x hx => (h.interval x hx).1
    · exact fun x hx => (h.feedTimeout x hx).1

/-- Once reports have begun no fault ends the program. -/
theorem code_outcomeOfRun (args : Arguments) (events : List LogEvent) (r : Run)
    (horizon : Horizon) : (outcomeOfRun args events (r.toEnd horizon)).code ≠ 101 := by
  unfold Run.toEnd
  dsimp only
  cases horizon.ending.2 with
  | none => exact (by decide : (0 : UInt8) ≠ 101)
  | some cause =>
    cases cause with
    | signal => exact (by decide : (0 : UInt8) ≠ 101)
    | listenerFailed reason => exact (by decide : (1 : UInt8) ≠ 101)

/-- The program ends by a fault exactly if its preparation does. -/
theorem code_outcome_iff {arguments : List String} (hargs : Arguments.ofList arguments = .ok args)
    (seed : UInt64) (after : Duration) (cause : Interruption) :
    (outcome arguments env readFile seed after cause).code = 101 ↔
      ∃ fault, (prepare args env readFile seed).1 = .error (.fault fault) := by
  simp only [outcome, hargs]
  rcases prepare args env readFile seed with ⟨(_ | fault) | r, events⟩
  · simp [outcomeOfAbort]
  · simp [outcomeOfAbort]
  · simp [code_outcomeOfRun]

namespace Prepares

variable {result : Except Abort Run}

theorem refused_iff (h : Prepares args readFile result) :
    (∃ cause, result = .error (.error cause)) ↔ ¬ Accepts args readFile := by
  cases h with
  | refused cause h => simp [h]
  | outOfReach h | noPeriod h | reports _ h => simp [h]

theorem reports_iff (h : Prepares args readFile result) :
    (∃ r, result = .ok r) ↔ Accepts args readFile ∧ args.duration < clockSeconds ∧
      ¬ Duration.AtMostHalfNano args.reportEvery := by
  cases h with
  | refused cause h => simp [h]
  | outOfReach h hduration => simp [Nat.not_lt.mpr hduration]
  | noPeriod h hduration hevery => simp [hevery]
  | reports r h hduration hevery => simp [h, hduration, hevery]

theorem fault_iff (h : Prepares args readFile result) (fault : Fault) :
    result = .error (.fault fault) ↔ Accepts args readFile ∧
      (fault = .clockOverflow ∧ clockSeconds ≤ args.duration ∨ fault = .zeroPeriod ∧
        args.duration < clockSeconds ∧ Duration.AtMostHalfNano args.reportEvery) := by
  cases h with
  | refused cause h => simp [h]
  | outOfReach h hduration => simp [h, hduration, Nat.not_lt.mpr hduration, eq_comm]
  | noPeriod h hduration hevery => simp [h, hduration, Nat.not_le.mpr hduration, hevery, eq_comm]
  | reports r h hduration hevery => simp [Nat.not_le.mpr hduration, hevery]

end Prepares

/-- Where the environment gives no settings, arguments are refused with an error or lead to the
reporting loop, unless their duration is out of reach of the clock or their reports have no
distance. These two end the program by a fault, and nothing after them does. -/
theorem ends_or_reports (henv : Unset env) (args : Arguments)
    (readFile : String → Except String String) (seed : UInt64) :
    ((∃ cause, (prepare args env readFile seed).1 = .error (.error cause)) ↔
      ¬ Accepts args readFile) ∧
    ((∃ r, (prepare args env readFile seed).1 = .ok r) ↔
      Accepts args readFile ∧ args.duration < clockSeconds ∧
        ¬ Duration.AtMostHalfNano args.reportEvery) ∧
    (∀ fault, (prepare args env readFile seed).1 = .error (.fault fault) ↔
      Accepts args readFile ∧ (fault = .clockOverflow ∧ clockSeconds ≤ args.duration ∨
        fault = .zeroPeriod ∧ args.duration < clockSeconds ∧
          Duration.AtMostHalfNano args.reportEvery)) ∧
    ∀ arguments after cause, Arguments.ofList arguments = .ok args →
      ((outcome arguments env readFile seed after cause).code = 101 ↔ Accepts args readFile ∧
        (clockSeconds ≤ args.duration ∨ Duration.AtMostHalfNano args.reportEvery)) := by
  have hprepares := prepares_prepare henv args readFile seed
  refine ⟨hprepares.refused_iff, hprepares.reports_iff, hprepares.fault_iff, ?_⟩
  intro arguments after cause hargs
  rw [code_outcome_iff hargs]
  simp only [hprepares.fault_iff]
  constructor
  · rintro ⟨fault, haccepts, ⟨-, hduration⟩ | ⟨-, -, hevery⟩⟩
    · exact ⟨haccepts, .inl hduration⟩
    · exact ⟨haccepts, .inr hevery⟩
  · rintro ⟨haccepts, hlimit⟩
    rcases lt_or_ge args.duration clockSeconds with hduration | hduration
    · exact ⟨_, haccepts, .inr ⟨rfl, hduration, hlimit.resolve_left (Nat.not_le.mpr hduration)⟩⟩
    · exact ⟨_, haccepts, .inl ⟨rfl, hduration⟩⟩

end

/-- The arguments that leave all options at their defaults. -/
def defaultArguments : Arguments := ⟨"basic", none, none, 1.0, none, 0, false⟩

/-- No file can be read. -/
def noFile (_ : String) : Except String String := .error "no such file"

theorem unset_empty : Unset .empty := ⟨rfl, rfl, rfl⟩

theorem accepts_basic {args : Arguments} (hconfig : args.config = "basic")
    (hinterval : args.interval = none) (htimeout : args.feedTimeout = none)
    (hevery : Duration.Fits args.reportEvery) : Accepts args noFile where
  interval := by simp [hinterval]
  feedTimeout := by simp [htimeout]
  scenario := ⟨Scenario.basic, by rw [hconfig]; rfl⟩
  reportEvery := hevery

/-- The defaults lead to the reporting loop, a negative distance of reports is refused, and none
between reports or a deadline at the end of the clock are faults. -/
theorem ends_or_reports_of_defaults :
    (∃ r, (prepare defaultArguments .empty noFile 7).1 = .ok r) ∧
    (∃ cause, (prepare { defaultArguments with reportEvery := -1.0 } .empty noFile 7).1 =
      .error (.error cause)) ∧
    (outcome ["--report-every=0"] .empty noFile 7 (.ofSeconds 3) .signal).code = 101 ∧
    (outcome ["--duration=9223372036854775807"] .empty noFile 7 (.ofSeconds 3) .signal).code =
      101 := by
  refine ⟨?_, ?_, ?_, ?_⟩
  · refine (ends_or_reports unset_empty defaultArguments noFile 7).2.1.mpr
      ⟨?_, by decide, by decide +kernel⟩
    exact accepts_basic rfl rfl rfl ⟨by decide, by decide⟩
  · refine (ends_or_reports unset_empty _ noFile 7).1.mpr fun h => ?_
    exact absurd h.reportEvery.1 (by decide)
  · refine ((ends_or_reports unset_empty { defaultArguments with reportEvery := 0.0 }
      noFile 7).2.2.2 _ _ _ rfl).mpr ⟨?_, .inr (by decide +kernel)⟩
    exact accepts_basic rfl rfl rfl ⟨by decide, by decide⟩
  · refine ((ends_or_reports unset_empty { defaultArguments with duration := 9223372036854775807 }
      noFile 7).2.2.2 _ _ _ rfl).mpr ⟨?_, .inl (by decide)⟩
    exact accepts_basic rfl rfl rfl ⟨by decide, by decide⟩

/-- Reports without a distance end the program by a fault. -/
theorem not_forall_code_ne :
    ¬ ∀ arguments, (outcome arguments .empty noFile 7 (.ofSeconds 3) .signal).code ≠ 101 := by
  intro h
  exact h ["--report-every=0"] (by decide +kernel)

end ExchangeRates.Program

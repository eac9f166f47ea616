import ExchangeRates.Proofs.Config.Resolve
import ExchangeRates.Proofs.Engine.BookHistory

namespace ExchangeRates.Engine

variable {φ : Type}

/-- What a configuration is resolved from. -/
structure ConfigInputs where
  override : Option RateOverride
  origin : ConfigOrigin
  environment : Environment

/-- The override is resolved, if there is one, and the raw lists otherwise. -/
def ConfigInputs.resolution (inputs : ConfigInputs) : Except RateError RateConfig :=
  match inputs.override with
  | some o => .ok (resolveOverride o)
  | none => (inputs.origin.load inputs.environment).bind resolveLists

def ConfigInputs.after (inputs : ConfigInputs) : Action φ → ConfigInputs
  | .setOverride o => { inputs with override := some o }
  | .clearOverride => { inputs with override := none }
  | .setOrigin origin => { inputs with origin }
  | .setEnvironment environment => { inputs with environment }
  | _ => inputs

def inputs (e : Engine φ) : ConfigInputs := ⟨e.override, e.origin, e.environment⟩

/-- Whether an action resolves the configuration. -/
def Action.resolves : Action φ → Bool
  | .reconfigure | .setOverride _ | .clearOverride | .register _ => true
  | _ => false

def Action.clearsOverride : Action φ → Bool
  | .clearOverride => true
  | _ => false

/-- Whether an action changes what the raw lists are. -/
def Action.changesLists : Action φ → Bool
  | .setOrigin _ | .setEnvironment _ => true
  | _ => false

/-- What the configuration would be resolved from after the moments of a trace. -/
def Trace.inputs (first : ConfigInputs) : Trace φ → ConfigInputs
  | [] => first
  | m :: earlier => (inputs first earlier).after m.action

/-- What the latest resolution that succeeded came to, at the beginning or in a trace; the empty
configuration if there was none. -/
def Trace.effective (first : ConfigInputs) : Trace φ → RateConfig
  | [] => first.resolution.toOption.getD .empty
  | m :: earlier =>
    if m.action.resolves then
      (Trace.inputs first (m :: earlier)).resolution.toOption.getD (effective first earlier)
    else effective first earlier

/-- The engine, with its raw lists from somewhere else. -/
def withLists (e : Engine φ) (origin : ConfigOrigin) (environment : Environment) : Engine φ :=
  { e with origin, environment }

section

variable {e : Engine φ} {a : Action φ} {origin : ConfigOrigin} {environment : Environment}

/-- A resolution succeeds exactly if an override is installed, or the raw lists can be loaded and
are well formed. -/
theorem ConfigInputs.exists_resolution_eq_ok_iff {inputs : ConfigInputs} :
    (∃ config, inputs.resolution = .ok config) ↔ inputs.override.isSome = true ∨
      ∃ raw, inputs.origin.load inputs.environment = .ok raw ∧ raw.WellFormed := by
  unfold resolution
  cases inputs.override with
  | some o => simp
  | none =>
    change (∃ config, (inputs.origin.load inputs.environment >>= resolveLists) = .ok config) ↔ _
    simp [exists_bind_eq_ok_iff, exists_resolveLists_eq_ok_iff]

theorem resolution_eq (e : Engine φ) : e.resolution = e.inputs.resolution := by
  unfold resolution ConfigInputs.resolution inputs
  dsimp only
  cases e.override <;> rfl

theorem resolves?_eq (e : Engine φ) (a : Action φ) :
    e.resolves? a =
      if a.resolves then (e.inputs.after a).resolution.toOption else none := by
  cases a <;> simp only [resolves?, Action.resolves, resolution_eq] <;> rfl

/-- A resolution keeps the required assets among all assets, whether it succeeds or not. -/
theorem ConfigInputs.nested_getD_resolution {inputs : ConfigInputs} {config : RateConfig}
    (h : config.Nested) : (inputs.resolution.toOption.getD config).Nested := by
  cases hresolution : inputs.resolution with
  | error error => exact h
  | ok resolved =>
    unfold resolution at hresolution
    split at hresolution
    · next o _ =>
      obtain rfl := Except.ok.inj hresolution
      exact nested_resolveOverride o
    · obtain ⟨raw, -, hraw⟩ := bind_eq_ok_iff.mp hresolution
      exact nested_of_resolveLists hraw

theorem config_reconfigure (e : Engine φ) :
    e.reconfigure.config = e.inputs.resolution.toOption.getD e.config := by
  rw [reconfigure, resolution_eq]
  cases e.inputs.resolution <;> rfl

theorem reconfigure_of_error {error : RateError} (h : e.resolution = .error error) :
    e.reconfigure = { e with log := e.log ++ #[.configRejected error] } := by
  simp only [reconfigure, h, note]

theorem inputs_reconfigure (e : Engine φ) : e.reconfigure.inputs = e.inputs := by
  unfold reconfigure
  split <;> rfl

theorem reconfigure_withLists (h : e.override.isSome = true) :
    (e.withLists origin environment).reconfigure = e.reconfigure.withLists origin environment := by
  obtain ⟨o, ho⟩ := Option.isSome_iff_exists.mp h
  simp [reconfigure, resolution, withLists, ho, resolve]

theorem completeCycle_withLists (e : Engine φ) (i notifier : Nat) (config : RateConfig)
    (answers : List (String × Answer)) :
    (e.withLists origin environment).completeCycle i notifier config answers =
      (e.completeCycle i notifier config answers).withLists origin environment := by
  unfold completeCycle withLists note
  dsimp only
  split <;> rfl

end

variable [PriceFeed φ]

section

variable {e later : Engine φ} {a : Action φ} {origin : ConfigOrigin} {environment : Environment}

theorem inputs_startIfIdle (e : Engine φ) : e.startIfIdle.inputs = e.inputs := by
  obtain ⟨_, _, _, _, _, _, _, _, heq⟩ := e.startIfIdle_frame
  rw [heq]
  rfl

theorem inputs_act (hact : e.act a = some later) : later.inputs = e.inputs.after a := by
  cases a with
  | reconfigure | setOverride _ | clearOverride | register _ =>
    obtain rfl := Option.some.inj hact
    exact inputs_reconfigure _
  | start =>
    obtain rfl := Option.some.inj hact
    unfold start
    split
    · rw [startRun_eq]
      rfl
    · rfl
  | stop =>
    obtain rfl := Option.some.inj hact
    rw [stop_eq]
    rfl
  | askDollars _ _ _ | askConversion _ _ _ _ =>
    obtain rfl := Option.some.inj hact
    exact inputs_startIfIdle e
  | stepFeeds =>
    obtain rfl := eq_of_stepFeeds hact
    rfl
  | stepTask i =>
    obtain ⟨_, _, _, hstep⟩ := taskStep_of_stepTask hact
    obtain ⟨_, _, _, _, _, _, rfl⟩ := hstep.frame
    rfl
  | stepWaiter i =>
    obtain ⟨_, rfl⟩ := stepWaiter_frame hact
    rfl
  | _ =>
    obtain rfl := Option.some.inj hact
    rfl

theorem startRun_withLists (e : Engine φ) :
    (e.withLists origin environment).startRun = e.startRun.withLists origin environment := by
  rw [startRun_eq, startRun_eq]
  rfl

theorem start_withLists (e : Engine φ) :
    (e.withLists origin environment).start =
      (e.start.1, e.start.2.withLists origin environment) := by
  change (if e.runtime then (_, (e.withLists origin environment).startRun) else _) = _
  rw [startRun_withLists, start]
  split <;> rfl

theorem startIfIdle_withLists (e : Engine φ) :
    (e.withLists origin environment).startIfIdle =
      e.startIfIdle.withLists origin environment := by
  have hstarted : (e.withLists origin environment).started = e.started := rfl
  rw [startIfIdle, startIfIdle, start_withLists, hstarted]
  split
  · rfl
  · cases e.start with
    | mk result later => cases result <;> rfl

theorem stepTask_withLists (e : Engine φ) (i : Nat) :
    (e.withLists origin environment).stepTask i =
      (e.stepTask i).map (·.withLists origin environment) := by
  unfold stepTask withLists
  dsimp only
  split
  · rfl
  · split
    · rfl
    · split
      · rfl
      · split <;> rfl
      · unfold stepGate
        dsimp only
        split
        · rfl
        · split <;> rfl
      · unfold stepFetching
        dsimp only
        split
        · rfl
        · rfl
        · rw [Option.map_map]
          congr 1
          funext answers
          exact completeCycle_withLists e i _ _ answers

/-- While an override is installed, an action does the same whatever the raw lists are. -/
theorem act_withLists (hoverride : e.override.isSome = true) (hclears : a.clearsOverride = false)
    (hlists : a.changesLists = false) :
    (e.withLists origin environment).act a =
      (e.act a).map (·.withLists origin environment) := by
  cases a with
  | reconfigure => exact congrArg some (reconfigure_withLists hoverride)
  | setOverride o =>
    exact congrArg some (reconfigure_withLists (e := { e with override := some o }) rfl)
  | clearOverride => cases hclears
  | register ids =>
    exact congrArg some (reconfigure_withLists (e := { e with registered := ids }) hoverride)
  | setOrigin _ | setEnvironment _ => cases hlists
  | start => exact congrArg some (congrArg Prod.snd (start_withLists e))
  | stop =>
    refine congrArg some ?_
    rw [stop_eq, stop_eq]
    rfl
  | askDollars asset price source =>
    refine congrArg some ?_
    simp only [askDollars, startIfIdle_withLists]
    rfl
  | askConversion amount fromAsset toAsset source =>
    refine congrArg some ?_
    simp only [askConversion, startIfIdle_withLists]
    rfl
  | stepFeeds =>
    change (e.withLists origin environment).stepFeeds = e.stepFeeds.map _
    unfold stepFeeds withLists
    dsimp only
    split <;> rfl
  | stepTask i => exact stepTask_withLists e i
  | stepWaiter i =>
    change (e.withLists origin environment).stepWaiter i = (e.stepWaiter i).map _
    unfold stepWaiter withLists
    dsimp only
    split
    · rfl
    · split <;> rfl
    · rfl
  | _ => rfl

theorem exists_act_of_changesLists (hlists : a.changesLists = true) :
    ∃ next, e.act a = some next ∧ next.override = e.override ∧
      ∀ origin environment, next.withLists origin environment = e.withLists origin environment := by
  cases a with
  | setOrigin _ | setEnvironment _ => exact ⟨_, rfl, rfl, fun _ _ => rfl⟩
  | _ => cases hlists

theorem isSome_override_act (h : e.override.isSome = true) (hclears : a.clearsOverride = false)
    (hact : e.act a = some later) : later.override.isSome = true := by
  have hinputs := congrArg ConfigInputs.override (inputs_act hact)
  rw [show later.override = (e.inputs.after a).override from hinputs]
  cases a with
  | clearOverride => cases hclears
  | setOverride o => rfl
  | _ => exact h

theorem snd_perform_cons (e : Engine φ) (a : Action φ) (actions : List (Action φ)) :
    (e.perform (a :: actions)).map Prod.snd =
      (e.act a).bind fun next => (next.perform actions).map Prod.snd := by
  rw [perform, Option.map_bind]
  congr 1
  funext next
  simp only [Function.comp_apply, Option.map_map]
  rfl

/-- While an override is installed, calls that leave it there do the same whatever the raw lists are
and become. -/
theorem perform_withLists (hoverride : e.override.isSome = true) (actions : List (Action φ))
    (hclears : ∀ a ∈ actions, a.clearsOverride = false) :
    ((e.withLists origin environment).perform (actions.filter fun a => !a.changesLists)).map
        Prod.snd =
      ((e.perform actions).map Prod.snd).map (·.withLists origin environment) := by
  induction actions generalizing e with
  | nil => rfl
  | cons a actions ih =>
    rw [List.forall_mem_cons] at hclears
    rw [snd_perform_cons]
    cases hlists : a.changesLists with
    | true =>
      obtain ⟨next, hact, hsame, hlater⟩ := exists_act_of_changesLists (e := e) hlists
      rw [List.filter_cons_of_neg (by simp [hlists]), hact, Option.bind_some,
        ← hlater origin environment]
      exact ih (hsame ▸ hoverride) hclears.2
    | false =>
      rw [List.filter_cons_of_pos (by simp [hlists]), snd_perform_cons,
        act_withLists hoverride hclears.1 hlists]
      cases hact : e.act a with
      | none => rfl
      | some next => exact ih (isSome_override_act hoverride hclears.1 hact) hclears.2

end

section

variable {settings : Settings} {origin : ConfigOrigin} {feeds : List φ} {registered : List FeedId}
  {environment : Environment} {runtime : Bool} {trace : Trace φ} {e later : Engine φ}

/-- An action that resolves without success changes nothing but what it was called for. -/
theorem act_of_resolution_error {a : Action φ} {error : RateError} (hresolves : a.resolves = true)
    (h : (e.inputs.after a).resolution = .error error) :
    e.act a = some { e with
      override := (e.inputs.after a).override
      registered := e.registeredAfter a
      log := e.log ++ #[.configRejected error] } := by
  cases a with
  | reconfigure => exact congrArg some (reconfigure_of_error ((resolution_eq _).trans h))
  | setOverride o =>
    exact congrArg some (reconfigure_of_error (e := { e with override := some o })
      ((resolution_eq _).trans h))
  | clearOverride =>
    exact congrArg some (reconfigure_of_error (e := { e with override := none })
      ((resolution_eq _).trans h))
  | register ids =>
    exact congrArg some (reconfigure_of_error (e := { e with registered := ids })
      ((resolution_eq _).trans h))
  | _ => cases hresolves

theorem config_act_eq {a : Action φ} (hact : e.act a = some later) :
    later.config =
      if a.resolves then later.inputs.resolution.toOption.getD e.config else e.config := by
  rw [config_act hact, resolves?_eq, inputs_act hact]
  split <;> rfl

theorem config_invariant
    (h : Execution (new settings origin feeds registered environment runtime) trace e) :
    e.inputs = trace.inputs ⟨none, origin, environment⟩ ∧
      e.config = trace.effective ⟨none, origin, environment⟩ ∧ e.config.Nested := by
  induction h with
  | nil =>
    have hconfig : (new settings origin feeds registered environment runtime).config =
        Trace.effective (φ := φ) ⟨none, origin, environment⟩ [] :=
      config_reconfigure _
    refine ⟨inputs_reconfigure _, hconfig, ?_⟩
    rw [hconfig]
    exact ConfigInputs.nested_getD_resolution RateConfig.nested_empty
  | @act trace e later a hbefore hact ih =>
    obtain ⟨hinputs, hconfig, hnested⟩ := ih
    have hlater : later.inputs = Trace.inputs ⟨none, origin, environment⟩ (⟨e, a⟩ :: trace) := by
      rw [inputs_act hact, hinputs]
      rfl
    have heffective := config_act_eq hact
    refine ⟨hlater, ?_, ?_⟩
    · rw [heffective, Trace.effective, hlater, hconfig]
    · rw [heffective]
      split
      · exact ConfigInputs.nested_getD_resolution hnested
      · exact hnested

/-- The effective configuration is what the latest resolution that succeeded came to, and its
required assets are among all its assets. A resolution succeeds exactly if an override is installed
or the raw lists are there and well formed; one that fails changes nothing but the override or the
feeds that it was called with, and the log. While an override is installed, it makes no difference
to the engine what the raw lists are and become. -/
theorem config_eq_effective
    (h : Execution (new settings origin feeds registered environment runtime) trace e) :
    e.config = trace.effective ⟨none, origin, environment⟩ ∧
    e.inputs = trace.inputs ⟨none, origin, environment⟩ ∧ e.config.Nested ∧
    (∀ a : Action φ, a.resolves = true →
      ((∃ config, (e.inputs.after a).resolution = .ok config) ↔
        (e.inputs.after a).override.isSome = true ∨ ∃ raw,
          e.origin.load e.environment = .ok raw ∧ raw.WellFormed) ∧
      ∀ error, (e.inputs.after a).resolution = .error error →
        e.act a = some { e with
          override := (e.inputs.after a).override
          registered := e.registeredAfter a
          log := e.log ++ #[.configRejected error] }) ∧
    (e.override.isSome = true → ∀ actions : List (Action φ),
      (∀ a ∈ actions, a.clearsOverride = false) → ∀ origin environment,
      ((e.withLists origin environment).perform (actions.filter fun a => !a.changesLists)).map
          Prod.snd =
        ((e.perform actions).map Prod.snd).map (·.withLists origin environment)) := by
  obtain ⟨hinputs, hconfig, hnested⟩ := config_invariant h
  refine ⟨hconfig, hinputs, hnested, fun a hresolves => ⟨?_, fun error => ?_⟩, ?_⟩
  · have hlists : (e.inputs.after a).origin = e.origin ∧
        (e.inputs.after a).environment = e.environment := by
      cases a <;> first | exact ⟨rfl, rfl⟩ | cases hresolves
    rw [ConfigInputs.exists_resolution_eq_ok_iff, hlists.1, hlists.2]
  · exact act_of_resolution_error hresolves
  · intro hoverride actions hclears origin environment
    exact perform_withLists hoverride actions hclears

end

/-- An override is installed, and then the raw lists can no longer be loaded. -/
def overriddenThenBroken : List (Action ScriptedFeed) :=
  [.setOverride ⟨.ofList [(.ofText "USDC", ⟨1.0, "fast"⟩)], .empty⟩, .setOrigin (.failing "down")]

/-- The override cannot be cleared without an error, which leaves its configuration in force. -/
theorem config_of_overriddenThenBroken :
    ∃ trace e, Execution bitcoinEngine trace e ∧ e.config.global.keys = [.ofText "USDC"] ∧
      e.config = trace.effective ⟨none, .lists ⟨[["BTC", "fast"]], []⟩, .empty⟩ ∧
      e.act .clearOverride = some { e with
        override := none
        log := e.log ++ #[.configRejected (.badConfig (.notLoaded "down"))] } ∧
      ((e.withLists .environment .empty).perform [.reconfigure, .start]).map Prod.snd =
        ((e.perform [.reconfigure, .setOrigin (.lists .empty), .start]).map Prod.snd).map
          (·.withLists .environment .empty) := by
  obtain ⟨⟨trace, e⟩, hperformed, hkeys, hinstalled, hresolution⟩ :
      ∃ run, bitcoinEngine.perform overriddenThenBroken = some run ∧
        run.2.config.global.keys = [.ofText "USDC"] ∧ run.2.override.isSome = true ∧
        (run.2.inputs.after (.clearOverride : Action ScriptedFeed)).resolution =
          .error (.badConfig (.notLoaded "down")) :=
    ⟨_, rfl, by decide, rfl, rfl⟩
  have h := execution_of_perform hperformed
  obtain ⟨hconfig, -, -, hfailure, hlists⟩ := config_eq_effective h
  refine ⟨trace, e, h, hkeys, hconfig, (hfailure .clearOverride rfl).2 _ hresolution, ?_⟩
  exact hlists hinstalled [.reconfigure, .setOrigin (.lists .empty), .start]
    (by simp [Action.clearsOverride]) .environment .empty

end ExchangeRates.Engine

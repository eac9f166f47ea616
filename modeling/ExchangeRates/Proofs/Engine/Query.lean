import ExchangeRates.Proofs.Engine.BookHistory

namespace ExchangeRates.Engine

variable {φ ψ : Type}

/-- Two engines agree on what questions are answered from. -/
structure Agree (e : Engine φ) (other : Engine ψ) : Prop where
  merged : e.book.merged.get? = other.book.merged.get?
  prices : ∀ feed,
    (e.book.prices? feed).map Table.get? = (other.book.prices? feed).map Table.get?
  requires : e.config.requires = other.config.requires
  defaultFeed : e.settings.defaultFeed = other.settings.defaultFeed

/-- A later engine knows, and is set to do, what an earlier one did. -/
structure Keeps (e later : Engine φ) : Prop where
  merged : later.book.merged = e.book.merged
  snapshots : later.book.snapshots = e.book.snapshots
  config : later.config = e.config
  override : later.override = e.override
  interval : later.interval = e.interval
  registered : later.registered = e.registered

section

variable {e : Engine φ} {other : Engine ψ}

/-- The source of the merged rates holds them as long as no feed has answered under its name. -/
theorem ratesFrom_mergedSource (h : e.book.prices? mergedSource = none) :
    e.ratesFrom mergedSource = .ok e.book.merged := by
  rw [ratesFrom, if_neg (by decide), h]
  rfl

/-- Engines that agree find the same rates under every source, or the same error. -/
theorem Agree.ratesFrom_cases (h : e.Agree other) (source : String) :
    (∃ rates same, e.ratesFrom source = .ok rates ∧ other.ratesFrom source = .ok same ∧
      rates.get? = same.get?) ∨
    ∃ error, e.ratesFrom source = .error error ∧ other.ratesFrom source = .error error := by
  unfold ratesFrom
  rw [h.defaultFeed]
  split
  · have hprices := h.prices other.settings.defaultFeed
    cases hown : e.book.prices? other.settings.defaultFeed <;>
      cases hsame : other.book.prices? other.settings.defaultFeed <;> simp_all
  · have hprices := h.prices source
    have hmerged := h.merged
    cases hown : e.book.prices? source <;> cases hsame : other.book.prices? source <;>
      by_cases hsource : source = mergedSource <;> simp_all

theorem Agree.map_askRates (h : e.Agree other) (source : String) :
    (e.askRates source).1.map Table.get? = (other.askRates source).1.map Table.get? := by
  change (e.ratesFrom source).map Table.get? = (other.ratesFrom source).map Table.get?
  obtain ⟨rates, same, hrates, hsame, heq⟩ | ⟨error, hrates, hsame⟩ := h.ratesFrom_cases source
  · rw [hrates, hsame]
    exact congrArg Except.ok heq
  · rw [hrates, hsame]

end

theorem adjusted_congr {config same : RateConfig} {rates others : Rates}
    (hrequires : config.requires = same.requires) (hrates : rates.get? = others.get?)
    (asset : Symbol) (price : Float) :
    adjusted config rates asset price = adjusted same others asset price := by
  simp only [adjusted, hrequires, hrates]

theorem convertedAmount_congr {rates others : Rates} (hrates : rates.get? = others.get?)
    (amount : Float) (source target : Symbol) :
    convertedAmount rates amount source target = convertedAmount others amount source target := by
  simp only [convertedAmount, hrates]

theorem Keeps.note {e later : Engine φ} (h : e.Keeps later) (events : List LogEvent) :
    e.Keeps (later.note events) :=
  ⟨h.merged, h.snapshots, h.config, h.override, h.interval, h.registered⟩

variable [PriceFeed φ]

theorem ratesFrom_startIfIdle (e : Engine φ) (source : String) :
    e.startIfIdle.ratesFrom source = e.ratesFrom source := by
  obtain ⟨_, _, _, _, _, _, _, _, heq⟩ := e.startIfIdle_frame
  rw [heq]
  rfl

theorem keeps_startIfIdle (e : Engine φ) : e.Keeps e.startIfIdle := by
  obtain ⟨_, _, _, _, _, _, _, _, heq⟩ := e.startIfIdle_frame
  rw [heq]
  exact ⟨rfl, rfl, rfl, rfl, rfl, rfl⟩

theorem startIfIdle_of_started {e : Engine φ} (h : e.started = true) : e.startIfIdle = e :=
  if_pos h

theorem askDollars_eq (e : Engine φ) (asset : String) (price : Float) (source : Option String) :
    (e.askDollars asset price source).1 = (e.ratesFrom (source.getD mergedSource)).map
      fun rates => adjusted e.config rates (.ofText asset) price := by
  rw [← ratesFrom_startIfIdle, ← e.keeps_startIfIdle.config]
  rfl

theorem askConversion_eq (e : Engine φ) (amount : Float) (fromAsset toAsset : String)
    (source : Option String) :
    (e.askConversion amount fromAsset toAsset source).1 =
      (e.ratesFrom (source.getD mergedSource)).bind
        fun rates => convertedAmount rates amount (.ofText fromAsset) (.ofText toAsset) := by
  rw [← ratesFrom_startIfIdle]
  rfl

section

variable {e : Engine φ} {other : Engine ψ} [PriceFeed ψ]

theorem Agree.askDollars_eq (h : e.Agree other) (asset : String) (price : Float)
    (source : Option String) :
    (e.askDollars asset price source).1 = (other.askDollars asset price source).1 := by
  rw [Engine.askDollars_eq, Engine.askDollars_eq]
  obtain ⟨rates, same, hrates, hsame, heq⟩ | ⟨error, hrates, hsame⟩ :=
    h.ratesFrom_cases (source.getD mergedSource)
  · rw [hrates, hsame]
    exact congrArg Except.ok (adjusted_congr h.requires heq _ _)
  · rw [hrates, hsame]
    rfl

theorem Agree.askConversion_eq (h : e.Agree other) (amount : Float) (fromAsset toAsset : String)
    (source : Option String) :
    (e.askConversion amount fromAsset toAsset source).1 =
      (other.askConversion amount fromAsset toAsset source).1 := by
  rw [Engine.askConversion_eq, Engine.askConversion_eq]
  obtain ⟨rates, same, hrates, hsame, heq⟩ | ⟨error, hrates, hsame⟩ :=
    h.ratesFrom_cases (source.getD mergedSource)
  · rw [hrates, hsame, Except.bind, Except.bind]
    exact convertedAmount_congr heq _ _ _
  · rw [hrates, hsame]

end

/-- A question leaves the merged rates, the prices of the feeds, the configuration, the override,
the update interval and the list of feeds as they are. One for the rates of a source changes nothing
but the log, and neither does any other while the engine is started. Engines that agree on what
questions are answered from give the same answers, whatever their runs and feeds are. -/
theorem ask_readOnly (e : Engine φ) :
    (∀ source, ∃ log, (e.askRates source).2 = { e with log }) ∧
    (∀ asset price source, e.Keeps (e.askDollars asset price source).2 ∧
      (e.started = true → ∃ log, (e.askDollars asset price source).2 = { e with log })) ∧
    (∀ amount fromAsset toAsset source,
      e.Keeps (e.askConversion amount fromAsset toAsset source).2 ∧
      (e.started = true →
        ∃ log, (e.askConversion amount fromAsset toAsset source).2 = { e with log })) ∧
    ∀ {ψ : Type} [PriceFeed ψ] (other : Engine ψ), e.Agree other →
      (∀ source, (e.askRates source).1.map Table.get? = (other.askRates source).1.map Table.get?) ∧
      (∀ asset price source,
        (e.askDollars asset price source).1 = (other.askDollars asset price source).1) ∧
      ∀ amount fromAsset toAsset source,
        (e.askConversion amount fromAsset toAsset source).1 =
          (other.askConversion amount fromAsset toAsset source).1 := by
  have hkeeps (source : String) : e.Keeps (e.startIfIdle.askRates source).2 :=
    e.keeps_startIfIdle.note _
  have hstarted (hrun : e.started = true) (source : String) :
      ∃ log, (e.startIfIdle.askRates source).2 = { e with log } := by
    rw [startIfIdle_of_started hrun]
    exact ⟨_, rfl⟩
  refine ⟨fun source => ⟨_, rfl⟩, ?_, ?_, ?_⟩
  · intro asset price source
    exact ⟨hkeeps _, fun hrun => hstarted hrun _⟩
  · intro amount fromAsset toAsset source
    exact ⟨hkeeps _, fun hrun => hstarted hrun _⟩
  · intro ψ _ other hagree
    exact ⟨hagree.map_askRates, hagree.askDollars_eq, hagree.askConversion_eq⟩

/-- An engine that polls answers as one that has been stopped and cannot start again. -/
theorem ask_of_stoppedForGood :
    ∃ e stopped : Engine ScriptedFeed, e.started = true ∧ stopped.started = false ∧
      stopped.runtime = false ∧ e.Agree stopped ∧
      (e.askDollars " usdc " 3.0 none).1 = (stopped.askDollars " usdc " 3.0 none).1 ∧
      (e.askConversion 3.0 "btc" "usdc" (some "fast")).1 =
        (stopped.askConversion 3.0 "btc" "usdc" (some "fast")).1 ∧
      (∃ log, (e.askDollars " usdc " 3.0 none).2 = { e with log }) ∧
      stopped.Keeps (stopped.askDollars " usdc " 3.0 none).2 := by
  obtain ⟨⟨trace, e⟩, -, hstarted⟩ : ∃ run, bitcoinEngine.perform replacedInFlight = some run ∧
      run.2.started = true := ⟨_, rfl, rfl⟩
  let stopped : Engine ScriptedFeed := { e.stop with runtime := false }
  have hstopped : stopped.started = false ∧ stopped.book = e.book ∧
      stopped.config = e.config ∧ stopped.settings = e.settings := by
    simp only [stopped, stop_eq, and_self]
  obtain ⟨hidle, hbook, hconfig, hsettings⟩ := hstopped
  have hagree : e.Agree stopped :=
    ⟨by rw [hbook], fun _ => by rw [hbook], by rw [hconfig], by rw [hsettings]⟩
  obtain ⟨-, hdollars, -, hanswers⟩ := ask_readOnly e
  obtain ⟨-, hsame, hconversion⟩ := hanswers stopped hagree
  obtain ⟨-, hkept, -, -⟩ := ask_readOnly stopped
  exact ⟨e, stopped, hstarted, hidle, rfl, hagree, hsame _ _ _, hconversion _ _ _ _,
    (hdollars _ _ _).2 hstarted, (hkept _ _ _).1⟩

end ExchangeRates.Engine

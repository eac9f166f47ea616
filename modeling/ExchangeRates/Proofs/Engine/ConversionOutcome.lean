import ExchangeRates.Proofs.Engine.Conversion
import ExchangeRates.Proofs.Spelling

namespace ExchangeRates.Engine

/-- An asset has no rate, or one that is marked as not known. -/
def Unknown (rates : Rates) (asset : Symbol) : Prop :=
  ∀ rate, rates.get? asset = some rate → rate.isNaN = true

theorem isNaN_rateIn_iff {rates : Rates} {asset : Symbol} :
    (rateIn rates asset).isNaN = true ↔ Unknown rates asset := by
  unfold rateIn Unknown
  cases rates.get? asset with
  | none => exact iff_of_true rfl nofun
  | some rate => exact ⟨fun h _ hsame => Option.some.inj hsame ▸ h, fun h => h rate rfl⟩

variable {φ : Type}

/-- The rates of a source that is not known are refused with the name of its feed. -/
theorem eq_unknownSource_of_ratesFrom {e : Engine φ} {source : String} {error : RateError}
    (h : e.ratesFrom source = .error error) :
    error = .unknownSource (feedOf e.settings source) := by
  by_cases hsource : source = mergedSource
  · rw [hsource, ratesFrom_mergedSource_eq] at h
    cases h
  · rw [ratesFrom_eq e hsource] at h
    cases hprices : e.book.prices? (feedOf e.settings source) with
    | none =>
      rw [hprices] at h
      exact (Except.error.inj h).symm
    | some prices =>
      rw [hprices] at h
      cases h

variable [PriceFeed φ]

section

variable {e : Engine φ} {fromAsset toAsset : String} {source : Option String}

theorem askConversion_of_rejected (amount : Float) (fromAsset toAsset : String) {error : RateError}
    (h : e.ratesFrom (source.getD mergedSource) = .error error) :
    (e.askConversion amount fromAsset toAsset source).1 = .error error := by
  rw [askConversion_eq, h]
  rfl

theorem askConversion_of_etherPair (amount : Float) {rates : Rates}
    (hrates : e.ratesFrom (source.getD mergedSource) = .ok rates)
    (hpair : Symbol.EtherPair (.ofText fromAsset) (.ofText toAsset)) :
    (e.askConversion amount fromAsset toAsset source).1 = .ok amount := by
  rw [askConversion_eq, hrates, Except.bind, convertedAmount,
    if_pos (Symbol.isEtherPair_iff.mpr hpair)]

/-- A conversion by known rates, other than of ether, is refused if one of its two is missing. -/
theorem askConversion_cases (amount : Float) {rates : Rates}
    (hrates : e.ratesFrom (source.getD mergedSource) = .ok rates)
    (hpair : ¬ Symbol.EtherPair (.ofText fromAsset) (.ofText toAsset)) :
    (Unknown rates (.ofText fromAsset) ∨ Unknown rates (.ofText toAsset)) ∧
      (e.askConversion amount fromAsset toAsset source).1 =
        .error (.rateNotKnown (.ofText fromAsset) (.ofText toAsset)) ∨
    ¬ (Unknown rates (.ofText fromAsset) ∨ Unknown rates (.ofText toAsset)) ∧
      (e.askConversion amount fromAsset toAsset source).1 =
        .ok (amount * rateIn rates (.ofText fromAsset) / rateIn rates (.ofText toAsset)) := by
  rw [askConversion_of_ratesFrom amount hrates hpair, ← isNaN_rateIn_iff, ← isNaN_rateIn_iff,
    ← Bool.or_eq_true]
  split
  · next h => exact .inl ⟨h, rfl⟩
  · next h => exact .inr ⟨h, rfl⟩

/-- Of two spellings only their symbols count. -/
theorem askConversion_congr {amount : Float} {first second : String}
    (hfirst : Symbol.ofText first = .ofText fromAsset)
    (hsecond : Symbol.ofText second = .ofText toAsset) :
    e.askConversion amount first second source =
      e.askConversion amount fromAsset toAsset source := by
  rw [askConversion, askConversion, hfirst, hsecond]

/-- A conversion is refused for its source exactly if the rates of the source are. -/
theorem askConversion_eq_unknownSource_iff {amount : Float} {feed : String} :
    (e.askConversion amount fromAsset toAsset source).1 = .error (.unknownSource feed) ↔
      e.ratesFrom (source.getD mergedSource) = .error (.unknownSource feed) := by
  cases hrates : e.ratesFrom (source.getD mergedSource) with
  | error error => simp [askConversion_of_rejected amount fromAsset toAsset hrates]
  | ok rates =>
    refine iff_of_false ?_ nofun
    by_cases hpair : Symbol.EtherPair (.ofText fromAsset) (.ofText toAsset)
    · simp [askConversion_of_etherPair amount hrates hpair]
    · obtain ⟨-, hresult⟩ | ⟨-, hresult⟩ := askConversion_cases amount hrates hpair <;>
        simp [hresult]

/-- A conversion is refused for its rates exactly if it needs two, and one of them is missing. -/
theorem askConversion_eq_rateNotKnown_iff {amount : Float} {a b : Symbol} :
    (e.askConversion amount fromAsset toAsset source).1 = .error (.rateNotKnown a b) ↔
      a = .ofText fromAsset ∧ b = .ofText toAsset ∧ ¬ Symbol.EtherPair a b ∧
      ∃ rates, e.ratesFrom (source.getD mergedSource) = .ok rates ∧
        (Unknown rates a ∨ Unknown rates b) := by
  constructor
  · intro hresult
    cases hrates : e.ratesFrom (source.getD mergedSource) with
    | error error =>
      rw [askConversion_of_rejected amount fromAsset toAsset hrates,
        eq_unknownSource_of_ratesFrom hrates] at hresult
      cases hresult
    | ok rates =>
      by_cases hpair : Symbol.EtherPair (.ofText fromAsset) (.ofText toAsset)
      · cases (askConversion_of_etherPair amount hrates hpair).symm.trans hresult
      · obtain ⟨hunknown, hrefused⟩ | ⟨-, hvalue⟩ := askConversion_cases amount hrates hpair
        · obtain ⟨rfl, rfl⟩ := by simpa using hrefused.symm.trans hresult
          exact ⟨rfl, rfl, hpair, rates, rfl, hunknown⟩
        · cases hvalue.symm.trans hresult
  · rintro ⟨rfl, rfl, hpair, rates, hrates, hunknown⟩
    obtain ⟨-, hrefused⟩ | ⟨hknown, -⟩ := askConversion_cases amount hrates hpair
    · exact hrefused
    · exact absurd hunknown hknown

/-- A conversion by two known rates multiplies by the one, and divides by the other. -/
theorem askConversion_of_known (amount : Float) {rates : Rates} {fromRate toRate : Float}
    (hrates : e.ratesFrom (source.getD mergedSource) = .ok rates)
    (hpair : ¬ Symbol.EtherPair (.ofText fromAsset) (.ofText toAsset))
    (hfrom : rates.get? (.ofText fromAsset) = some fromRate) (hfromKnown : fromRate.isNaN = false)
    (hto : rates.get? (.ofText toAsset) = some toRate) (htoKnown : toRate.isNaN = false) :
    (e.askConversion amount fromAsset toAsset source).1 = .ok (amount * fromRate / toRate) := by
  rw [askConversion_of_ratesFrom amount hrates hpair, rateIn, rateIn, hfrom, hto, Option.getD_some,
    Option.getD_some, hfromKnown, htoKnown]
  rfl

end

/-- Everything that can come of a conversion. -/
structure ConversionOutcome (e : Engine φ) (amount : Float) (fromAsset toAsset : String)
    (source : Option String) : Prop where
  rejected (feed : String) :
    (e.askConversion amount fromAsset toAsset source).1 = .error (.unknownSource feed) ↔
      (e.askRates (source.getD mergedSource)).1 = .error (.unknownSource feed)
  named (error : RateError) : (e.askRates (source.getD mergedSource)).1 = .error error →
    error = .unknownSource (feedOf e.settings (source.getD mergedSource))
  identical (rates : Rates) : (e.askRates (source.getD mergedSource)).1 = .ok rates →
    Symbol.EtherPair (.ofText fromAsset) (.ofText toAsset) →
    (e.askConversion amount fromAsset toAsset source).1 = .ok amount
  notKnown (a b : Symbol) :
    (e.askConversion amount fromAsset toAsset source).1 = .error (.rateNotKnown a b) ↔
      a = .ofText fromAsset ∧ b = .ofText toAsset ∧ ¬ Symbol.EtherPair a b ∧
      ∃ rates, (e.askRates (source.getD mergedSource)).1 = .ok rates ∧
        (Unknown rates a ∨ Unknown rates b)
  computed (rates : Rates) (fromRate toRate : Float) :
    (e.askRates (source.getD mergedSource)).1 = .ok rates →
    ¬ Symbol.EtherPair (.ofText fromAsset) (.ofText toAsset) →
    rates.get? (.ofText fromAsset) = some fromRate → fromRate.isNaN = false →
    rates.get? (.ofText toAsset) = some toRate → toRate.isNaN = false →
    (e.askConversion amount fromAsset toAsset source).1 = .ok (amount * fromRate / toRate)
  spelled (first second : String) :
    Symbol.ofText first = .ofText fromAsset → Symbol.ofText second = .ofText toAsset →
    e.askConversion amount first second source = e.askConversion amount fromAsset toAsset source
  respelled (first second : String) :
    Symbol.Respells first fromAsset → Symbol.Respells second toAsset →
    e.askConversion amount first second source = e.askConversion amount fromAsset toAsset source

/-- A conversion is refused exactly if its source is, be it of ether or not, or if it needs two
rates and one of them is missing. Otherwise it gives the amount itself, bit for bit, for ether and
wrapped ether, and the amount times the one rate by the other for any other pair. -/
theorem conversion_outcome (e : Engine φ) (amount : Float) (fromAsset toAsset : String)
    (source : Option String) : ConversionOutcome e amount fromAsset toAsset source where
  rejected _ := askConversion_eq_unknownSource_iff
  named _ := eq_unknownSource_of_ratesFrom
  identical _ := askConversion_of_etherPair amount
  notKnown _ _ := askConversion_eq_rateNotKnown_iff
  computed _ _ _ := askConversion_of_known amount
  spelled _ _ := askConversion_congr
  respelled _ _ hfirst hsecond := askConversion_congr hfirst.ofText_eq hsecond.ofText_eq

/-- An engine with the rates of two currencies, and without one of ether. -/
def currencyEngine : Engine ScriptedFeed :=
  new .default (.lists ⟨[], [["EUR", "1.25", "fast"], ["GBP", "1.5", "fast"]]⟩) [] [] .empty true

/-- Each of the outcomes, with assets that are not spelled in normal form. -/
theorem conversion_outcome_spelled :
    let converted := fun (fromAsset toAsset : String) (source : Option String) =>
      (currencyEngine.askConversion 3.0 fromAsset toAsset source).1
    converted "eth " "WETH" none = .ok 3.0 ∧ converted "\tWeth" "eth" none = .ok 3.0 ∧
      converted "eth " "WETH" (some "slow") = .error (.unknownSource "slow") ∧
      converted "eth" "usd" none = .error (.rateNotKnown .ether .dollar) ∧
      converted "eur" " Gbp" none = .ok (3.0 * 1.25 / 1.5) := by
  obtain ⟨rates, hrates, hether, heuro, hpound⟩ :
      ∃ rates, (currencyEngine.askRates mergedSource).1 = .ok rates ∧
        rates.get? .ether = none ∧ rates.get? (.ofText "eur") = some 1.25 ∧
        rates.get? (.ofText " Gbp") = some 1.5 :=
    ⟨_, rfl, by decide, rfl, rfl⟩
  have hunknown : Unknown rates .ether := fun rate hrate => by cases hether.symm.trans hrate
  have houtcome := conversion_outcome currencyEngine 3.0
  refine ⟨?_, ?_, ?_, ?_, ?_⟩
  · exact (houtcome "eth " "WETH" none).identical rates hrates (by decide)
  · exact (houtcome "\tWeth" "eth" none).identical rates hrates (by decide)
  · exact ((houtcome "eth " "WETH" (some "slow")).rejected "slow").mpr rfl
  · refine ((houtcome "eth" "usd" none).notKnown .ether .dollar).mpr ?_
    exact ⟨by decide, by decide, Symbol.not_etherPair_dollar _, rates, hrates, .inl hunknown⟩
  · exact (houtcome "eur" " Gbp" none).computed rates 1.25 1.5 hrates (by decide) heuro (by decide)
      hpound (by decide)

end ExchangeRates.Engine

import ExchangeRates.Proofs.Engine.KnownSources
import ExchangeRates.Proofs.Engine.UsableRates
import ExchangeRates.Proofs.Symbol

namespace ExchangeRates.Engine

/-- The rate of an asset in a conversion; an asset without a rate counts as one with a rate that is
not known. -/
def rateIn (rates : Rates) (asset : Symbol) : Float := (rates.get? asset).getD noRate

/-- Every rate of a table is usable, or marked as not known. -/
def Proper (rates : Rates) : Prop :=
  ∀ asset rate, rates.get? asset = some rate → rate.isNaN = true ∨ Usable rate

theorem Proper.usable_rateIn {rates : Rates} (h : Proper rates) {asset : Symbol}
    (hknown : (rateIn rates asset).isNaN = false) : Usable (rateIn rates asset) := by
  unfold rateIn at hknown ⊢
  cases hrate : rates.get? asset with
  | none =>
    rw [hrate] at hknown
    exact absurd hknown (by decide)
  | some rate =>
    rw [hrate, Option.getD_some] at hknown
    exact (h asset rate hrate).resolve_left (Bool.eq_false_iff.mp hknown)

theorem convertedAmount_eq {rates : Rates} {source target : Symbol}
    (h : ¬ Symbol.EtherPair source target) (amount : Float) :
    convertedAmount rates amount source target =
      if (rateIn rates source).isNaN || (rateIn rates target).isNaN then
        .error (.rateNotKnown source target)
      else .ok (amount * rateIn rates source / rateIn rates target) := by
  rw [convertedAmount, if_neg (Symbol.isEtherPair_iff.not.mpr h)]
  rfl

variable {φ : Type} [PriceFeed φ]

/-- A conversion is computed from two usable rates, and refused if one of them is not usable, unless
it is one between ether and wrapped ether. -/
structure UsesUsable (e : Engine φ) (amount : Float) (fromAsset toAsset : String)
    (source : Option String) : Prop where
  computed : ∀ rates value, e.ratesFrom (source.getD mergedSource) = .ok rates →
    ¬ Symbol.EtherPair (.ofText fromAsset) (.ofText toAsset) →
    (e.askConversion amount fromAsset toAsset source).1 = .ok value →
    Usable (rateIn rates (.ofText fromAsset)) ∧ Usable (rateIn rates (.ofText toAsset))
  refused : ∀ rates, e.ratesFrom (source.getD mergedSource) = .ok rates →
    ¬ Symbol.EtherPair (.ofText fromAsset) (.ofText toAsset) →
    ¬ (Usable (rateIn rates (.ofText fromAsset)) ∧ Usable (rateIn rates (.ofText toAsset))) →
    (e.askConversion amount fromAsset toAsset source).1 =
      .error (.rateNotKnown (.ofText fromAsset) (.ofText toAsset))

section

variable {e : Engine φ} {amount : Float} {fromAsset toAsset : String} {source : Option String}

theorem askConversion_of_ratesFrom (amount : Float) {rates : Rates}
    (hrates : e.ratesFrom (source.getD mergedSource) = .ok rates)
    (hpair : ¬ Symbol.EtherPair (.ofText fromAsset) (.ofText toAsset)) :
    (e.askConversion amount fromAsset toAsset source).1 =
      if (rateIn rates (.ofText fromAsset)).isNaN || (rateIn rates (.ofText toAsset)).isNaN then
        .error (.rateNotKnown (.ofText fromAsset) (.ofText toAsset))
      else .ok (amount * rateIn rates (.ofText fromAsset) / rateIn rates (.ofText toAsset)) := by
  rw [askConversion_eq, hrates, Except.bind, convertedAmount_eq hpair]

/-- Only a rate that is known and not usable can be used against the rule. -/
theorem usesUsable_iff : e.UsesUsable amount fromAsset toAsset source ↔
    ∀ rates, e.ratesFrom (source.getD mergedSource) = .ok rates →
      ¬ Symbol.EtherPair (.ofText fromAsset) (.ofText toAsset) →
      (rateIn rates (.ofText fromAsset)).isNaN = false →
      (rateIn rates (.ofText toAsset)).isNaN = false →
      Usable (rateIn rates (.ofText fromAsset)) ∧ Usable (rateIn rates (.ofText toAsset)) := by
  constructor
  · intro h rates hrates hpair hfrom hto
    have hvalue := askConversion_of_ratesFrom amount hrates hpair
    rw [hfrom, hto, Bool.or_self, if_neg (by simp)] at hvalue
    exact h.computed rates _ hrates hpair hvalue
  · intro h
    constructor
    · intro rates value hrates hpair hvalue
      rw [askConversion_of_ratesFrom amount hrates hpair] at hvalue
      split at hvalue
      · cases hvalue
      · next hknown =>
        rw [Bool.or_eq_true, not_or, Bool.not_eq_true, Bool.not_eq_true] at hknown
        exact h rates hrates hpair hknown.1 hknown.2
    · intro rates hrates hpair hunusable
      rw [askConversion_of_ratesFrom amount hrates hpair, if_pos]
      by_contra hknown
      rw [Bool.or_eq_true, not_or, Bool.not_eq_true, Bool.not_eq_true] at hknown
      exact hunusable (h rates hrates hpair hknown.1 hknown.2)

/-- All conversions by a source keep to the rule exactly if its rates are proper. -/
theorem forall_usesUsable_iff :
    (∀ amount fromAsset toAsset, e.UsesUsable amount fromAsset toAsset source) ↔
      ∀ rates, e.ratesFrom (source.getD mergedSource) = .ok rates → Proper rates := by
  constructor
  · intro h rates hrates asset rate hrate
    -- the conversion of an asset into itself uses its rate
    by_cases hnan : rate.isNaN = true
    · exact .inl hnan
    · have hself := usesUsable_iff.mp (h 1.0 asset.text asset.text) rates hrates
      simp only [Symbol.ofText_text, Symbol.not_etherPair_self, not_false_eq_true, rateIn, hrate,
        Option.getD_some, forall_const] at hself
      exact .inr (hself (by simpa using hnan) (by simpa using hnan)).1
  · intro h amount fromAsset toAsset
    refine usesUsable_iff.mpr fun rates hrates _ hfrom hto => ?_
    have hproper := h rates hrates
    exact ⟨hproper.usable_rateIn hfrom, hproper.usable_rateIn hto⟩

end

variable {settings : Settings} {origin : ConfigOrigin} {feeds : List φ} {registered : List FeedId}
  {environment : Environment} {runtime : Bool} {trace : Trace φ} {e : Engine φ}

/-- The merged rates are proper if the default rates of the current configuration are. -/
theorem proper_merged
    (h : Execution (new settings origin feeds registered environment runtime) trace e)
    (hdefaults : Proper e.config.initialRates) : Proper e.book.merged := by
  have hrates : UsableOrDefault e.config e.book :=
    book_invariant usableOrDefault_reset (fun _ _ _ _ _ _ => UsableOrDefault.refresh) h
  intro asset rate hrate
  obtain husable | hdefault := hrates asset rate hrate
  · exact .inr husable
  · refine hdefaults asset rate ?_
    rw [← hdefault]
    exact RateBook.rate?_reset e.book e.config asset

/-- The rates of a source are the prices in the latest answer of a feed, or the merged rates. -/
theorem latest?_or_merged_of_ratesFrom
    (h : Execution (new settings origin feeds registered environment runtime) trace e)
    {source : String} {rates : Rates} (hrates : e.ratesFrom source = .ok rates) :
    (∃ feed, trace.latest? feed = some rates) ∨ rates = e.book.merged := by
  have hfeed (feed : String) (hanswer : answerFor feed (e.book.prices? feed) = .ok rates) :
      ∃ feed, trace.latest? feed = some rates := by
    refine ⟨feed, ?_⟩
    rw [prices?_eq_latest? h] at hanswer
    cases hlatest : trace.latest? feed with
    | none =>
      rw [hlatest] at hanswer
      cases hanswer
    | some prices =>
      rw [hlatest] at hanswer
      exact congrArg some (Except.ok.inj hanswer)
  by_cases hsource : source = mergedSource
  · rw [hsource, ratesFrom_mergedSource_eq] at hrates
    cases hprices : e.book.prices? mergedSource with
    | none =>
      rw [hprices] at hrates
      exact .inr (Except.ok.inj hrates).symm
    | some prices =>
      rw [hprices] at hrates
      exact .inl (hfeed mergedSource (by rw [hprices]; exact hrates))
  · rw [ratesFrom_eq e hsource] at hrates
    exact .inl (hfeed _ hrates)

/-- A conversion is computed from usable rates, and refused without them, exactly if its rates are
usable as soon as both are known. All conversions by a source keep to this exactly if each of its
rates is usable or not known, and all conversions do if that is true of the default rates of the
current configuration and of the latest prices of every feed. -/
theorem conversions_usable_iff
    (h : Execution (new settings origin feeds registered environment runtime) trace e) :
    (∀ amount fromAsset toAsset source, e.UsesUsable amount fromAsset toAsset source ↔
      ∀ rates, e.ratesFrom (source.getD mergedSource) = .ok rates →
        ¬ Symbol.EtherPair (.ofText fromAsset) (.ofText toAsset) →
        (rateIn rates (.ofText fromAsset)).isNaN = false →
        (rateIn rates (.ofText toAsset)).isNaN = false →
        Usable (rateIn rates (.ofText fromAsset)) ∧ Usable (rateIn rates (.ofText toAsset))) ∧
    (∀ source, (∀ amount fromAsset toAsset, e.UsesUsable amount fromAsset toAsset source) ↔
      ∀ rates, e.ratesFrom (source.getD mergedSource) = .ok rates → Proper rates) ∧
    (Proper e.config.initialRates →
      (∀ feed prices, trace.latest? feed = some prices → Proper prices) →
      ∀ amount fromAsset toAsset source, e.UsesUsable amount fromAsset toAsset source) := by
  refine ⟨fun _ _ _ _ => usesUsable_iff, fun _ => forall_usesUsable_iff, ?_⟩
  intro hdefaults hprices amount fromAsset toAsset source
  refine forall_usesUsable_iff.mpr (fun rates hrates => ?_) amount fromAsset toAsset
  obtain ⟨feed, hlatest⟩ | rfl := latest?_or_merged_of_ratesFrom h hrates
  · exact hprices feed rates hlatest
  · exact proper_merged h hdefaults

/-- An engine with an asset whose default rate is zero, and a feed that quotes zero for it. -/
def worthlessEngine : Engine ScriptedFeed :=
  new .default (.lists ⟨[], [["BTC", "3", "fast"], ["USDC", "0", "fast"]]⟩)
    [((ScriptedFeed.new "fast").quote "BTC" 7.0).quote "USDC" 0.0] [0] .empty true

/-- A conversion from the worthless asset breaks the rule, and one between others does not. -/
theorem conversions_usable_of_worthless :
    ∃ trace e, Execution worthlessEngine trace e ∧ e.UsesUsable 1.0 "btc" "BTC" none ∧
      ¬ e.UsesUsable 1.0 "usdc" "BTC" none ∧
      ¬ ∀ amount fromAsset toAsset, e.UsesUsable amount fromAsset toAsset (some "fast") := by
  obtain ⟨⟨trace, e⟩, hperformed, rates, hrates, hbitcoin, hknown, hzero, prices, hprices, hquote⟩ :
      ∃ run, worthlessEngine.perform firstCycle = some run ∧
        ∃ rates, run.2.ratesFrom mergedSource = .ok rates ∧
          Usable (rateIn rates (.ofText "btc")) ∧
          (rateIn rates (.ofText "usdc")).isNaN = false ∧
          ¬ Usable (rateIn rates (.ofText "usdc")) ∧
          ∃ prices, run.2.ratesFrom "fast" = .ok prices ∧
            prices.get? (.ofText "USDC") = some 0.0 :=
    ⟨_, rfl, _, rfl, by decide, by decide, by decide, _, rfl, rfl⟩
  obtain ⟨hpairs, hsources, -⟩ := conversions_usable_iff (execution_of_perform hperformed)
  have hsame : Symbol.ofText "BTC" = .ofText "btc" := by decide
  refine ⟨trace, e, execution_of_perform hperformed, ?_, ?_, ?_⟩
  · refine (hpairs 1.0 "btc" "BTC" none).mpr fun others hothers _ _ _ => ?_
    obtain rfl := Except.ok.inj (hrates.symm.trans hothers)
    exact ⟨hbitcoin, hsame ▸ hbitcoin⟩
  · intro h
    obtain ⟨husable, -⟩ := (hpairs 1.0 "usdc" "BTC" none).mp h rates hrates (by decide) hknown
      (hsame ▸ hbitcoin.not_special.1)
    exact hzero husable
  · intro h
    obtain hnan | husable := (hsources (some "fast")).mp h prices hprices _ _ hquote
    · exact absurd hnan (by decide)
    · exact absurd husable (by decide)

/-- A conversion into an asset without worth divides by zero: its result is infinite, by the default
rates before any feed has answered and by the prices of the feed afterwards. -/
theorem exists_not_usesUsable :
    (worthlessEngine.askConversion 1.0 "BTC" "USDC" none).1 = .ok (1.0 * 3.0 / 0.0) ∧
    (1.0 * 3.0 / 0.0 : Float).isInf = true ∧
    ¬ worthlessEngine.UsesUsable 1.0 "BTC" "USDC" none ∧
    ∃ trace e, Execution worthlessEngine trace e ∧
      (e.askConversion 1.0 "BTC" "USDC" (some "fast")).1 = .ok (1.0 * 7.0 / 0.0) ∧
      ¬ e.UsesUsable 1.0 "BTC" "USDC" (some "fast") := by
  obtain ⟨⟨trace, e⟩, hperformed, hconverted, prices, hprices, hquote⟩ :
      ∃ run, worthlessEngine.perform firstCycle = some run ∧
        (run.2.askConversion 1.0 "BTC" "USDC" (some "fast")).1 = .ok (1.0 * 7.0 / 0.0) ∧
        ∃ prices, run.2.ratesFrom "fast" = .ok prices ∧
          ¬ Usable (rateIn prices (.ofText "USDC")) :=
    ⟨_, rfl, rfl, _, rfl, by decide⟩
  refine ⟨rfl, by decide, ?_, trace, e, execution_of_perform hperformed, hconverted, ?_⟩
  · intro h
    obtain ⟨-, husable⟩ := h.computed _ _ rfl (by decide) rfl
    exact absurd husable (by decide)
  · intro h
    obtain ⟨-, husable⟩ := h.computed prices _ hprices (by decide) hconverted
    exact hquote husable

end ExchangeRates.Engine

import ExchangeRates.Proofs.Engine.ConfigHistory
import ExchangeRates.Proofs.Engine.Query
import ExchangeRates.Proofs.Engine.Snapshots

namespace ExchangeRates.Engine

variable {φ : Type}

/-- Every asset of the current configuration has a merged rate. -/
def Covered (e : Engine φ) : Prop :=
  ∀ asset source, e.config.global.get? asset = some source → (e.book.rate? asset).isSome = true

section

variable {e : Engine φ} {config : RateConfig} {rates : Rates} {asset : Symbol} {price rate : Float}

theorem Covered.keys_subset (h : e.Covered) : ∀ asset ∈ e.config.global.keys,
    asset ∈ e.book.merged.keys := by
  intro asset hasset
  obtain ⟨source, hsource⟩ := Option.isSome_iff_exists.mp (Table.mem_keys_iff.mp hasset)
  exact Table.mem_keys_iff.mpr (h asset source hsource)

theorem requires_iff : config.requires asset = true ↔ asset ∈ config.required.keys :=
  Table.mem_keys_iff.symm

theorem adjusted_of_mem (hasset : asset ∈ config.required.keys)
    (hrate : rates.get? asset = some rate) :
    adjusted config rates asset price = rate * price := by
  simp only [adjusted, hrate, requires_iff.mpr hasset, if_true]

theorem adjusted_of_not_mem (h : asset ∉ config.required.keys) :
    adjusted config rates asset price = price := by
  unfold adjusted
  split
  · rw [if_neg (requires_iff.not.mpr h)]
  · rfl

end

variable {settings : Settings} {origin : ConfigOrigin} {feeds : List φ} {registered : List FeedId}
  {environment : Environment} {runtime : Bool}

variable [PriceFeed φ] {trace : Trace φ} {e : Engine φ}

/-- A refresh puts rates over those there were, so it takes none away, also if it was begun with
another configuration. -/
theorem covered_of_execution
    (h : Execution (new settings origin feeds registered environment runtime) trace e) :
    e.Covered := by
  refine book_invariant (P := fun config book => ∀ asset source,
    config.global.get? asset = some source → (book.rate? asset).isSome = true) ?_ ?_ h
  · intro config book asset source hsource
    rw [RateBook.rate?_reset, hsource]
    rfl
  · intro config book later now captured answers hcovered hrate asset source hsource
    rw [hrate, Option.isSome_or, hcovered asset source hsource, Bool.or_true]

/-- Every asset of the current configuration, and so every one that needs conversion, has a merged
rate. As long as no feed has answered under the name of the merged rates, the value of a price in
dollars is the price times the merged rate of an asset that needs conversion, however it is spelled,
and the price itself of any other asset, whether it has a merged rate or not. -/
theorem askDollars_merged
    (h : Execution (new settings origin feeds registered environment runtime) trace e) :
    (∀ asset ∈ e.config.global.keys, asset ∈ e.book.merged.keys) ∧
    (∀ asset ∈ e.config.required.keys,
      asset ∈ e.config.global.keys ∧ asset ∈ e.book.merged.keys) ∧
    ((∀ m ∈ trace, ∀ i id prices, ¬ m.Delivers i id (mergedSource, .ok prices)) →
      ∀ (spelling : String) (price : Float),
        (.ofText spelling ∈ e.config.required.keys →
          ∃ rate, e.book.rate? (.ofText spelling) = some rate ∧
            (e.askDollars spelling price none).1 = .ok (rate * price)) ∧
        (.ofText spelling ∉ e.config.required.keys →
          (e.askDollars spelling price none).1 = .ok price)) := by
  have hcovered := covered_of_execution h
  have hnested := (config_invariant h).2.2
  refine ⟨hcovered.keys_subset, ?_, fun hnone spelling price => ?_⟩
  · intro asset hasset
    have hglobal := hnested.keys_subset asset hasset
    exact ⟨hglobal, hcovered.keys_subset asset hglobal⟩
  · have hprices : e.book.prices? mergedSource = none := by
      rw [Option.eq_none_iff_forall_ne_some]
      intro prices hprices
      obtain ⟨m, hm, i, id, hdelivers⟩ := exists_delivers_of_prices? h hprices
      exact hnone m hm i id prices hdelivers
    have hvalue : (e.askDollars spelling price none).1 =
        .ok (adjusted e.config e.book.merged (.ofText spelling) price) := by
      rw [askDollars_eq, Option.getD_none, ratesFrom_mergedSource hprices]
      rfl
    rw [hvalue]
    constructor
    · intro hasset
      obtain ⟨rate, hrate⟩ := Option.isSome_iff_exists.mp
        (Table.mem_keys_iff.mp (hcovered.keys_subset _ (hnested.keys_subset _ hasset)))
      exact ⟨rate, hrate, congrArg Except.ok (adjusted_of_mem hasset hrate)⟩
    · intro hasset
      exact congrArg Except.ok (adjusted_of_not_mem hasset)

/-- An asset that has a rate from a cycle of an earlier configuration keeps its price, and one that
only has its default rate is converted with it. -/
theorem askDollars_of_replacedInFlight :
    ∃ trace e, Execution bitcoinEngine trace e ∧
      e.book.rate? (.ofText "BTC") = some 50000.0 ∧ (e.askDollars "btc" 2.0 none).1 = .ok 2.0 ∧
      e.book.rate? (.ofText "USDC") = some 0.75 ∧
      (e.askDollars " usdc " 3.0 none).1 = .ok 2.25 := by
  obtain ⟨⟨trace, e⟩, hperformed, hbitcoin, hdollar, hkept, hconverted, hnames⟩ :
      ∃ run, bitcoinEngine.perform replacedInFlight = some run ∧
        run.2.book.rate? (.ofText "BTC") = some 50000.0 ∧
        run.2.book.rate? (.ofText " usdc ") = some 0.75 ∧
        Symbol.ofText "btc" ∉ run.2.config.required.keys ∧
        Symbol.ofText " usdc " ∈ run.2.config.required.keys ∧
        ∀ m ∈ run.1, ∀ source ∈ m.engine.feeds, PriceFeed.name source ≠ mergedSource :=
    ⟨_, rfl, rfl, rfl, by decide, by decide, by decide⟩
  have h := execution_of_perform hperformed
  obtain ⟨-, -, hvalues⟩ := askDollars_merged h
  have hvalue := hvalues fun m hm i id prices => not_delivers_of_names (hnames m hm) i id _
  obtain ⟨rate, hrate, hscaled⟩ := (hvalue " usdc " 3.0).1 hconverted
  obtain rfl := Option.some.inj (hdollar.symm.trans hrate)
  exact ⟨trace, e, h, hbitcoin, (hvalue "btc" 2.0).2 hkept, hdollar,
    hscaled.trans (congrArg Except.ok (by decide : (0.75 * 3.0 : Float) = 2.25))⟩

end ExchangeRates.Engine

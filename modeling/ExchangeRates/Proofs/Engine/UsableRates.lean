import ExchangeRates.Proofs.Engine.BookHistory

namespace ExchangeRates.Engine

variable {φ : Type} [PriceFeed φ]

/-- Every merged rate is usable, or the default rate that a configuration gives the asset. -/
def UsableOrDefault (config : RateConfig) (book : RateBook) : Prop :=
  ∀ asset price, book.rate? asset = some price → Usable price ∨
    (config.global.get? asset).map RateSource.initialRate = some price

theorem usableOrDefault_reset (config : RateConfig) (book : RateBook) :
    UsableOrDefault config (book.reset config) := by
  intro asset price hprice
  rw [RateBook.rate?_reset] at hprice
  exact .inr hprice

/-- A refresh writes usable prices only, so the configuration it was begun with does not matter. -/
theorem UsableOrDefault.refresh {config captured : RateConfig} {book later : RateBook}
    {now : Instant} {answers : List (String × Answer)} (h : UsableOrDefault config book)
    (hrate : ∀ asset, later.rate? asset =
      (book.written? now captured answers asset).or (book.rate? asset)) :
    UsableOrDefault config later := by
  intro asset price hprice
  rw [hrate] at hprice
  obtain hwritten | ⟨-, hkept⟩ := Option.or_eq_some_iff.mp hprice
  · obtain ⟨_, _, _, -, -, -, -, husable⟩ := RateBook.exists_answer_of_written? hwritten
    exact .inl husable
  · exact h asset price hkept

/-- Every entry of the merged table is a finite number greater than zero, or the default rate that
the current configuration gives to that same asset. -/
theorem merged_usable_or_default {settings : Settings} {origin : ConfigOrigin} {feeds : List φ}
    {registered : List FeedId} {environment : Environment} {runtime : Bool} {trace : Trace φ}
    {e : Engine φ}
    (h : Execution (new settings origin feeds registered environment runtime) trace e) :
    ∀ asset price, (asset, price) ∈ e.book.merged.entries →
      (price.isFinite = true ∧ 0.0 < price) ∨
      ∃ source, e.config.global.get? asset = some source ∧ price = source.initialRate := by
  intro asset price hentry
  have hrates : UsableOrDefault e.config e.book :=
    book_invariant usableOrDefault_reset (fun _ _ _ _ _ _ => UsableOrDefault.refresh) h
  obtain husable | hdefault := hrates asset price (Table.mem_entries_iff.mp hentry)
  · exact .inl husable
  · obtain ⟨source, hsource, rfl⟩ := Option.map_eq_some_iff.mp hdefault
    exact .inr ⟨source, hsource, rfl⟩

/-- The rate of an asset that the current configuration does not know is no default rate. -/
theorem usable_of_replacedInFlight :
    ∃ trace e price, Execution bitcoinEngine trace e ∧
      (Symbol.ofText "BTC", price) ∈ e.book.merged.entries ∧
      e.config.global.get? (.ofText "BTC") = none ∧ price.isFinite = true ∧ 0.0 < price := by
  obtain ⟨⟨trace, e⟩, hperformed, hentry, hunknown⟩ :
      ∃ run, bitcoinEngine.perform replacedInFlight = some run ∧
        (Symbol.ofText "BTC", 50000.0) ∈ run.2.book.merged.entries ∧
        run.2.config.global.get? (.ofText "BTC") = none :=
    ⟨_, rfl, Table.mem_entries_iff.mpr rfl, by decide⟩
  have h := execution_of_perform hperformed
  obtain husable | ⟨source, hsource, -⟩ := merged_usable_or_default h _ _ hentry
  · exact ⟨trace, e, 50000.0, h, hentry, hunknown, husable⟩
  · rw [hunknown] at hsource
    cases hsource

end ExchangeRates.Engine

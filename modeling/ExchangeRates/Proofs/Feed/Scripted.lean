import ExchangeRates.Feed.Scripted

namespace ExchangeRates

theorem Answer.price?_eq_some_iff {answer : Answer} {asset : Symbol} {price : Float} :
    answer.price? asset = some price ↔
      ∃ prices, answer = .ok prices ∧ prices.get? asset = some price := by
  cases answer with
  | ok prices => simp [price?]
  | error error => simp [price?]

namespace ScriptedFeed

variable {f : ScriptedFeed} {asset : Symbol} {price : Float}

/-- What a feed answers, if it answers, holds its prices. -/
theorem price?_of_fetch {answer : Answer} (h : f.fetch.2 = .ok answer) :
    answer.price? asset = some price ↔ f.failing = false ∧ f.prices.get? asset = some price := by
  have hnone : f.fault = none := by
    unfold fetch at h
    split at h
    · cases h
    · assumption
  simp only [fetch, hnone, Except.ok.injEq] at h
  subst h
  rw [Answer.price?_eq_some_iff]
  cases f.failing <;> simp

theorem get?_prices_quote (f : ScriptedFeed) (spelling : String) (price : Float) (asset : Symbol) :
    (f.quote spelling price).prices.get? asset =
      if .ofText spelling = asset then some price else f.prices.get? asset :=
  Table.get?_insert ..

theorem get?_prices_withdraw (f : ScriptedFeed) (symbol : String) (asset : Symbol) :
    (f.withdraw symbol).prices.get? asset =
      if asset.text = symbol then none else f.prices.get? asset := by
  rw [withdraw, Table.get?_filter]
  by_cases h : asset.text = symbol <;> cases f.prices.get? asset <;> simp [h, Option.filter]

/-- A price is set by any spelling of its asset, and removed by its symbol only. -/
theorem get?_prices_withdraw_quote (f : ScriptedFeed) (spelling : String) (price : Float) :
    ((f.quote spelling price).withdraw spelling).prices.get? (.ofText spelling) =
      if normalForm spelling = spelling then none else some price := by
  rw [get?_prices_withdraw, get?_prices_quote, if_pos rfl]
  rfl

end ScriptedFeed

end ExchangeRates

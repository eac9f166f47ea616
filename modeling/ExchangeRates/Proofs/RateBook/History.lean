import ExchangeRates.Proofs.RateBook.Refresh

namespace ExchangeRates.RateBook

/-- An event that writes to a book. -/
inductive Event where
  /-- The merged rates are reset to the defaults of a configuration. -/
  | reset (config : RateConfig)
  /-- The answers of all feeds are taken in by one refresh. -/
  | refresh (now : Instant) (config : RateConfig) (answers : List (String × Answer))

/-- The book after an event. A refresh that fails changes nothing. -/
def Event.apply (book : RateBook) : Event → RateBook
  | reset config => book.reset config
  | refresh now config answers =>
    match book.refresh now config answers with
    | .ok (refreshed, _) => refreshed
    | .error _ => book

def replay (events : List Event) : RateBook := events.foldl Event.apply empty

/-- After a reset, the assets of the configuration have their default rates, and no others have
one. -/
theorem rate?_reset (book : RateBook) (config : RateConfig) (asset : Symbol) :
    (book.reset config).rate? asset =
      (config.global.get? asset).map RateSource.initialRate :=
  Table.get?_map ..

theorem Event.apply_refresh {now : Instant} {book later : RateBook} {config : RateConfig}
    {answers : List (String × Answer)} {result : RefreshResult}
    (h : book.refresh now config answers = .ok (later, result)) :
    (Event.refresh now config answers).apply book = later := by
  simp only [Event.apply, h]

section

variable {now : Instant} {book : RateBook} {config : RateConfig} {answers : List (String × Answer)}

theorem Event.apply_of_not_anyAnswer (h : ¬ anyAnswer answers = true) :
    (Event.refresh now config answers).apply book = book := by
  have hrefresh := refresh_eq now book config answers
  rw [if_neg h] at hrefresh
  simp only [Event.apply, hrefresh]

theorem Event.apply_of_anyAnswer (h : anyAnswer answers = true) :
    (Event.refresh now config answers).apply book = (book.refreshed now config answers).1 := by
  have hrefresh := refresh_eq now book config answers
  rw [if_pos h] at hrefresh
  exact Event.apply_refresh hrefresh

theorem Event.rate?_apply_refresh (h : anyAnswer answers = true) (asset : Symbol) :
    ((Event.refresh now config answers).apply book).rate? asset =
      (book.written? now config answers asset).or (book.rate? asset) := by
  rw [Event.apply_of_anyAnswer h]
  exact get?_merged_refreshed ..

end

theorem replay_append (earlier later : List Event) :
    replay (earlier ++ later) = later.foldl Event.apply (replay earlier) :=
  List.foldl_append

end ExchangeRates.RateBook

import ExchangeRates.Proofs.RateBook.History

namespace ExchangeRates

/-- A usable price is neither infinite nor no number, and it is greater than zero. -/
theorem Usable.not_special {price : Float} (h : Usable price) :
    price.isNaN = false ∧ price.isInf = false := by
  obtain ⟨hfinite, hpositive⟩ := h
  unfold Float.isFinite Float.Model.isFinite at hfinite
  unfold Float.isNaN Float.Model.isNaN Float.isInf Float.Model.isInf
  cases hunpacked : price.toModel.unpack with
  | notANumber | infinity _ =>
    rw [hunpacked] at hfinite
    cases hfinite
  | zero _ | finite _ _ _ _ => exact ⟨rfl, rfl⟩

namespace RateBook

/-- The one value that a function takes on a list is the first that is found. -/
theorem findSome?_eq_some_of_unique {α β : Type} {f : α → Option β} {l : List α} {x : α} {y : β}
    (hx : x ∈ l) (hy : f x = some y) (hunique : ∀ z ∈ l, ∀ w, f z = some w → w = y) :
    l.findSome? f = some y := by
  have hsome : (l.findSome? f).isSome = true :=
    List.findSome?_isSome_iff.mpr ⟨x, hx, by rw [hy]; rfl⟩
  obtain ⟨w, hw⟩ := Option.isSome_iff_exists.mp hsome
  obtain ⟨z, hz, hfz⟩ := List.exists_of_findSome?_eq_some hw
  rw [hw, hunique z hz w hfz]

/-- The first value from the end of a list is followed by entries without one. -/
theorem findSome?_reverse_eq_some_iff {α β : Type} {f : α → Option β} {l : List α} {b : β} :
    l.reverse.findSome? f = some b ↔
      ∃ before a after, l = before ++ a :: after ∧ f a = some b ∧ ∀ x ∈ after, f x = none := by
  rw [List.findSome?_eq_some_iff]
  constructor
  · rintro ⟨after, a, before, heq, ha, hafter⟩
    refine ⟨before.reverse, a, after.reverse, ?_, ha, by simpa using hafter⟩
    simpa using congrArg List.reverse heq
  · rintro ⟨before, a, after, rfl, ha, hafter⟩
    exact ⟨after.reverse, a, before.reverse, by simp, ha, by simpa using hafter⟩

/-- The answers that an event takes in. -/
def Event.answers : Event → List (String × Answer)
  | reset _ => []
  | refresh _ _ answers => answers

def Event.isReset : Event → Bool
  | reset _ => true
  | refresh .. => false

/-- A book has a finite price greater than zero for an asset among the prices of a feed. -/
def Offers (book : RateBook) (feed : String) (asset : Symbol) (price : Float) : Prop :=
  ∃ prices, book.prices? feed = some prices ∧ prices.get? asset = some price ∧
    price.isFinite = true ∧ 0.0 < price

/-- The last of the feeds that answered, in their order, which a source names and which offers a
price for an asset, offers this one. -/
def LastOffer (book : RateBook) (answers : List (String × Answer)) (source : RateSource)
    (asset : Symbol) (price : Float) : Prop :=
  ∃ before feed after, answered answers = before ++ feed :: after ∧
    EqIgnoringCase source.feed feed ∧ book.Offers feed asset price ∧
    ∀ other ∈ after, EqIgnoringCase source.feed other → ∀ p, ¬ book.Offers other asset p

/-- What a refresh that succeeds makes of the merged rates. -/
structure MergedBy (book : RateBook) (config : RateConfig) (answers : List (String × Answer))
    (later : RateBook) : Prop where
  priced : ∀ asset source price, config.global.get? asset = some source →
    later.LastOffer answers source asset price → later.rate? asset = some price
  unpriced : ∀ asset source, config.global.get? asset = some source →
    (∀ price, ¬ later.LastOffer answers source asset price) →
      later.rate? asset = book.rate? asset
  outside : ∀ asset, config.global.get? asset = none → later.rate? asset = book.rate? asset

/-- What a reset makes of a book. -/
structure ResetTo (book : RateBook) (config : RateConfig) (later : RateBook) : Prop where
  snapshots : later.snapshots = book.snapshots
  merged : ∀ asset,
    later.merged.get? asset = (config.global.get? asset).map RateSource.initialRate

/-- What a refresh that succeeds makes of a book. The last answer of a feed is kept, and when it was
captured. -/
structure RefreshedBy (book : RateBook) (now : Instant) (config : RateConfig)
    (answers : List (String × Answer)) (later : RateBook) : Prop
    extends book.MergedBy config answers later where
  captured : ∀ feed prices before after, answers = before ++ (feed, .ok prices) :: after →
    (∀ newer, (feed, .ok newer) ∉ after) → later.snapshots.get? feed = some ⟨prices, now⟩
  kept : ∀ feed, (∀ prices, (feed, .ok prices) ∉ answers) →
    later.snapshots.get? feed = book.snapshots.get? feed

/-- What an event makes of a book. -/
def Event.Makes (book : RateBook) : (event : Event) → (later : RateBook) → Prop
  | reset config, later => book.ResetTo config later
  | refresh now config answers, later =>
    ((answers = [] ∨ ∃ feed prices, (feed, .ok prices) ∈ answers) →
      book.RefreshedBy now config answers later) ∧
    (answers ≠ [] → (∀ feed prices, (feed, .ok prices) ∉ answers) → later = book)

section

variable {book : RateBook} {config : RateConfig} {answers : List (String × Answer)}
  {asset : Symbol} {source : RateSource} {feed : String} {price : Float}

theorem validPrice?_eq_some_iff {prices : Rates} :
    validPrice? prices asset = some price ↔
      prices.get? asset = some price ∧ Usable price := by
  rw [validPrice?, Option.filter_eq_some_iff, isValidPrice_iff]

theorem priceFrom?_eq_some_iff (hsource : config.global.get? asset = some source) :
    book.priceFrom? config asset feed = some price ↔
      EqIgnoringCase source.feed feed ∧ book.Offers feed asset price := by
  simp only [priceFrom?, Offers, mem_sourcedFrom, hsource, Option.some.injEq, exists_eq_left',
    Option.bind_eq_some_iff, Option.ite_none_right_eq_some, validPrice?_eq_some_iff, Usable]
  constructor
  · rintro ⟨prices, hprices, hfrom, hprice⟩
    exact ⟨hfrom, prices, hprices, hprice⟩
  · rintro ⟨hfrom, prices, hprices, hprice⟩
    exact ⟨prices, hprices, hfrom, hprice⟩

/-- An asset gets the price of the last feed that answered, is the source of the asset and has a
usable price for it. -/
theorem written?_eq_some_iff {now : Instant} (hsource : config.global.get? asset = some source) :
    book.written? now config answers asset = some price ↔
      (book.capture now answers).LastOffer answers source asset price := by
  simp only [written?, findSome?_reverse_eq_some_iff, priceFrom?_eq_some_iff hsource,
    Option.eq_none_iff_forall_ne_some, Ne, not_and, LastOffer, and_assoc]
  constructor
  · rintro ⟨before, feed, after, hanswered, hfrom, hoffers, hafter⟩
    exact ⟨before, feed, after, hanswered, hfrom, hoffers,
      fun other hother hsame p => hafter other hother p hsame⟩
  · rintro ⟨before, feed, after, hanswered, hfrom, hoffers, hafter⟩
    exact ⟨before, feed, after, hanswered, hfrom, hoffers,
      fun other hother p hsame => hafter other hother hsame p⟩

theorem written?_outside {now : Instant} (h : config.global.get? asset = none) :
    book.written? now config answers asset = none := by
  rw [Option.eq_none_iff_forall_ne_some]
  intro price hprice
  obtain ⟨source, _, _, hsource, -⟩ := exists_answer_of_written? hprice
  simp [h] at hsource

theorem mergedBy_refreshed (now : Instant) (book : RateBook) (config : RateConfig)
    (answers : List (String × Answer)) :
    book.MergedBy config answers (book.refreshed now config answers).1 := by
  have hrate (asset : Symbol) : (book.refreshed now config answers).1.rate? asset =
      (book.written? now config answers asset).or (book.rate? asset) :=
    get?_merged_refreshed ..
  refine ⟨?_, ?_, ?_⟩
  · intro asset source price hsource hoffer
    rw [hrate, (written?_eq_some_iff hsource).mpr hoffer, Option.some_or]
  · intro asset source hsource hnone
    have hwritten : book.written? now config answers asset = none := by
      rw [Option.eq_none_iff_forall_ne_some]
      exact fun price hprice => hnone price ((written?_eq_some_iff hsource).mp hprice)
    rw [hrate, hwritten, Option.none_or]
  · intro asset hnone
    rw [hrate, written?_outside hnone, Option.none_or]

theorem mem_answered : feed ∈ answered answers ↔ ∃ prices, (feed, .ok prices) ∈ answers := by
  constructor
  · intro h
    obtain ⟨prices, hprices⟩ := exists_latest?_of_mem_answered h
    exact ⟨prices, mem_of_latest? hprices⟩
  · rintro ⟨prices, hmem⟩
    exact List.mem_filterMap.mpr ⟨_, hmem, rfl⟩

theorem anyAnswer_iff : anyAnswer answers = true ↔
    answers = [] ∨ ∃ feed prices, (feed, .ok prices) ∈ answers := by
  simp only [anyAnswer, Bool.or_eq_true, List.isEmpty_iff, Bool.not_eq_true', ← Bool.not_eq_true,
    List.eq_nil_iff_forall_not_mem, mem_answered, Classical.not_forall,
    Classical.not_not]

private theorem given?_eq_some_iff {a : String × Answer} {prices : Rates} :
    (if a.1 = feed then a.2.toOption else none) = some prices ↔ a = (feed, .ok prices) := by
  obtain ⟨name, answer⟩ := a
  cases answer <;> simp [Except.toOption]

/-- The prices of a feed's last answer are those of an answer that no later one of it follows. -/
theorem latest?_eq_some_iff {prices : Rates} : latest? answers feed = some prices ↔
    ∃ before after, answers = before ++ (feed, .ok prices) :: after ∧
      ∀ later, (feed, .ok later) ∉ after := by
  simp only [latest?, findSome?_reverse_eq_some_iff, given?_eq_some_iff,
    Option.eq_none_iff_forall_ne_some, Ne]
  constructor
  · rintro ⟨before, _, after, heq, rfl, hafter⟩
    exact ⟨before, after, heq, fun later hmem => hafter _ hmem later rfl⟩
  · rintro ⟨before, after, heq, hafter⟩
    refine ⟨before, _, after, heq, rfl, ?_⟩
    rintro a hmem later rfl
    exact hafter later hmem

theorem latest?_of_not_mem (h : ∀ prices, (feed, .ok prices) ∉ answers) :
    latest? answers feed = none := by
  rw [Option.eq_none_iff_forall_ne_some]
  exact fun prices hprices => h prices (mem_of_latest? hprices)

theorem latest?_of_not_anyAnswer (h : ¬ anyAnswer answers = true) :
    latest? answers feed = none := by
  rw [anyAnswer_iff, not_or] at h
  exact latest?_of_not_mem fun prices hmem => h.2 ⟨feed, prices, hmem⟩

theorem not_anyAnswer (hanswers : answers ≠ [])
    (hnone : ∀ feed prices, (feed, .ok prices) ∉ answers) : ¬ anyAnswer answers = true := by
  rw [anyAnswer_iff, not_or]
  exact ⟨hanswers, fun ⟨feed, prices, hmem⟩ => hnone feed prices hmem⟩

theorem latest?_append (earlier later : List (String × Answer)) (feed : String) :
    latest? (earlier ++ later) feed = (latest? later feed).or (latest? earlier feed) := by
  rw [latest?, List.reverse_append, List.findSome?_append]
  rfl

end

theorem refreshedBy_refreshed (now : Instant) (book : RateBook) (config : RateConfig)
    (answers : List (String × Answer)) :
    book.RefreshedBy now config answers (book.refreshed now config answers).1 where
  toMergedBy := mergedBy_refreshed now book config answers
  captured feed prices before after heq hafter := by
    have hlatest := latest?_eq_some_iff.mpr ⟨before, after, heq, hafter⟩
    exact (get?_snapshots_capture ..).trans (by rw [hlatest]; rfl)
  kept feed hnone := by
    have hlatest := latest?_of_not_mem hnone
    exact (get?_snapshots_capture ..).trans (by rw [hlatest]; rfl)

/-- An event writes to a book what it is to make of it. -/
theorem Event.makes_apply (book : RateBook) (event : Event) :
    event.Makes book (event.apply book) := by
  cases event with
  | reset config => exact ⟨rfl, fun asset => rate?_reset book config asset⟩
  | refresh now config answers =>
    refine ⟨fun h => ?_, fun hanswers hnone => ?_⟩
    · rw [Event.apply_of_anyAnswer (anyAnswer_iff.mpr h)]
      exact refreshedBy_refreshed ..
    · exact Event.apply_of_not_anyAnswer (not_anyAnswer hanswers hnone)

/-- An event replaces the prices of the feeds whose answers it takes in, and of no others. -/
theorem Event.prices?_apply (book : RateBook) (event : Event) (feed : String) :
    (event.apply book).prices? feed = (latest? event.answers feed).or (book.prices? feed) := by
  cases event with
  | reset config => rfl
  | refresh now config answers =>
    by_cases h : anyAnswer answers = true
    · rw [Event.apply_of_anyAnswer h]
      exact prices?_capture ..
    · rw [Event.apply_of_not_anyAnswer h, Event.answers, latest?_of_not_anyAnswer h, Option.none_or]

theorem prices?_foldl_apply (events : List Event) (book : RateBook) (feed : String) :
    (events.foldl Event.apply book).prices? feed =
      (latest? (events.flatMap Event.answers) feed).or (book.prices? feed) := by
  induction events generalizing book with
  | nil => rfl
  | cons event events ih =>
    rw [List.foldl_cons, ih, Event.prices?_apply, List.flatMap_cons, latest?_append,
      Option.or_assoc]

/-- The prices of a feed are those of its last answer in the whole history. -/
theorem prices?_replay (events : List Event) (feed : String) :
    (replay events).prices? feed = latest? (events.flatMap Event.answers) feed := by
  rw [replay, prices?_foldl_apply]
  exact Option.or_none

theorem get?_pricesByFeed (book : RateBook) (feed : String) :
    book.pricesByFeed.get? feed = book.prices? feed :=
  Table.get?_map ..

/-- The prices of all feeds together are those of their last answers. -/
theorem get?_pricesByFeed_replay (events : List Event) (feed : String) :
    (replay events).pricesByFeed.get? feed = latest? (events.flatMap Event.answers) feed := by
  rw [get?_pricesByFeed, prices?_replay]

/-- An event that is no reset leaves a usable rate usable. -/
theorem Event.usable_apply {book : RateBook} {event : Event} {asset : Symbol} {price : Float}
    (hevent : event.isReset = false) (hrate : book.rate? asset = some price)
    (husable : Usable price) :
    ∃ next, (event.apply book).rate? asset = some next ∧ Usable next := by
  cases event with
  | reset config => cases hevent
  | refresh now config answers =>
    by_cases h : anyAnswer answers = true
    · rw [Event.rate?_apply_refresh h]
      cases hwritten : book.written? now config answers asset with
      | none => exact ⟨price, hrate, husable⟩
      | some next =>
        obtain ⟨_, _, _, _, _, _, _, hnext⟩ := exists_answer_of_written? hwritten
        exact ⟨next, rfl, hnext⟩
    · rw [Event.apply_of_not_anyAnswer h]
      exact ⟨price, hrate, husable⟩

theorem usable_foldl_apply {events : List Event} {book : RateBook} {asset : Symbol} {price : Float}
    (hevents : ∀ event ∈ events, event.isReset = false) (hrate : book.rate? asset = some price)
    (husable : Usable price) :
    ∃ next, (events.foldl Event.apply book).rate? asset = some next ∧ Usable next := by
  induction events generalizing book price with
  | nil => exact ⟨price, hrate, husable⟩
  | cons event events ih =>
    rw [List.forall_mem_cons] at hevents
    obtain ⟨next, hnext, husable⟩ := Event.usable_apply hevents.1 hrate husable
    exact ih hevents.2 hnext husable

/-- What a book holds after any sequence of resets and refreshes. The prices of a feed are those of
its last answer. A further refresh succeeds unless there are feeds and none of them answered, and
then changes nothing; otherwise it changes the rates as `MergedBy` says. A further reset puts the
default rates in place of the merged ones. Since the last reset, a usable rate has stayed usable. -/
theorem contents_replay (events : List Event) :
    (∀ feed prices, (replay events).prices? feed = some prices ↔
      ∃ before after, events.flatMap Event.answers = before ++ (feed, .ok prices) :: after ∧
        ∀ later, (feed, .ok later) ∉ after) ∧
    (∀ now config answers, (answers = [] ∨ ∃ feed prices, (feed, .ok prices) ∈ answers) →
      ∃ later result, (replay events).refresh now config answers = .ok (later, result) ∧
        replay (events ++ [.refresh now config answers]) = later ∧
        (replay events).MergedBy config answers later) ∧
    (∀ now config answers, answers ≠ [] → (∀ feed prices, (feed, .ok prices) ∉ answers) →
      (replay events).refresh now config answers = .error .noAnswer ∧
        replay (events ++ [.refresh now config answers]) = replay events) ∧
    (∀ config asset feed, let later := replay (events ++ [.reset config])
      later.rate? asset = (config.global.get? asset).map RateSource.initialRate ∧
        later.prices? feed = (replay events).prices? feed) ∧
    ∀ before after asset price, events = before ++ after →
      (∀ event ∈ after, event.isReset = false) → (replay before).rate? asset = some price →
      price.isFinite = true → 0.0 < price →
      ∃ next, (replay events).rate? asset = some next ∧ next.isFinite = true ∧
        next.isNaN = false ∧ next.isInf = false ∧ 0.0 < next := by
  refine ⟨?_, ?_, ?_, ?_, ?_⟩
  · intro feed prices
    rw [prices?_replay, latest?_eq_some_iff]
  · intro now config answers h
    have hany := anyAnswer_iff.mpr h
    refine ⟨_, _, (refresh_eq ..).trans (if_pos hany), ?_, mergedBy_refreshed ..⟩
    rw [replay_append, List.foldl_cons, List.foldl_nil]
    exact Event.apply_of_anyAnswer hany
  · intro now config answers hanswers hnone
    have hany := not_anyAnswer hanswers hnone
    refine ⟨(refresh_eq ..).trans (if_neg hany), ?_⟩
    rw [replay_append, List.foldl_cons, List.foldl_nil, Event.apply_of_not_anyAnswer hany]
  · intro config asset feed
    rw [replay_append]
    exact ⟨rate?_reset .., rfl⟩
  · rintro before after asset price rfl hafter hrate hfinite hpositive
    obtain ⟨next, hnext, husable⟩ := usable_foldl_apply hafter hrate ⟨hfinite, hpositive⟩
    obtain ⟨hnumber, hbounded⟩ := husable.not_special
    exact ⟨next, by rw [replay_append, hnext], husable.1, hnumber, hbounded, husable.2⟩

/-- Bitcoin comes from a feed that two others share the letters of their name with. -/
def bitcoinConfig : RateConfig := ⟨.empty, .ofList [(.ofText "BTC", ⟨noRate, "feedX"⟩)]⟩

/-- The answers of two feeds whose names differ in case only, and a failure of the first. -/
def caseVariants : List (String × Answer) :=
  [("feedX", .ok (.ofList [(.ofText "BTC", 1.0)])), ("FEEDX", .ok (.ofList [(.ofText "BTC", 2.0)])),
    ("feedX", .error .noAnswer)]

/-- The later of the two gives the rate, which a price of zero does not replace. -/
theorem contents_replay_caseVariants :
    let before : List Event := [.reset bitcoinConfig, .refresh 0 bitcoinConfig caseVariants]
    let after : List Event :=
      [.refresh 5 bitcoinConfig [("FEEDX", .ok (.ofList [(.ofText "BTC", 0.0)]))]]
    (replay before).MergedBy bitcoinConfig caseVariants
        (replay (before ++ [.refresh 1 bitcoinConfig caseVariants])) ∧
      (replay before).prices? "feedX" = some (.ofList [(.ofText "BTC", 1.0)]) ∧
      (replay before).rate? (.ofText "BTC") = some 2.0 ∧
      (replay (before ++ [.refresh 1 bitcoinConfig [("feedX", .error .noAnswer)]])) =
        replay before ∧
      ∃ next, (replay (before ++ after)).rate? (.ofText "BTC") = some next ∧
        next.isNaN = false ∧ 0.0 < next := by
  intro before after
  obtain ⟨hprices, hmerged, hfailed, -, -⟩ := contents_replay before
  obtain ⟨later, _, -, hlater, hby⟩ := hmerged 1 bitcoinConfig caseVariants
    (.inr ⟨"feedX", _, List.mem_cons_self⟩)
  obtain ⟨next, hnext, -, hnumber, -, hpositive⟩ :=
    (contents_replay (before ++ after)).2.2.2.2 before after (.ofText "BTC") 2.0 rfl
      (by simp [after, Event.isReset]) (by rfl) (by decide) (by decide)
  refine ⟨hlater ▸ hby, ?_, by rfl, ?_, next, hnext, hnumber, hpositive⟩
  · exact (hprices "feedX" _).mpr ⟨[], _, rfl, by simp⟩
  · exact (hfailed 1 bitcoinConfig _ (by simp) (by simp)).2

end RateBook

end ExchangeRates

import ExchangeRates.Proofs.Engine.KnownSources
import Mathlib.Data.List.Pairwise

namespace ExchangeRates

namespace RateBook

/-- No two feeds that have answered have names that differ in case only. -/
def DistinctNames (book : RateBook) : Prop :=
  book.snapshots.keys.Pairwise fun a b => ¬ EqIgnoringCase a b

instance (book : RateBook) : Decidable book.DistinctNames :=
  inferInstanceAs (Decidable (List.Pairwise _ _))

section

variable {book : RateBook} {a b name : String} {prices others : Rates} {source : RateSource}

theorem mem_keys_of_prices? (h : book.prices? name = some prices) :
    name ∈ book.snapshots.keys := by
  obtain ⟨snapshot, hsnapshot, -⟩ := Option.map_eq_some_iff.mp h
  exact Table.mem_keys_iff.mpr (by rw [hsnapshot]; rfl)

theorem DistinctNames.eq_of_eqIgnoringCase (h : book.DistinctNames)
    (ha : book.prices? a = some prices) (hb : book.prices? b = some others)
    (hsame : EqIgnoringCase a b) : a = b := by
  by_contra hne
  have hsymmetric : Std.Symm fun a b => ¬ EqIgnoringCase a b :=
    ⟨fun a b hab hba => hab hba.symm⟩
  exact h.forall (mem_keys_of_prices? ha) (mem_keys_of_prices? hb) hne hsame

/-- A source names one of the feeds that have answered at most. -/
theorem DistinctNames.eq_of_named (h : book.DistinctNames) (ha : book.prices? a = some prices)
    (hb : book.prices? b = some others) (hfromA : EqIgnoringCase source.feed a)
    (hfromB : EqIgnoringCase source.feed b) : a = b :=
  h.eq_of_eqIgnoringCase ha hb (hfromA.symm.trans hfromB)

/-- A refresh gives an asset the price of the feed that its source names, however it is spelled. -/
theorem DistinctNames.written? {now : Instant} {config : RateConfig}
    {answers : List (String × Answer)} {asset : Symbol} {price : Float}
    (h : (book.capture now answers).DistinctNames)
    (hsource : config.global.get? asset = some source) (hfrom : EqIgnoringCase source.feed name)
    (hanswered : name ∈ answered answers)
    (hprices : (book.capture now answers).prices? name = some prices)
    (hprice : prices.get? asset = some price) (husable : Usable price) :
    book.written? now config answers asset = some price := by
  have hoffers : (book.capture now answers).priceFrom? config asset name = some price := by
    rw [priceFrom?_eq_some_iff hsource]
    exact ⟨hfrom, prices, hprices, hprice, husable⟩
  refine findSome?_eq_some_of_unique (List.mem_reverse.mpr hanswered) hoffers ?_
  intro other _ p hother
  rw [priceFrom?_eq_some_iff hsource] at hother
  obtain ⟨hfromOther, others, hothers, hp, -⟩ := hother
  obtain rfl := h.eq_of_named hothers hprices hfromOther hfrom
  obtain rfl := Option.some.inj (hothers.symm.trans hprices)
  exact Option.some.inj (hp.symm.trans hprice)

end

end RateBook

namespace Engine

variable {φ : Type}

/-- The last action has ended a cycle, with the answers of its feeds and the configuration of the
moment at which it began. -/
def Trace.EndsCycle (trace : Trace φ) (config : RateConfig) (answers : List (String × Answer)) :
    Prop :=
  ∃ s i before start, trace = ⟨s, .stepTask i⟩ :: before ∧ s.answersTo? i = some answers ∧
    Trace.cycleStart? i before = some start ∧ start.config = config

/-- A name under which there are prices is found by a question in its own spelling only. -/
theorem answerFor_of_eqIgnoringCase {e : Engine φ} (h : e.book.DistinctNames)
    {name spelling : String} {prices : Rates} (hprices : e.book.prices? name = some prices)
    (hsame : EqIgnoringCase spelling name) :
    answerFor spelling (e.book.prices? spelling) =
      if spelling = name then .ok prices else .error (.unknownSource spelling) := by
  split
  · next heq =>
    subst heq
    rw [hprices]
    rfl
  · next hne =>
    cases hother : e.book.prices? spelling with
    | none => rfl
    | some others => exact absurd (h.eq_of_eqIgnoringCase hother hprices hsame) hne

variable [PriceFeed φ] {settings : Settings} {origin : ConfigOrigin} {feeds : List φ}
  {registered : List FeedId} {environment : Environment} {runtime : Bool} {trace : Trace φ}
  {e : Engine φ}

/-- The end of a cycle gives an asset the price of the feed that its source names, however it is
spelled. -/
theorem rate?_of_endsCycle
    (h : Execution (new settings origin feeds registered environment runtime) trace e)
    (hdistinct : e.book.DistinctNames) {config : RateConfig} {answers : List (String × Answer)}
    (hends : trace.EndsCycle config answers) {asset : Symbol} {source : RateSource}
    (hsource : config.global.get? asset = some source) {name : String}
    (hfrom : EqIgnoringCase source.feed name) (hanswered : name ∈ RateBook.answered answers)
    {prices : Rates} (hprices : e.book.prices? name = some prices) {price : Float}
    (hprice : prices.get? asset = some price) (husable : Usable price) :
    e.book.rate? asset = some price := by
  obtain ⟨s, i, before, start, rfl, hanswers, hstart, rfl⟩ := hends
  cases h with
  | act hbefore hact =>
    have hany : RateBook.anyAnswer answers = true :=
      RateBook.anyAnswer_iff.mpr (.inr ⟨name, RateBook.mem_answered.mp hanswered⟩)
    have hbook := book_act (recorded_of_execution tasks_new hbefore) hact
    rw [event?_stepTask, refreshEvent?_of_some hanswers hstart, if_pos hany] at hbook
    change e.book = (RateBook.Event.refresh ..).apply s.book at hbook
    -- the names and prices after the refresh are those that it captured
    have hcaptured : e.book.snapshots = (s.book.capture s.now answers).snapshots := by
      rw [hbook, RateBook.Event.apply_of_anyAnswer hany]
      rfl
    rw [RateBook.DistinctNames, hcaptured] at hdistinct
    rw [RateBook.prices?, hcaptured] at hprices
    have hwritten := RateBook.DistinctNames.written? hdistinct hsource hfrom hanswered hprices
      hprice husable
    rw [hbook, RateBook.Event.rate?_apply_refresh hany, hwritten, Option.some_or]

/-- If the names of the feeds that have answered differ in more than case, the source of an asset
leads a refresh to the prices of the feed it names, however it is spelled. A question for the rates
of this source has the same prices if it is spelled as the feed is, letter by letter, and finds
none otherwise; so has a question for those of the default feed. -/
theorem askRates_spelled
    (h : Execution (new settings origin feeds registered environment runtime) trace e)
    (hdistinct : e.book.DistinctNames) {name : String} {prices : Rates}
    (hprices : e.book.prices? name = some prices) :
    (∀ source : RateSource, EqIgnoringCase source.feed name → source.feed ≠ defaultFeedSource →
      source.feed ≠ mergedSource → (e.askRates source.feed).1 =
        if source.feed = name then .ok prices else .error (.unknownSource source.feed)) ∧
    (EqIgnoringCase settings.defaultFeed name → (e.askRates defaultFeedSource).1 =
      if settings.defaultFeed = name then .ok prices
      else .error (.unknownSource settings.defaultFeed)) ∧
    ∀ config answers, trace.EndsCycle config answers → name ∈ RateBook.answered answers →
      ∀ asset source price, config.global.get? asset = some source →
        EqIgnoringCase source.feed name → prices.get? asset = some price → Usable price →
          e.book.rate? asset = some price := by
  refine ⟨?_, ?_, ?_⟩
  · intro source hfrom hdefault hmerged
    have hrates := ratesFrom_eq e hmerged
    rw [feedOf, if_neg hdefault] at hrates
    exact hrates.trans (answerFor_of_eqIgnoringCase hdistinct hprices hfrom)
  · intro hsame
    have hrates := ratesFrom_eq e (by decide : defaultFeedSource ≠ mergedSource)
    rw [feedOf, if_pos rfl, settings_of_execution h] at hrates
    exact hrates.trans (answerFor_of_eqIgnoringCase hdistinct hprices hsame)
  · intro config answers hends hanswered asset source price hsource hfrom hprice husable
    exact rate?_of_endsCycle h hdistinct hends hsource hfrom hanswered hprices hprice husable

/-- An engine whose configuration and settings spell the name of its feed otherwise than the feed.
-/
def spelledEngine : Engine ScriptedFeed :=
  new { Settings.default with defaultFeed := "Fast" }
    (.lists ⟨[["BTC", "FAST"], ["ETH", "fast"]], []⟩)
    [((ScriptedFeed.new "fast").quote "BTC" 50000.0).quote "ETH" 3000.0] [0] .empty true

/-- Both assets get the price of the feed, and only one of their sources is known. -/
theorem askRates_spelled_upper :
    ∃ trace e prices, Execution spelledEngine trace e ∧ e.book.DistinctNames ∧
      e.book.prices? "fast" = some prices ∧
      (e.askRates "fast").1 = .ok prices ∧
      (e.askRates "FAST").1 = .error (.unknownSource "FAST") ∧
      (e.askRates defaultFeedSource).1 = .error (.unknownSource "Fast") ∧
      e.book.rate? (.ofText "BTC") = some 50000.0 ∧
      e.book.rate? (.ofText "ETH") = some 3000.0 := by
  obtain ⟨⟨trace, e⟩, hperformed, hdistinct, prices, hprices, answers, config, hends, hanswered,
    hbitcoin, hether, hfirst, hsecond⟩ :
      ∃ run, spelledEngine.perform firstCycle = some run ∧ run.2.book.DistinctNames ∧
        ∃ prices, run.2.book.prices? "fast" = some prices ∧
        ∃ answers config, run.1.EndsCycle config answers ∧ "fast" ∈ RateBook.answered answers ∧
          config.global.get? (.ofText "BTC") = some (.withoutRate "FAST") ∧
          config.global.get? (.ofText "ETH") = some (.withoutRate "fast") ∧
          prices.get? (.ofText "BTC") = some 50000.0 ∧
          prices.get? (.ofText "ETH") = some 3000.0 :=
    ⟨_, rfl, by decide, _, rfl, _, _, ⟨_, _, _, _, rfl, rfl, rfl, rfl⟩, by decide, rfl, rfl, rfl,
      rfl⟩
  have h := execution_of_perform hperformed
  obtain ⟨hquestion, hdefault, hrate⟩ := askRates_spelled h hdistinct hprices
  have hmerged := hrate config answers hends hanswered
  refine ⟨trace, e, prices, h, hdistinct, hprices, ?_, ?_, ?_, ?_, ?_⟩
  · exact hquestion (.withoutRate "fast") (by decide) (by decide) (by decide)
  · exact hquestion (.withoutRate "FAST") (by decide) (by decide) (by decide)
  · exact hdefault (by decide)
  · exact hmerged _ _ _ hbitcoin (by decide) hfirst (by decide)
  · exact hmerged _ _ _ hether (by decide) hsecond (by decide)

/-- A source that a refresh finds prices for, in another spelling than that of its feed, is not
known to a question, and neither is a default feed that is spelled otherwise than the feed. -/
theorem exists_named_not_known :
    ∃ trace e prices source, Execution spelledEngine trace e ∧ e.book.DistinctNames ∧
      e.config.global.get? (.ofText "BTC") = some source ∧ EqIgnoringCase source.feed "fast" ∧
      source.feed ≠ defaultFeedSource ∧ source.feed ≠ mergedSource ∧
      e.book.prices? "fast" = some prices ∧
      e.book.rate? (.ofText "BTC") = prices.get? (.ofText "BTC") ∧
      (e.askRates source.feed).1 = .error (.unknownSource source.feed) ∧
      EqIgnoringCase e.settings.defaultFeed "fast" ∧
      (e.askRates defaultFeedSource).1 = .error (.unknownSource e.settings.defaultFeed) := by
  obtain ⟨⟨trace, e⟩, hperformed, hdistinct, prices, hprices, hrate, hsource, hunknown, hsame,
    hdefault⟩ :
      ∃ run, spelledEngine.perform firstCycle = some run ∧ run.2.book.DistinctNames ∧
        ∃ prices, run.2.book.prices? "fast" = some prices ∧
          run.2.book.rate? (.ofText "BTC") = prices.get? (.ofText "BTC") ∧
          run.2.config.global.get? (.ofText "BTC") = some (.withoutRate "FAST") ∧
          (run.2.askRates "FAST").1 = .error (.unknownSource "FAST") ∧
          EqIgnoringCase run.2.settings.defaultFeed "fast" ∧
          (run.2.askRates defaultFeedSource).1 =
            .error (.unknownSource run.2.settings.defaultFeed) :=
    ⟨_, rfl, by decide, _, rfl, rfl, rfl, rfl, by decide, rfl⟩
  exact ⟨trace, e, prices, .withoutRate "FAST", execution_of_perform hperformed, hdistinct, hsource,
    by decide, by decide, by decide, hprices, hrate, hunknown, hsame, hdefault⟩

end Engine

end ExchangeRates

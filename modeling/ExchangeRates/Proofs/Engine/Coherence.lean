import ExchangeRates.Proofs.Engine.BookHistory

namespace ExchangeRates.Engine

variable {φ : Type}

/-- The rate that an action writes for an asset by the refresh of a cycle. -/
def Trace.writes? (trace : Trace φ) (e : Engine φ) (a : Action φ) (asset : Symbol) : Option Float :=
  match trace.event? e a with
  | some (.refresh now config answers) => e.book.written? now config answers asset
  | _ => none

variable [PriceFeed φ]

/-- A feed that a source names has answered with a price for an asset. -/
def Trace.Quotes (trace : Trace φ) (source : RateSource) (asset : Symbol) (price : Float) : Prop :=
  ∃ m ∈ trace, ∃ i id feed prices, m.Delivers i id (feed, .ok prices) ∧
    EqIgnoringCase source.feed feed ∧ prices.get? asset = some price

/-- A rate belongs to the current configuration: it is the default rate of the asset, or its source
has quoted it. -/
def Belongs (trace : Trace φ) (e : Engine φ) (asset : Symbol) (price : Float) : Prop :=
  ∃ source, e.config.global.get? asset = some source ∧
    (price = source.initialRate ∨ trace.Quotes source asset price)

/-- What an action writes belongs to the current configuration. -/
def WritesOwn (trace : Trace φ) (e : Engine φ) (a : Action φ) : Prop :=
  ∀ asset price, trace.writes? e a asset = some price → e.Belongs (⟨e, a⟩ :: trace) asset price

/-- The assets with a merged rate are those of the current configuration, and their rates belong to
it. -/
def Coherent (trace : Trace φ) (e : Engine φ) : Prop :=
  (∀ asset, asset ∈ e.book.merged.keys ↔ asset ∈ e.config.global.keys) ∧
    ∀ asset price, e.book.rate? asset = some price → e.Belongs trace asset price

section

variable {trace : Trace φ} {e later : Engine φ} {a : Action φ} {m : Moment φ} {asset : Symbol}
  {price : Float}

theorem Trace.Quotes.cons {source : RateSource} (h : trace.Quotes source asset price) :
    Trace.Quotes (m :: trace) source asset price := by
  obtain ⟨d, hd, hquotes⟩ := h
  exact ⟨d, List.mem_cons_of_mem _ hd, hquotes⟩

theorem Belongs.cons (h : e.Belongs trace asset price) : e.Belongs (m :: trace) asset price := by
  obtain ⟨source, hsource, hrate⟩ := h
  exact ⟨source, hsource, hrate.imp_right fun hquotes => hquotes.cons⟩

theorem belongs_congr (h : later.config = e.config) :
    later.Belongs trace asset price ↔ e.Belongs trace asset price := by
  rw [Belongs, h, ← Belongs]

theorem coherent_iff_rate? : e.Coherent trace ↔
    (∀ asset source, e.config.global.get? asset = some source →
      (e.book.rate? asset).isSome = true) ∧
    ∀ asset price, e.book.rate? asset = some price → e.Belongs trace asset price := by
  simp only [Coherent, Table.mem_keys_iff]
  constructor
  · rintro ⟨hkeys, hrates⟩
    exact ⟨fun asset source hsource => (hkeys asset).mpr (by simp [hsource]), hrates⟩
  · rintro ⟨hkeys, hrates⟩
    refine ⟨fun asset => ⟨?_, ?_⟩, hrates⟩
    · intro hrate
      obtain ⟨price, hprice⟩ := Option.isSome_iff_exists.mp hrate
      obtain ⟨source, hsource, -⟩ := hrates asset price hprice
      simp [hsource]
    · intro hsome
      obtain ⟨source, hsource⟩ := Option.isSome_iff_exists.mp hsome
      exact hkeys asset source hsource

theorem coherent_of_reset (book : RateBook) (h : e.book = book.reset e.config) :
    e.Coherent trace := by
  have hrate (asset : Symbol) :
      e.book.rate? asset = (e.config.global.get? asset).map RateSource.initialRate := by
    rw [h, RateBook.rate?_reset]
  rw [coherent_iff_rate?]
  constructor
  · intro asset source hsource
    simp [hrate, hsource]
  · intro asset price hprice
    rw [hrate] at hprice
    obtain ⟨source, hsource, rfl⟩ := Option.map_eq_some_iff.mp hprice
    exact ⟨source, hsource, .inl rfl⟩

/-- An action keeps the rates coherent exactly if what it writes belongs to the configuration. -/
theorem coherent_act (hrecorded : Recorded trace e) (hact : e.act a = some later)
    (h : e.Coherent trace) :
    later.Coherent (⟨e, a⟩ :: trace) ↔ e.WritesOwn trace a := by
  obtain ⟨⟨config, hevent⟩, hbook⟩ | ⟨hevent, hbook, hconfig⟩ |
    ⟨i, answers, start, rfl, -, -, hevent, hconfig, hrate⟩ := book_act_cases hrecorded hact
  -- a reset makes the rates coherent whatever they were, and what is no event keeps them so
  · simp [coherent_of_reset e.book hbook, WritesOwn, Trace.writes?, hevent]
  · have hkept : later.Coherent (⟨e, a⟩ :: trace) := by
      rw [coherent_iff_rate?] at h ⊢
      rw [hbook, hconfig]
      refine ⟨h.1, fun asset price hprice => ?_⟩
      exact (belongs_congr hconfig).mpr (h.2 asset price hprice).cons
    simp [hkept, WritesOwn, Trace.writes?, hevent]
  -- a refresh puts what it writes over the rates there were, which belong to the configuration
  · have hwrites (asset : Symbol) : trace.writes? e (.stepTask i) asset =
        e.book.written? e.now start.config answers asset := by
      simp only [Trace.writes?, hevent]
    simp only [← hwrites] at hrate
    rw [coherent_iff_rate?] at h ⊢
    obtain ⟨hkeys, hrates⟩ := h
    constructor
    · rintro ⟨-, hlater⟩ asset price hwritten
      rw [← belongs_congr hconfig]
      exact hlater asset price (by rw [hrate, hwritten, Option.some_or])
    · intro hwritten
      constructor
      · intro asset source hsource
        rw [hrate, Option.isSome_or, hkeys asset source (hconfig ▸ hsource), Bool.or_true]
      · intro asset price hprice
        rw [belongs_congr hconfig]
        rw [hrate] at hprice
        obtain hnew | ⟨-, hold⟩ := Option.or_eq_some_iff.mp hprice
        · exact hwritten asset price hnew
        · exact (hrates asset price hold).cons

/-- What an action writes was quoted by the source that the captured configuration gives. -/
theorem quotes_of_writes? (hrecorded : Recorded trace e)
    (h : trace.writes? e a asset = some price) :
    ∃ i start source, a = .stepTask i ∧ trace.cycleStart? i = some start ∧
      start.config.global.get? asset = some source ∧ trace.Quotes source asset price := by
  obtain ⟨config, -, hevent⟩ | ⟨-, hevent⟩ |
    ⟨-, i, answers, start, rfl, hanswers, hstart, -, hevent⟩ := event?_cases trace e a
  · simp [Trace.writes?, hevent] at h
  · simp [Trace.writes?, hevent] at h
  · simp only [Trace.writes?, hevent] at h
    obtain ⟨source, feed, prices, hsource, hfrom, hmem, hprice, -⟩ :=
      RateBook.exists_answer_of_written? h
    obtain ⟨m, hm, id, hanswer⟩ := exists_delivers_of_answersTo? hrecorded hanswers hmem
    exact ⟨i, start, source, rfl, hstart, hsource, m, hm, i, id, feed, prices, hanswer, hfrom,
      hprice⟩

end

section

variable {settings : Settings} {origin : ConfigOrigin} {feeds : List φ} {registered : List FeedId}
  {environment : Environment} {runtime : Bool} {trace : Trace φ} {e : Engine φ}

theorem coherent_new : (new settings origin feeds registered environment runtime).Coherent [] := by
  obtain ⟨book, hbook⟩ := exists_reset_new (φ := φ)
  exact coherent_of_reset book hbook

/-- An engine is coherent throughout an execution exactly if every rate that a refresh writes
belongs to the configuration of that moment. It does if this configuration names the same source
for the asset as the one with which the cycle began. -/
theorem coherent_iff
    (h : Execution (new settings origin feeds registered environment runtime) trace e) :
    ((∀ before s, trace.Visits e before s → s.Coherent before) ↔
      ∀ m before, m :: before <:+ trace → m.engine.WritesOwn before m.action) ∧
    ∀ (m : Moment φ) (before : Trace φ) (i : Nat) (start : Engine φ) (asset : Symbol)
      (price : Float), m :: before <:+ trace → m.action = .stepTask i →
      before.cycleStart? i = some start →
      (m.engine.config.global.get? asset).map RateSource.feed =
        (start.config.global.get? asset).map RateSource.feed →
      before.writes? m.engine m.action asset = some price →
        m.engine.Belongs (m :: before) asset price := by
  constructor
  · refine h.throughout_iff coherent_new ?_
    intro before s a next _ hbefore hcoherent hact
    exact coherent_act (recorded_of_execution tasks_new hbefore) hact hcoherent
  · intro m before i start asset price hsuffix haction hstart hsource hwritten
    obtain ⟨after, rfl⟩ := hsuffix
    have hrecorded := recorded_of_execution tasks_new h.split.1
    obtain ⟨j, began, source, haction', hbegan, hcaptured, hquotes⟩ :=
      quotes_of_writes? hrecorded hwritten
    obtain rfl := Action.stepTask.inj (haction.symm.trans haction')
    obtain rfl := Option.some.inj (hstart.symm.trans hbegan)
    rw [hcaptured, Option.map_some] at hsource
    obtain ⟨current, hcurrent, hfeed⟩ := Option.map_eq_some_iff.mp hsource
    refine ⟨current, hcurrent, .inr ?_⟩
    obtain ⟨d, hd, k, id, feed, prices, hdelivers, hfrom, hprice⟩ := hquotes
    refine ⟨d, List.mem_cons_of_mem _ hd, k, id, feed, prices, hdelivers, ?_, hprice⟩
    rwa [hfeed]

end

/-- A rate that is written after its configuration was replaced need not belong to the new one. -/
theorem exists_not_writesOwn :
    ∃ trace e, Execution bitcoinEngine trace e ∧
      ∃ m before, m :: before <:+ trace ∧ ¬ m.engine.WritesOwn before m.action := by
  have hperformed : (bitcoinEngine.perform replacedInFlight).isSome = true := by decide
  have h := execution_of_perform (Option.some_get hperformed).symm
  refine ⟨_, _, h, ?_⟩
  by_contra hnone
  have hcoherent := (coherent_iff h).1.mpr (by simpa using hnone) _ _ (.inl ⟨rfl, rfl⟩)
  have hkeys := (hcoherent.1 (.ofText "BTC")).mp (by decide)
  exact absurd hkeys (by decide)

/-- A configuration that is replaced while a cycle waits for an answer leaves a rate behind. -/
theorem exists_not_coherent :
    ∃ trace e, Execution bitcoinEngine trace e ∧ ¬ e.Coherent trace := by
  have hperformed : (bitcoinEngine.perform replacedInFlight).isSome = true := by decide
  have h := execution_of_perform (Option.some_get hperformed).symm
  refine ⟨_, _, h, ?_⟩
  intro hcoherent
  have hkeys := (hcoherent.1 (.ofText "BTC")).mp (by decide)
  exact absurd hkeys (by decide)

end ExchangeRates.Engine

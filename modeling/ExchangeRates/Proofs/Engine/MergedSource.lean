import ExchangeRates.Proofs.Engine.Query
import ExchangeRates.Proofs.Engine.Snapshots

namespace ExchangeRates.Engine

variable {φ : Type}

/-- The prices in the latest answer of a feed that a refresh has taken in. -/
def Trace.latest? (trace : Trace φ) (feed : String) : Option Rates :=
  RateBook.latest? (trace.events.flatMap RateBook.Event.answers) feed

theorem Trace.latest?_cons (trace : Trace φ) (m : Moment φ) (feed : String) :
    Trace.latest? (m :: trace) feed =
      (RateBook.latest? ((trace.event? m.engine m.action).toList.flatMap RateBook.Event.answers)
        feed).or (trace.latest? feed) := by
  rw [latest?, events, List.flatMap_append, RateBook.latest?_append]
  rfl

theorem ratesFrom_mergedSource_eq (e : Engine φ) :
    e.ratesFrom mergedSource = .ok ((e.book.prices? mergedSource).getD e.book.merged) := by
  cases hprices : e.book.prices? mergedSource with
  | none => exact ratesFrom_mergedSource hprices
  | some prices =>
    rw [ratesFrom, if_neg (by decide), hprices]
    rfl

variable [PriceFeed φ]

/-- A table answers what is asked without a source, and for the source of the merged rates. -/
structure AnswersFrom (e : Engine φ) (rates : Rates) : Prop where
  table : (e.askRates mergedSource).1 = .ok rates
  dollars : ∀ asset price,
    (e.askDollars asset price none).1 = .ok (adjusted e.config rates (.ofText asset) price)
  conversion : ∀ amount fromAsset toAsset, (e.askConversion amount fromAsset toAsset none).1 =
    convertedAmount rates amount (.ofText fromAsset) (.ofText toAsset)

section

variable {e : Engine φ} {rates : Rates}

theorem answersFrom_of_ratesFrom (h : e.ratesFrom mergedSource = .ok rates) :
    e.AnswersFrom rates where
  table := h
  dollars asset price := by
    rw [askDollars_eq, Option.getD_none, h]
    rfl
  conversion amount fromAsset toAsset := by
    rw [askConversion_eq, Option.getD_none, h, Except.bind]

/-- The prices of a feed with the name of the source hide the merged rates. -/
theorem answersFrom_getD_prices? (e : Engine φ) :
    e.AnswersFrom ((e.book.prices? mergedSource).getD e.book.merged) :=
  answersFrom_of_ratesFrom e.ratesFrom_mergedSource_eq

end

variable {settings : Settings} {origin : ConfigOrigin} {feeds : List φ} {registered : List FeedId}
  {environment : Environment} {runtime : Bool} {trace : Trace φ} {e : Engine φ}

/-- The prices under a name are those in the latest answer under it that a refresh has taken in. -/
theorem prices?_eq_latest?
    (h : Execution (new settings origin feeds registered environment runtime) trace e)
    (feed : String) : e.book.prices? feed = trace.latest? feed := by
  induction h with
  | nil => exact prices?_new feed
  | act hbefore hact ih =>
    rw [prices?_act (recorded_of_execution tasks_new hbefore) hact, ih, Trace.latest?_cons]

/-- What is asked without a source is answered from the merged rates and the configuration as long
as no refresh has taken in an answer of a feed with the name of their source, so always if no such
feed has answered, and from the latest such answer afterwards. -/
theorem answersFrom_latest
    (h : Execution (new settings origin feeds registered environment runtime) trace e) :
    (trace.latest? mergedSource = none → e.AnswersFrom e.book.merged) ∧
    (∀ prices, trace.latest? mergedSource = some prices → e.AnswersFrom prices) ∧
    ((∀ m ∈ trace, ∀ i id prices, ¬ m.Delivers i id (mergedSource, .ok prices)) →
      e.AnswersFrom e.book.merged) := by
  have hanswers := e.answersFrom_getD_prices?
  rw [prices?_eq_latest? h] at hanswers
  have hmerged (hnone : trace.latest? mergedSource = none) : e.AnswersFrom e.book.merged := by
    rwa [hnone] at hanswers
  refine ⟨hmerged, ?_, ?_⟩
  · intro prices hprices
    rwa [hprices] at hanswers
  · intro hnever
    apply hmerged
    rw [Option.eq_none_iff_forall_ne_some]
    intro prices hprices
    rw [← prices?_eq_latest? h] at hprices
    obtain ⟨m, hm, i, id, hdelivers⟩ := exists_delivers_of_prices? h hprices
    exact hnever m hm i id prices hdelivers

/-- An engine whose only feed has the name of the source of the merged rates. -/
def collidingEngine : Engine ScriptedFeed :=
  new .default (.lists ⟨[], [["BTC", "3", "fast"]]⟩) [(ScriptedFeed.new "config").quote "BTC" 7.0]
    [0] .empty true

/-- A first cycle in which the feed answers. -/
def firstCycle : List (Action ScriptedFeed) :=
  [.start, .stepTask 0, .stepTask 0, .stepTask 0, .stepTask 0, .stepTask 0]

/-- The merged rates are used while the answer of the feed is not taken in, and its prices then. -/
theorem answersFrom_of_collision :
    (∃ trace e, Execution collidingEngine trace e ∧ trace.length = 5 ∧
      e.AnswersFrom e.book.merged) ∧
    ∃ trace e prices, Execution collidingEngine trace e ∧ trace.length = 6 ∧
      prices.get? (.ofText "BTC") = some 7.0 ∧ e.AnswersFrom prices := by
  obtain ⟨⟨before, s⟩, hbefore, hlength, hnone⟩ :
      ∃ run, collidingEngine.perform (firstCycle.take 5) = some run ∧ run.1.length = 5 ∧
        run.1.latest? mergedSource = none := ⟨_, rfl, rfl, rfl⟩
  obtain ⟨⟨trace, e⟩, hafter, hlonger, prices, hprices, hbitcoin⟩ :
      ∃ run, collidingEngine.perform firstCycle = some run ∧ run.1.length = 6 ∧
        ∃ prices, run.1.latest? mergedSource = some prices ∧
          prices.get? (.ofText "BTC") = some 7.0 := ⟨_, rfl, rfl, _, rfl, rfl⟩
  have h := execution_of_perform hbefore
  have hlater := execution_of_perform hafter
  exact ⟨⟨before, s, h, hlength, (answersFrom_latest h).1 hnone⟩,
    trace, e, prices, hlater, hlonger, hbitcoin, (answersFrom_latest hlater).2.1 prices hprices⟩

/-- A feed with the name of the source of the merged rates hides them once it has answered. -/
theorem exists_not_answersFrom_merged :
    ∃ trace e, Execution collidingEngine trace e ∧
      e.book.rate? (.ofText "BTC") = some 3.0 ∧
      (e.askRates mergedSource).1.map (·.get? (.ofText "BTC")) = .ok (some 7.0) ∧
      (e.askDollars "BTC" 2.0 none).1 = .ok (7.0 * 2.0) ∧ ¬ e.AnswersFrom e.book.merged := by
  obtain ⟨⟨trace, e⟩, hperformed, hmerged, hasked, hdollars⟩ :
      ∃ run, collidingEngine.perform firstCycle = some run ∧
        run.2.book.rate? (.ofText "BTC") = some 3.0 ∧
        (run.2.askRates mergedSource).1.map (·.get? (.ofText "BTC")) = .ok (some 7.0) ∧
        (run.2.askDollars "BTC" 2.0 none).1 = .ok (7.0 * 2.0) :=
    ⟨_, rfl, rfl, rfl, rfl⟩
  refine ⟨trace, e, execution_of_perform hperformed, hmerged, hasked, hdollars, ?_⟩
  intro hanswers
  have hrates : Except.ok (some 3.0) = (.ok (some 7.0) : Except RateError (Option Float)) := by
    rw [← hasked, hanswers.table, ← hmerged]
    rfl
  have hequal : (3.0 : Float) = 7.0 := Option.some.inj (Except.ok.inj hrates)
  exact absurd hequal (by decide)

end ExchangeRates.Engine

import ExchangeRates.Proofs.Engine.BookHistory
import ExchangeRates.Proofs.RateBook.Contents

namespace ExchangeRates.Engine

variable {φ : Type} {settings : Settings} {origin : ConfigOrigin} {feeds : List φ}
  {registered : List FeedId} {environment : Environment} {runtime : Bool}

theorem prices?_new (feed : String) :
    (new settings origin feeds registered environment runtime).book.prices? feed = none := by
  unfold new reconfigure
  split <;> rfl

variable [PriceFeed φ] {trace : Trace φ} {e later : Engine φ} {a : Action φ} {feed : String}

/-- A feed answers under no name but its own. -/
theorem not_delivers_of_names {m : Moment φ}
    (h : ∀ source ∈ m.engine.feeds, PriceFeed.name source ≠ feed) (i : Nat) (id : FeedId)
    (answer : Answer) : ¬ m.Delivers i id (feed, answer) := by
  rintro ⟨-, -, source, hsource, hname, -⟩
  exact h source (List.mem_of_getElem? hsource) hname

/-- The answers that an event takes in were given at moments of the execution. -/
theorem exists_delivers_of_event? (hrecorded : Recorded trace e) {event : RateBook.Event}
    (hevent : trace.event? e a = some event) {answer : String × Answer}
    (hmem : answer ∈ event.answers) : ∃ m ∈ trace, ∃ i id, m.Delivers i id answer := by
  obtain ⟨config, -, hreset⟩ | ⟨-, hnone⟩ | ⟨-, i, answers, start, -, hanswers, -, -, hrefresh⟩ :=
    event?_cases trace e a
  · obtain rfl := Option.some.inj (hreset.symm.trans hevent)
    cases hmem
  · cases hnone.symm.trans hevent
  · obtain rfl := Option.some.inj (hrefresh.symm.trans hevent)
    obtain ⟨m, hm, id, hdelivers⟩ := exists_delivers_of_answersTo? hrecorded hanswers hmem
    exact ⟨m, hm, i, id, hdelivers⟩

/-- An action replaces the prices of the feeds whose answers it takes in, and of no others. -/
theorem prices?_act (hrecorded : Recorded trace e) (hact : e.act a = some later)
    (feed : String) :
    later.book.prices? feed =
      (RateBook.latest? ((trace.event? e a).toList.flatMap RateBook.Event.answers) feed).or
        (e.book.prices? feed) := by
  rw [book_act hrecorded hact, RateBook.prices?_foldl_apply]

/-- The prices of a feed are those of an answer that was given at a moment of the execution. -/
theorem exists_delivers_of_prices?
    (h : Execution (new settings origin feeds registered environment runtime) trace e)
    {prices : Rates} (hprices : e.book.prices? feed = some prices) :
    ∃ m ∈ trace, ∃ i id, m.Delivers i id (feed, .ok prices) := by
  induction h with
  | nil =>
    rw [prices?_new] at hprices
    cases hprices
  | @act trace e later a hbefore hact ih =>
    have hrecorded := recorded_of_execution tasks_new hbefore
    rw [prices?_act hrecorded hact, Option.or_eq_some_iff] at hprices
    -- the prices are new with this action, or they were there before
    have hearlier : ∃ m ∈ trace, ∃ i id, m.Delivers i id (feed, .ok prices) := by
      obtain hnew | ⟨-, hold⟩ := hprices
      · obtain ⟨event, hevent, hmem⟩ := List.mem_flatMap.mp (RateBook.mem_of_latest? hnew)
        exact exists_delivers_of_event? hrecorded (Option.mem_toList.mp hevent) hmem
      · exact ih hold
    obtain ⟨m, hm, hdelivers⟩ := hearlier
    exact ⟨m, List.mem_cons_of_mem _ hm, hdelivers⟩

end ExchangeRates.Engine

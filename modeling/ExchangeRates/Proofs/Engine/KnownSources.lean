import ExchangeRates.Proofs.Engine.FeedNames
import ExchangeRates.Proofs.Engine.MergedSource

namespace ExchangeRates.Engine

variable {φ : Type}

theorem Trace.mem_events_iff {trace : Trace φ} {event : RateBook.Event} :
    event ∈ trace.events ↔
      ∃ m before, m :: before <:+ trace ∧
        Trace.event? before m.engine m.action = some event := by
  induction trace with
  | nil => simp [events]
  | cons last earlier ih =>
    rw [events, List.mem_append, ih, Option.mem_toList]
    constructor
    · rintro (⟨m, before, hsuffix, hevent⟩ | hevent)
      · exact ⟨m, before, hsuffix.trans (List.suffix_cons ..), hevent⟩
      · exact ⟨last, earlier, List.suffix_rfl, hevent⟩
    · rintro ⟨m, before, hsuffix, hevent⟩
      obtain heq | hsuffix := List.suffix_cons_iff.mp hsuffix
      · obtain ⟨rfl, rfl⟩ := List.cons.inj heq
        exact .inr hevent
      · exact .inl ⟨m, before, hsuffix, hevent⟩

/-- The feed whose prices a source stands for, unless it stands for the merged rates. -/
def feedOf (settings : Settings) (source : String) : String :=
  if source = defaultFeedSource then settings.defaultFeed else source

/-- The answer to a question for the rates of a feed, given its prices if they are known. -/
def answerFor (feed : String) : Option Rates → Except RateError Rates
  | some prices => .ok prices
  | none => .error (.unknownSource feed)

theorem ratesFrom_eq (e : Engine φ) {source : String} (h : source ≠ mergedSource) :
    e.ratesFrom source =
      answerFor (feedOf e.settings source) (e.book.prices? (feedOf e.settings source)) := by
  unfold ratesFrom feedOf
  rw [if_neg h]
  split
  · cases e.book.prices? e.settings.defaultFeed <;> rfl
  · cases e.book.prices? source <;> rfl

theorem ratesFrom_register (e : Engine φ) (ids : List FeedId) {source : String}
    (h : source ≠ mergedSource) : (e.register ids).ratesFrom source = e.ratesFrom source := by
  have hkept : (e.register ids).settings = e.settings ∧
      ∀ feed, (e.register ids).book.prices? feed = e.book.prices? feed := by
    unfold register reconfigure
    split <;> exact ⟨rfl, fun _ => rfl⟩
  rw [ratesFrom_eq _ h, ratesFrom_eq _ h, hkept.1, hkept.2]

variable [PriceFeed φ]

/-- A refresh has taken in prices under a name. A feed that was registered when the cycle of the
refresh began gave them under this name since. -/
def Trace.TookIn (trace : Trace φ) (feed : String) (prices : Rates) : Prop :=
  ∃ m before i start answers, m :: before <:+ trace ∧ m.action = .stepTask i ∧
    Trace.cycleStart? i before = some start ∧ m.engine.answersTo? i = some answers ∧
    (feed, .ok prices) ∈ answers ∧
    ∃ id ∈ start.registered, Trace.Delivers i before id (feed, .ok prices)

variable {settings : Settings} {origin : ConfigOrigin} {feeds : List φ} {registered : List FeedId}
  {environment : Environment} {runtime : Bool} {trace : Trace φ} {e : Engine φ}

theorem settings_of_execution
    (h : Execution (new settings origin feeds registered environment runtime) trace e) :
    e.settings = settings :=
  h.settings_eq.trans (settings_new ..)

theorem tookIn_of_latest?
    (h : Execution (new settings origin feeds registered environment runtime) trace e)
    {feed : String} {prices : Rates} (hlatest : trace.latest? feed = some prices) :
    trace.TookIn feed prices := by
  obtain ⟨event, hevent, hmem⟩ := List.mem_flatMap.mp (RateBook.mem_of_latest? hlatest)
  obtain ⟨m, before, ⟨after, rfl⟩, hmoment⟩ := Trace.mem_events_iff.mp hevent
  obtain ⟨_, -, hreset⟩ | ⟨-, hnone⟩ |
    ⟨-, i, answers, start, haction, hanswers, hstart, -, hrefresh⟩ :=
      event?_cases before m.engine m.action
  · obtain rfl := Option.some.inj (hreset.symm.trans hmoment)
    cases hmem
  · cases hnone.symm.trans hmoment
  · obtain rfl := Option.some.inj (hrefresh.symm.trans hmoment)
    have hrecorded := recorded_of_execution tasks_new h.split.1
    obtain ⟨began, hbegan, hgiven⟩ := exists_registered_of_answersTo? hrecorded hanswers hmem
    obtain rfl := Option.some.inj (hbegan.symm.trans hstart)
    exact ⟨m, before, i, began, answers, ⟨after, rfl⟩, haction, hstart, hanswers, hmem, hgiven⟩

theorem Trace.TookIn.exists_latest? {feed : String} {prices : Rates}
    (h : trace.TookIn feed prices) : ∃ later, trace.latest? feed = some later := by
  obtain ⟨⟨s, a⟩, before, i, start, answers, hsuffix, rfl, hstart, hanswers, hmem, -⟩ := h
  -- a refresh with an answer among its own succeeds, so it is an event
  have hany : RateBook.anyAnswer answers = true :=
    RateBook.anyAnswer_iff.mpr (.inr ⟨feed, prices, hmem⟩)
  have hevent : Trace.event? before s (.stepTask i) =
      some (RateBook.Event.refresh s.now start.config answers) := by
    rw [event?_stepTask, refreshEvent?_of_some hanswers hstart, if_pos hany]
  apply RateBook.exists_latest?_of_mem_answered
  rw [RateBook.mem_answered]
  exact ⟨prices, List.mem_flatMap.mpr
    ⟨_, Trace.mem_events_iff.mpr ⟨_, before, hsuffix, hevent⟩, hmem⟩⟩

/-- A name under which a refresh has taken in prices is that of a registered feed, if no feed that
was registered has been taken out. -/
theorem Trace.TookIn.exists_registered [NamedFeed φ] {first : Engine φ}
    (h : Execution first trace e) {feed : String} {prices : Rates}
    (htook : trace.TookIn feed prices) (hnames : ∀ m ∈ trace, m.action.KeepsNames)
    (hkept : ∀ m ∈ trace, ∀ id ∈ m.engine.registered, id ∈ e.registered) :
    ∃ source ∈ e.registeredFeeds, PriceFeed.name source = feed := by
  obtain ⟨m, before, i, start, answers, hsuffix, -, hstart, -, -, id, hid, d, hd, -, -, source,
    hsource, hname, -⟩ := htook
  obtain ⟨began, hbegan, rfl⟩ := Option.map_eq_some_iff.mp hstart
  have hbefore : ∀ x ∈ before, x ∈ trace := fun x hx =>
    hsuffix.subset (List.mem_cons_of_mem _ hx)
  have hbegan := hbefore began (List.mem_of_find?_eq_some hbegan)
  have hd := hbefore d ((List.takeWhile_sublist _).subset hd)
  obtain ⟨hlast, hmoments⟩ := names_of_execution h hnames
  have hplace : (feedNames e.feeds)[id]? = some feed := by
    rw [hlast, ← hmoments d hd, feedNames, List.getElem?_map, hsource]
    exact congrArg some hname
  rw [feedNames, List.getElem?_map] at hplace
  obtain ⟨current, hcurrent, rfl⟩ := Option.map_eq_some_iff.mp hplace
  exact ⟨current, List.mem_filterMap.mpr ⟨id, hkept began hbegan id hid, hcurrent⟩, rfl⟩

/-- A source other than that of the merged rates is known exactly if a refresh has taken in prices
of its feed, given by a feed of this name that was registered when the cycle began, and its rates
are the prices in the latest such answer. Registering other feeds changes nothing of it, so a source
need not be the name of a feed that is registered now; it is if no feed has been taken out. -/
theorem askRates_known [NamedFeed φ]
    (h : Execution (new settings origin feeds registered environment runtime) trace e)
    {source : String} (hsource : source ≠ mergedSource) :
    (e.askRates source).1 =
      answerFor (feedOf settings source) (trace.latest? (feedOf settings source)) ∧
    (∀ prices, trace.latest? (feedOf settings source) = some prices →
      trace.TookIn (feedOf settings source) prices) ∧
    (∀ prices, trace.TookIn (feedOf settings source) prices →
      ∃ later, (e.askRates source).1 = .ok later) ∧
    (∀ ids, ((e.register ids).askRates source).1 = (e.askRates source).1) ∧
    ((∀ m ∈ trace, m.action.KeepsNames) →
      (∀ m ∈ trace, ∀ id ∈ m.engine.registered, id ∈ e.registered) →
      ∀ rates, (e.askRates source).1 = .ok rates →
        ∃ feed ∈ e.registeredFeeds, PriceFeed.name feed = feedOf settings source) := by
  have hanswer : (e.askRates source).1 =
      answerFor (feedOf settings source) (trace.latest? (feedOf settings source)) := by
    have hrates := ratesFrom_eq e hsource
    rwa [settings_of_execution h, prices?_eq_latest? h] at hrates
  refine ⟨hanswer, fun _ => tookIn_of_latest? h, ?_,
    fun ids => ratesFrom_register e ids hsource, ?_⟩
  · intro prices htook
    obtain ⟨later, hlater⟩ := htook.exists_latest?
    exact ⟨later, by rw [hanswer, hlater]; rfl⟩
  · intro hnames hkept rates hrates
    cases hlatest : trace.latest? (feedOf settings source) with
    | none =>
      rw [hanswer, hlatest] at hrates
      cases hrates
    | some prices => exact (tookIn_of_latest? h hlatest).exists_registered h hnames hkept

/-- An engine with one feed, which is the default feed. -/
def defaultFeedEngine : Engine ScriptedFeed :=
  new { Settings.default with defaultFeed := "fast" } (.lists ⟨[["BTC", "fast"]], []⟩)
    [(ScriptedFeed.new "fast").quote "BTC" 50000.0] [0] .empty true

/-- A cycle in which the feed answers, after which it is taken out. -/
def takenOut : List (Action ScriptedFeed) := firstCycle ++ [.register []]

/-- While the feed is registered it is the one that is known, and it stays known without it. -/
theorem askRates_known_of_takenOut :
    (∃ trace e rates feed, Execution defaultFeedEngine trace e ∧
      (e.askRates "fast").1 = .ok rates ∧ feed ∈ e.registeredFeeds ∧
      PriceFeed.name feed = "fast") ∧
    ∃ trace e prices, Execution defaultFeedEngine trace e ∧ e.registered = [] ∧
      trace.TookIn "fast" prices ∧ (e.askRates "fast").1 = .ok prices ∧
      (e.askRates defaultFeedSource).1 = .ok prices := by
  obtain ⟨⟨before, s⟩, hbefore, hactions, hregistered, rates, hrates⟩ :
      ∃ run, defaultFeedEngine.perform firstCycle = some run ∧
        (∀ m ∈ run.1, m.action.KeepsNames) ∧
        (∀ m ∈ run.1, ∀ id ∈ m.engine.registered, id ∈ run.2.registered) ∧
        ∃ rates, (run.2.askRates "fast").1 = .ok rates :=
    ⟨_, rfl, by simp [Action.KeepsNames], by decide, _, rfl⟩
  obtain ⟨⟨trace, e⟩, hafter, hnone, prices, hlatest⟩ :
      ∃ run, defaultFeedEngine.perform takenOut = some run ∧ run.2.registered = [] ∧
        ∃ prices, run.1.latest? "fast" = some prices := ⟨_, rfl, rfl, _, rfl⟩
  have h := execution_of_perform hbefore
  have hlater := execution_of_perform hafter
  obtain ⟨-, -, -, -, hknown⟩ := askRates_known h (by decide : "fast" ≠ mergedSource)
  obtain ⟨feed, hfeed, hname⟩ := hknown hactions hregistered rates hrates
  obtain ⟨hanswer, htook, -⟩ := askRates_known hlater (by decide : "fast" ≠ mergedSource)
  have hdefault := (askRates_known hlater (by decide : defaultFeedSource ≠ mergedSource)).1
  refine ⟨⟨before, s, rates, feed, h, hrates, hfeed, hname⟩, trace, e, prices, hlater, hnone,
    htook prices hlatest, ?_, ?_⟩
  · rw [hanswer]
    exact congrArg (answerFor "fast") hlatest
  · rw [hdefault]
    exact congrArg (answerFor "fast") hlatest

/-- A source may be known although no feed is registered: the prices of a feed that has been taken
out are still given under its name and as those of the default feed. -/
theorem exists_known_not_registered :
    ∃ trace e rates, Execution defaultFeedEngine trace e ∧ e.registeredFeeds = [] ∧
      "fast" ≠ defaultFeedSource ∧ "fast" ≠ mergedSource ∧ (e.askRates "fast").1 = .ok rates ∧
      (e.askRates defaultFeedSource).1 = .ok rates ∧
      rates.get? (.ofText "BTC") = some 50000.0 := by
  obtain ⟨⟨trace, e⟩, hperformed, hnone, rates, hrates, hdefault, hbitcoin⟩ :
      ∃ run, defaultFeedEngine.perform takenOut = some run ∧ run.2.registeredFeeds = [] ∧
        ∃ rates, (run.2.askRates "fast").1 = .ok rates ∧
          (run.2.askRates defaultFeedSource).1 = .ok rates ∧
          rates.get? (.ofText "BTC") = some 50000.0 := ⟨_, rfl, rfl, _, rfl, rfl, rfl⟩
  exact ⟨trace, e, rates, execution_of_perform hperformed, hnone, by decide, by decide, hrates,
    hdefault, hbitcoin⟩

end ExchangeRates.Engine

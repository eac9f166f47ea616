import ExchangeRates.Feed.Scripted
import ExchangeRates.Proofs.Engine.Effect
import ExchangeRates.Proofs.Feed.Ticking
import ExchangeRates.Proofs.Feed.Waking
import ExchangeRates.Proofs.Fetch

namespace ExchangeRates

/-- A kind of feeds that keep their names. -/
class NamedFeed (φ : Type) [PriceFeed φ] : Prop where
  name_start (now : Instant) (feed : φ) :
    PriceFeed.name (PriceFeed.start now feed) = PriceFeed.name feed
  name_stop (feed : φ) : PriceFeed.name (PriceFeed.stop feed) = PriceFeed.name feed
  name_fetch (feed : φ) : PriceFeed.name (PriceFeed.fetch feed).1 = PriceFeed.name feed
  name_wake (now : Instant) (feed : φ) :
    PriceFeed.name (PriceFeed.wake now feed).1 = PriceFeed.name feed

instance : NamedFeed ScriptedFeed where
  name_start _ _ := rfl
  name_stop _ := rfl
  name_fetch feed := by
    simp only [PriceFeed.fetch, PriceFeed.name, ScriptedFeed.fetch]
    split <;> rfl
  name_wake _ _ := rfl

instance : NamedFeed WalkingFeed where
  name_start now feed := congrArg WalkProfile.name (WalkingFeed.profile_start now feed)
  name_stop feed := congrArg WalkProfile.name (WalkingFeed.profile_stop feed)
  name_fetch _ := rfl
  name_wake now feed := congrArg WalkProfile.name (WalkingFeed.profile_wake now feed)

/-- The names of all feeds, by their places. -/
def feedNames {φ : Type} [PriceFeed φ] (feeds : List φ) : List String := feeds.map PriceFeed.name

namespace Engine

variable {φ : Type} [PriceFeed φ]

/-- An action from outside changes the name of no feed. -/
def Action.KeepsNames (a : Action φ) : Prop :=
  ∀ id change, a = .changeFeed id change →
    ∀ feed, PriceFeed.name (change feed) = PriceFeed.name feed

variable [NamedFeed φ]

theorem name_startFeed (now : Instant) (feed : φ) :
    PriceFeed.name (startFeed now feed) = PriceFeed.name feed := by
  unfold startFeed
  split
  · rfl
  · exact NamedFeed.name_start now feed

omit [NamedFeed φ] in
theorem feedNames_foldl_updateFeed {f : φ → φ}
    (hf : ∀ feed, PriceFeed.name (f feed) = PriceFeed.name feed) (ids : List FeedId)
    (feeds : List φ) :
    feedNames (ids.foldl (fun feeds id => updateFeed feeds id f) feeds) = feedNames feeds := by
  induction ids generalizing feeds with
  | nil => rfl
  | cons id ids ih =>
    rw [List.foldl_cons, ih]
    exact map_modify_eq hf feeds id

theorem feedNames_stoppedFeeds (e : Engine φ) : feedNames e.stoppedFeeds = feedNames e.feeds :=
  feedNames_foldl_updateFeed NamedFeed.name_stop _ _

theorem feedNames_startedFeeds (e : Engine φ) : feedNames e.startedFeeds = feedNames e.feeds :=
  (feedNames_foldl_updateFeed (name_startFeed e.now) _ _).trans e.feedNames_stoppedFeeds

theorem feedNames_wakeFeeds (now : Instant) (feeds : List φ) :
    feedNames (wakeFeeds now feeds).1 = feedNames feeds :=
  map_wakeFeeds (NamedFeed.name_wake now) feeds

theorem feedNames_step {feeds later : List φ} {now : Instant} {requests : List Fetch}
    {result : Except Fault (List Fetch)}
    (h : Fetch.step feeds now requests = some (later, result)) :
    feedNames later = feedNames feeds := by
  obtain ⟨_, request, _, feed, -, -, hfeed, rfl, -⟩ := Fetch.step_eq_some h
  obtain ⟨hlt, rfl⟩ := List.getElem?_eq_some_iff.mp hfeed
  have hplace : request.feed < (feeds.map PriceFeed.name).length := by simpa using hlt
  have hname : PriceFeed.name feeds[request.feed] = (feeds.map PriceFeed.name)[request.feed] := by
    rw [List.getElem_map]
  rw [feedNames, List.map_set, NamedFeed.name_fetch, hname, List.set_getElem_self]
  rfl

theorem feedNames_act {e later : Engine φ} {a : Action φ} (hact : e.act a = some later)
    (hnames : a.KeepsNames) : feedNames later.feeds = feedNames e.feeds := by
  cases effect_of_act hact with
  | quiet _ _ _ => rfl
  | resolve _ => rfl
  | startRun _ => exact e.feedNames_startedFeeds
  | stop => exact e.feedNames_stoppedFeeds
  | changeFeed => exact map_modify_eq (hnames _ _ rfl) _ _
  | stepFeeds => exact feedNames_wakeFeeds _ _
  | stepTask _ _ hstep =>
    cases hstep with
    | answer _ hfetch => exact feedNames_step hfetch
    | breakDown _ hfetch => exact feedNames_step hfetch
    | _ => rfl

/-- The place of a feed stands for one name throughout an execution. -/
theorem names_of_execution {first e : Engine φ} {trace : Trace φ} (h : Execution first trace e)
    (hnames : ∀ m ∈ trace, m.action.KeepsNames) :
    feedNames e.feeds = feedNames first.feeds ∧
      ∀ m ∈ trace, feedNames m.engine.feeds = feedNames first.feeds := by
  induction h with
  | nil => exact ⟨rfl, by simp⟩
  | act _ hact ih =>
    simp only [List.mem_cons, forall_eq_or_imp] at hnames ⊢
    obtain ⟨hbefore, hearlier⟩ := ih hnames.2
    exact ⟨(feedNames_act hact hnames.1).trans hbefore, hbefore, hearlier⟩

end Engine

end ExchangeRates

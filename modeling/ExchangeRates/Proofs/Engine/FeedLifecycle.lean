import ExchangeRates.Proofs.Engine.Effect
import ExchangeRates.Proofs.Feed

namespace ExchangeRates.Engine

variable {φ : Type}

theorem started_register (e : Engine φ) (ids : List FeedId) :
    (e.register ids).started = e.started := by
  unfold register reconfigure
  split <;> rfl

theorem ne_register_of_startsRun {e : Engine φ} {a : Action φ} (h : e.startsRun a = true)
    (ids : List FeedId) : a ≠ .register ids := by
  rintro rfl
  simp [startsRun] at h

/-- An action does not replace the feeds of a started engine by others. -/
def KeepsFeeds (e : Engine φ) (a : Action φ) : Prop :=
  ∀ ids, a = .register ids → e.started = true →
    ∀ id < e.feeds.length, (id ∈ ids ↔ id ∈ e.registered)

theorem keepsFeeds_of_ne {e : Engine φ} {a : Action φ} (h : ∀ ids, a ≠ .register ids) :
    e.KeepsFeeds a :=
  fun ids ha => absurd ha (h ids)

variable [PriceFeed φ]

/-- A stop leaves no feed running, and the registered feeds run while the engine is started. -/
def FeedsFollow (e : Engine φ) : Prop :=
  (∀ feed ∈ e.stop.feeds, PriceFeed.started feed = false) ∧
    (e.started = true → ∀ feed ∈ e.registeredFeeds, PriceFeed.started feed = true)

/-- Exactly the registered feeds run while the engine is started, and none while it is not. -/
def InStep (e : Engine φ) : Prop :=
  ∀ id running, running? e.feeds id = some running →
    (running = true ↔ e.started = true ∧ id ∈ e.registered)

/-- An action neither starts nor stops a feed behind the back of the engine. -/
def Action.LeavesRunning (a : Action φ) : Prop :=
  ∀ id change, a = .changeFeed id change →
    ∀ feed, PriceFeed.started (change feed) = PriceFeed.started feed

section

variable {e later : Engine φ} {a : Action φ}

theorem lt_length_of_running? {feeds : List φ} {id : FeedId} {running : Bool}
    (h : running? feeds id = some running) : id < feeds.length := by
  obtain ⟨feed, hfeed, -⟩ := Option.map_eq_some_iff.mp h
  exact (List.getElem?_eq_some_iff.mp hfeed).1

theorem InStep.not_running (h : e.InStep) {id : FeedId} {running : Bool}
    (hrunning : running? e.feeds id = some running) (hid : id ∉ e.registered) :
    running = false := by
  simpa using fun hrun => hid ((h id running hrunning).mp hrun).2

theorem InStep.congr (h : e.InStep)
    (hfeeds : ∀ id, running? later.feeds id = running? e.feeds id)
    (hstarted : later.started = e.started) (hregistered : later.registered = e.registered) :
    later.InStep := by
  intro id running hrunning
  rw [hfeeds] at hrunning
  rw [hstarted, hregistered]
  exact h id running hrunning

theorem inStep_new {settings : Settings} {origin : ConfigOrigin} {feeds : List φ}
    {registered : List FeedId} {environment : Environment} {runtime : Bool}
    (hstopped : ∀ feed ∈ feeds, PriceFeed.started feed = false) :
    (new settings origin feeds registered environment runtime).InStep := by
  have hnew : (new settings origin feeds registered environment runtime).feeds = feeds ∧
      (new settings origin feeds registered environment runtime).started = false := by
    unfold new reconfigure
    split <;> exact ⟨rfl, rfl⟩
  intro id running hrunning
  rw [hnew.1] at hrunning
  obtain ⟨feed, hfeed, rfl⟩ := Option.map_eq_some_iff.mp hrunning
  simp [hnew.2, hstopped feed (List.mem_of_getElem? hfeed)]

/-- Registering feeds keeps a started engine in step exactly if they are the same feeds. -/
theorem InStep.registered_iff (h : e.InStep) (hfeeds : later.feeds = e.feeds)
    (hstarted : later.started = e.started) (hregistered : later.registered = e.registeredAfter a) :
    later.InStep ↔ e.KeepsFeeds a := by
  constructor
  · rintro hlater ids rfl hs id hid
    obtain ⟨running, hrunning⟩ : ∃ running, running? e.feeds id = some running :=
      ⟨_, by rw [running?, List.getElem?_eq_getElem hid]; rfl⟩
    have hbefore := h id running hrunning
    have hafter := hlater id running (hfeeds ▸ hrunning)
    rw [hstarted, hregistered] at hafter
    simpa [hs, registeredAfter] using hafter.symm.trans hbefore
  · intro hkeeps id running hrunning
    rw [hfeeds] at hrunning
    rw [hstarted, hregistered, h id running hrunning]
    apply and_congr_right
    intro hs
    cases a with
    | register ids => exact (hkeeps ids rfl hs id (lt_length_of_running? hrunning)).symm
    | _ => rfl

end

variable [LawfulFeed φ] {e later : Engine φ} {a : Action φ} {trace : Trace φ}

theorem running?_stoppedFeeds (e : Engine φ) (id : FeedId) :
    running? e.stoppedFeeds id =
      (running? e.feeds id).map fun running => if id ∈ e.registered then false else running :=
  running?_foldl_updateFeed _ _ _ LawfulFeed.started_stop _ _

theorem running?_startedFeeds (e : Engine φ) (id : FeedId) :
    running? e.startedFeeds id =
      (running? e.feeds id).map fun running => if id ∈ e.registered then true else running := by
  rw [startedFeeds, running?_foldl_updateFeed _ _ _ (started_startFeed e.now),
    running?_stoppedFeeds, Option.map_map]
  congr 1
  funext running
  by_cases hid : id ∈ e.registered <;> simp [hid]

theorem TaskStep.running? {i : Nat} {task : PollTask} (h : e.TaskStep i task later) (id : FeedId) :
    running? later.feeds id = running? e.feeds id := by
  cases h with
  | answer _ hstep => exact running?_step hstep id
  | breakDown _ hstep => exact running?_step hstep id
  | _ => rfl

/-- An engine in step with its feeds stays so exactly if its feeds are not replaced by others. -/
theorem InStep.act_iff (h : e.InStep) (hact : e.act a = some later) (hchange : a.LeavesRunning) :
    later.InStep ↔ e.KeepsFeeds a := by
  cases effect_of_act hact with
  | quiet _ _ _ => exact h.registered_iff rfl rfl rfl
  | resolve _ => exact h.registered_iff rfl rfl rfl
  | startRun hstarts =>
    refine iff_of_true ?_ (keepsFeeds_of_ne (ne_register_of_startsRun hstarts))
    intro id running hrunning
    obtain ⟨before, hbefore, rfl⟩ := Option.map_eq_some_iff.mp
      ((running?_startedFeeds e id).symm.trans hrunning)
    by_cases hid : id ∈ e.registered
    · simp [hid]
    · simp [hid, h.not_running hbefore hid]
  | stop =>
    refine iff_of_true ?_ (keepsFeeds_of_ne (by simp))
    intro id running hrunning
    obtain ⟨before, hbefore, rfl⟩ := Option.map_eq_some_iff.mp
      ((running?_stoppedFeeds e id).symm.trans hrunning)
    by_cases hid : id ∈ e.registered
    · simp [hid]
    · simp [hid, h.not_running hbefore hid]
  | changeFeed =>
    refine iff_of_true (h.congr ?_ rfl rfl) (keepsFeeds_of_ne (by simp))
    exact fun id => running?_updateFeed _ _ _ _ (hchange _ _ rfl)
  | stepFeeds =>
    exact iff_of_true (h.congr (running?_wakeFeeds _ _) rfl rfl) (keepsFeeds_of_ne (by simp))
  | stepTask _ _ hstep =>
    have hfeeds := hstep.running?
    obtain ⟨_, _, _, _, _, _, rfl⟩ := hstep.frame
    exact iff_of_true (h.congr hfeeds rfl rfl) (keepsFeeds_of_ne (by simp))

/-- After a stop a feed runs only if it ran before and is not registered. -/
theorem exists_running?_of_mem_stop {feed : φ} (h : feed ∈ e.stop.feeds) :
    ∃ id running, running? e.feeds id = some running ∧
      PriceFeed.started feed = if id ∈ e.registered then false else running := by
  rw [stop_eq] at h
  obtain ⟨id, hid⟩ := List.mem_iff_getElem?.mp h
  have hrunning : running? e.stoppedFeeds id = some (PriceFeed.started feed) := by
    rw [running?, hid, Option.map_some]
  rw [running?_stoppedFeeds] at hrunning
  obtain ⟨running, hbefore, heq⟩ := Option.map_eq_some_iff.mp hrunning
  exact ⟨id, running, hbefore, heq.symm⟩

theorem InStep.follow (h : e.InStep) : e.FeedsFollow := by
  constructor
  · intro feed hfeed
    obtain ⟨id, running, hrunning, heq⟩ := exists_running?_of_mem_stop hfeed
    rw [heq]
    split
    · rfl
    · next hother => exact h.not_running hrunning hother
  · intro hstarted feed hfeed
    obtain ⟨id, hid, hget⟩ := List.mem_filterMap.mp hfeed
    have hrunning : running? e.feeds id = some (PriceFeed.started feed) := by
      rw [running?, hget, Option.map_some]
    exact (h id _ hrunning).mpr ⟨hstarted, hid⟩

theorem FeedsFollow.inStep (h : e.FeedsFollow) (hstarted : e.started = true) : e.InStep := by
  obtain ⟨hstop, hregistered⟩ := h
  intro id running hrunning
  constructor
  · rintro rfl
    refine ⟨hstarted, ?_⟩
    by_contra hid
    have hkept : running? e.stoppedFeeds id = some true := by
      rw [running?_stoppedFeeds, hrunning, Option.map_some, if_neg hid]
    obtain ⟨feed, hfeed, htrue⟩ := Option.map_eq_some_iff.mp hkept
    rw [stop_eq] at hstop
    simp [hstop feed (List.mem_of_getElem? hfeed)] at htrue
  · rintro ⟨-, hid⟩
    obtain ⟨feed, hfeed, rfl⟩ := Option.map_eq_some_iff.mp hrunning
    exact hregistered hstarted feed (List.mem_filterMap.mpr ⟨id, hid, hfeed⟩)

theorem InStep.act_of_follow (h : e.InStep) (hact : e.act a = some later)
    (hchange : a.LeavesRunning) (hfollow : later.FeedsFollow) : later.InStep := by
  by_cases hstarted : later.started = true
  · exact hfollow.inStep hstarted
  -- an engine that is not started may register any feeds, so its step is a matter of `act_iff`
  · rw [h.act_iff hact hchange]
    rintro ids rfl hs
    obtain rfl := Option.some.inj hact
    exact absurd ((started_register e ids).trans hs) hstarted

theorem inStep_of_follow {first : Engine φ} (hfirst : first.InStep)
    (h : Execution first trace e) (hchange : ∀ m ∈ trace, m.action.LeavesRunning)
    (hfollow : ∀ before s, trace.Visits e before s → s.FeedsFollow) :
    ∀ before s, trace.Visits e before s → s.InStep := by
  induction h with
  | nil => simp [Trace.Visits, hfirst]
  | @act rest s next a hbefore hact ih =>
    simp only [List.mem_cons, forall_eq_or_imp] at hchange
    simp only [Trace.visits_cons_iff] at hfollow ⊢
    have hearlier := ih hchange.2 fun before s hvisits => hfollow before s (.inr hvisits)
    rintro before t (⟨rfl, rfl⟩ | hvisits)
    · have hs : s.InStep := hearlier rest s (.inl ⟨rfl, rfl⟩)
      exact hs.act_of_follow hact hchange.1 (hfollow _ _ (.inl ⟨rfl, rfl⟩))
    · exact hearlier before t hvisits

/-- Feeds that only the engine starts and stops follow it throughout an execution exactly if the
feeds of a started engine are never replaced by others. -/
theorem feedsFollow_iff {settings : Settings} {origin : ConfigOrigin} {feeds : List φ}
    {registered : List FeedId} {environment : Environment} {runtime : Bool}
    (hstopped : ∀ feed ∈ feeds, PriceFeed.started feed = false)
    (h : Execution (new settings origin feeds registered environment runtime) trace e)
    (hchange : ∀ m ∈ trace, m.action.LeavesRunning) :
    (∀ before s, trace.Visits e before s → s.FeedsFollow) ↔
      ∀ m ∈ trace, m.engine.KeepsFeeds m.action := by
  have hfirst : (new settings origin feeds registered environment runtime).InStep :=
    inStep_new hstopped
  have hiff : (∀ before s, trace.Visits e before s → s.InStep) ↔
      ∀ m before, m :: before <:+ trace → m.engine.KeepsFeeds m.action := by
    refine h.throughout_iff hfirst ?_
    intro before s a next hsuffix _ hs hact
    exact hs.act_iff hact (hchange _ (hsuffix.subset List.mem_cons_self))
  constructor
  · intro hfollow m hm
    obtain ⟨after, before, rfl⟩ := List.append_of_mem hm
    exact hiff.mp (inStep_of_follow hfirst h hchange hfollow) m before ⟨after, rfl⟩
  · intro hkeeps before s hvisits
    refine (hiff.mpr ?_ before s hvisits).follow
    exact fun m before hsuffix => hkeeps m (hsuffix.subset List.mem_cons_self)

def twoFeedEngine : Engine ScriptedFeed :=
  new .default (.lists ⟨[["BTC", "one"]], []⟩) [ScriptedFeed.new "one", ScriptedFeed.new "other"]
    [0, 1] .empty true

/-- The same feeds in another order keep the engine in step with them. -/
theorem feedsFollow_of_reordered :
    ∃ trace e, Execution twoFeedEngine trace e ∧ e.registered = [1, 0, 1] ∧
      ∀ before s, trace.Visits e before s → s.FeedsFollow := by
  have hstart := (Execution.nil : Execution twoFeedEngine [] twoFeedEngine).act (a := .start) rfl
  have h := hstart.act (a := .register [1, 0, 1]) rfl
  refine ⟨_, _, h, rfl, (feedsFollow_iff (by decide) h ?_).mpr ?_⟩
  · simp [Action.LeavesRunning]
  · simp only [List.mem_cons, List.not_mem_nil, or_false, forall_eq_or_imp, forall_eq]
    refine ⟨?_, keepsFeeds_of_ne (by simp)⟩
    intro ids hids _ id _
    obtain rfl := Action.register.inj hids
    have hregistered : twoFeedEngine.start.2.registered = [0, 1] := rfl
    rw [hregistered]
    simp only [List.mem_cons, List.not_mem_nil, or_false]
    omega

/-- A feed that is taken out of a started engine runs on after a stop. -/
theorem exists_not_feedsFollow :
    ∃ trace s feed, Execution twoFeedEngine (⟨s, .stop⟩ :: trace) s.stop ∧
      (∀ m ∈ trace, m.action.LeavesRunning) ∧ feed ∈ s.stop.feeds ∧
      PriceFeed.started feed = true := by
  obtain ⟨⟨trace, s⟩, hperformed, hchange, feed, hfeed, hrunning⟩ :
      ∃ run, twoFeedEngine.perform [.start, .register [1]] = some run ∧
        (∀ m ∈ run.1, m.action.LeavesRunning) ∧
        ∃ feed, feed ∈ run.2.stop.feeds ∧ PriceFeed.started feed = true := by
    refine ⟨_, rfl, by simp [Action.LeavesRunning], _, List.mem_cons_self, rfl⟩
  exact ⟨trace, s, feed, (execution_of_perform hperformed).act rfl, hchange, hfeed, hrunning⟩

end ExchangeRates.Engine

import ExchangeRates.Proofs.Engine.Effect

namespace ExchangeRates.Engine

variable {φ : Type}

private theorem updateFeed_const (feeds : List φ) (id : FeedId) (feed : φ) :
    updateFeed feeds id (fun _ => feed) = feeds.set id feed := by
  apply List.ext_getElem?
  intro j
  by_cases hj : id = j
  · subst hj
    by_cases hid : id < feeds.length <;> simp [updateFeed, hid]
  · simp [updateFeed, hj]

variable [PriceFeed φ]

/-- Some actions lead from one engine to another. -/
def Reaches (e later : Engine φ) : Prop := ∃ trace, Execution e trace later

namespace Reaches

variable {e middle later : Engine φ}

theorem refl (e : Engine φ) : e.Reaches e := ⟨[], .nil⟩

theorem act {a : Action φ} (h : e.Reaches middle) (hact : middle.act a = some later) :
    e.Reaches later := by
  obtain ⟨trace, htrace⟩ := h
  exact ⟨_, htrace.act hact⟩

theorem trans (h : e.Reaches middle) (hnext : middle.Reaches later) : e.Reaches later := by
  obtain ⟨trace, htrace⟩ := h
  obtain ⟨next, hnext⟩ := hnext
  exact ⟨_, htrace.append hnext⟩

theorem waitTo {t : Instant} (h : e.Reaches later) (hlater : later.now ≤ t) :
    e.Reaches { later with now := t } := by
  refine h.act (a := .wait (t - later.now)) ?_
  simp only [Engine.act, Nat.add_sub_cancel' hlater]

end Reaches

/-- A step of the background is one of the feeds, of a task or of one who waits. -/
theorem exists_act_of_step {e later : Engine φ} (h : e.step = some later) :
    ∃ a, e.act a = some later ∧
      (a = .stepFeeds ∨ (∃ i, a = .stepTask i) ∨ ∃ i, a = .stepWaiter i) := by
  rcases Option.or_eq_some_iff.mp h with hfeeds | ⟨-, h⟩
  · exact ⟨.stepFeeds, hfeeds, .inl rfl⟩
  rcases Option.or_eq_some_iff.mp h with htask | ⟨-, hwaiter⟩
  · obtain ⟨i, -, hi⟩ := List.exists_of_findSome?_eq_some htask
    exact ⟨.stepTask i, hi, .inr (.inl ⟨i, rfl⟩)⟩
  · obtain ⟨i, -, hi⟩ := List.exists_of_findSome?_eq_some hwaiter
    exact ⟨.stepWaiter i, hi, .inr (.inr ⟨i, rfl⟩)⟩

theorem now_step {e later : Engine φ} (h : e.step = some later) : later.now = e.now := by
  obtain ⟨a, hact, rfl | ⟨i, rfl⟩ | ⟨i, rfl⟩⟩ := exists_act_of_step h
  · rw [eq_of_stepFeeds hact]
  · obtain ⟨task, -, -, hstep⟩ := taskStep_of_stepTask hact
    obtain ⟨_, _, _, _, _, _, rfl⟩ := hstep.frame
    rfl
  · obtain ⟨_, rfl⟩ := stepWaiter_frame hact
    rfl

theorem reaches_stepMany (count : Nat) (e : Engine φ) :
    e.Reaches (e.stepMany count) ∧ (e.stepMany count).now = e.now := by
  induction count generalizing e with
  | zero => exact ⟨.refl e, rfl⟩
  | succ count ih =>
    unfold stepMany
    split
    · next later hstep =>
      obtain ⟨a, hact, -⟩ := exists_act_of_step hstep
      obtain ⟨hreaches, hnext⟩ := ih later
      exact ⟨((Reaches.refl e).act hact).trans hreaches, hnext.trans (now_step hstep)⟩
    · exact ⟨.refl e, rfl⟩

theorem reaches_settle_at {t : Instant} {e : Engine φ} (h : e.now ≤ t) :
    e.Reaches { e.settle with now := t } := by
  obtain ⟨hsettle, hnow⟩ := reaches_stepMany e.work e
  exact hsettle.waitTo (Nat.le_trans (Nat.le_of_eq hnow) h)

/-- Waiting is an execution: what happens while time passes, in the order of the clock, is a
sequence of actions. -/
theorem reaches_runUntil (limit : Instant) (done : Engine φ → Bool) (e : Engine φ) :
    e.Reaches (e.runUntil limit done) := by
  fun_induction runUntil limit done e with
  | case1 e hlimit settled hdone => exact (reaches_stepMany e.work e).1
  | case2 e hlimit settled hdone next hnext hlater ih =>
    exact (reaches_settle_at (Nat.le_of_lt hlater.1)).trans ih
  | case3 e hlimit settled hdone next hnext hlater => exact reaches_settle_at (Nat.le_of_lt hlimit)
  | case4 e hlimit settled hdone hnext => exact reaches_settle_at (Nat.le_of_lt hlimit)
  | case5 e hlimit => exact .refl e

theorem reaches_sleep (e : Engine φ) (d : Duration) : e.Reaches (e.sleep d) :=
  reaches_runUntil _ _ e

theorem reaches_waitUntilReady (e : Engine φ) (limit : Duration) :
    e.Reaches (e.waitUntilReady limit).2.2 := by
  unfold waitUntilReady
  dsimp only
  split
  · exact .refl e
  · exact reaches_runUntil _ _ e

theorem reaches_fetchFrom {e later : Engine φ} {id : FeedId} {answer : Option Answer}
    (h : e.fetchFrom id = .ok (answer, later)) : e.Reaches later := by
  unfold fetchFrom at h
  split at h
  · cases h
    exact .refl e
  next feed hfeed =>
  dsimp only at h
  split at h
  · cases h
    exact reaches_sleep e _
  · simp at h
  · next asked answer hfetch =>
    cases h
    have hasked :=
      (reaches_sleep e (PriceFeed.delay feed)).act (a := .changeFeed id fun _ => asked) rfl
    rwa [changeFeed, updateFeed_const] at hasked

end ExchangeRates.Engine

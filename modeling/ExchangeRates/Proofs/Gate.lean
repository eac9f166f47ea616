import ExchangeRates.Gate

namespace ExchangeRates.Gate

variable {φ : Type} [PriceFeed φ] {feeds : List φ} {now : Instant} {timeout : Duration}
  {latch later : Latch} {gate next : Gate} {events : List LogEvent}

/-- The feed that has its turn, if the turn has ended before the feed was ready. -/
def late? (feeds : List φ) (now : Instant) (gate : Gate) : Option φ :=
  (gate.waiting.head?.bind (feeds[·]?)).filter fun feed =>
    !PriceFeed.ready feed && gate.deadline ≤ now

/-- A gate lets no feed pass exactly if none waits, or the first is not ready and still has its
turn. -/
theorem step_eq_none_iff : gate.step feeds now timeout latch = none ↔
    ∀ id ∈ gate.waiting.head?, ∃ feed, feeds[id]? = some feed ∧ PriceFeed.ready feed = false ∧
      now < gate.deadline := by
  unfold step
  cases gate.waiting with
  | nil => simp
  | cons id rest =>
    cases hfeed : feeds[id]? with
    | none => simp [hfeed]
    | some feed =>
      cases hready : PriceFeed.ready feed <;> by_cases hturn : gate.deadline ≤ now <;>
        simp [hfeed, hready, hturn, Nat.lt_of_not_le]

theorem waiting_eq_nil_of_step (hturn : gate.deadline ≤ now)
    (h : gate.step feeds now timeout latch = none) : gate.waiting = [] := by
  rw [step_eq_none_iff] at h
  cases hwaiting : gate.waiting with
  | nil => rfl
  | cons id rest =>
    obtain ⟨_, -, -, hlater⟩ := h id (by rw [hwaiting]; rfl)
    exact absurd hturn (Nat.not_le_of_gt hlater)

/-- A step lets the first of the feeds pass. -/
theorem exists_waiting_eq_cons_of_step
    (h : gate.step feeds now timeout latch = some (next, later, events)) :
    ∃ id, gate.waiting = id :: next.waiting := by
  unfold step at h
  split at h
  · cases h
  next id rest hwaiting =>
  refine ⟨id, hwaiting.trans ?_⟩
  split at h
  · obtain ⟨rfl, -⟩ := Prod.mk.inj (Option.some.inj h)
    rfl
  · split at h
    · obtain ⟨rfl, -⟩ := Prod.mk.inj (Option.some.inj h)
      rfl
    · simp only [Option.ite_none_right_eq_some, Option.some.injEq] at h
      obtain ⟨rfl, -⟩ := Prod.mk.inj h.2
      rfl

theorem late?_of_waiting_eq_nil (h : gate.waiting = []) : gate.late? feeds now = none := by
  simp [late?, h]

theorem step_reports (h : gate.step feeds now timeout latch = some (next, later, events)) :
    events = (if latch.armed then
      (gate.late? feeds now).toList.map fun feed => .feedNotReady (PriceFeed.name feed) timeout
      else []) ∧
    later.armed = (latch.armed && (gate.late? feeds now).isNone) := by
  unfold step at h
  unfold late?
  split at h
  · cases h
  next id rest hwaiting =>
  rw [hwaiting, List.head?_cons, Option.bind_some]
  cases hfeed : feeds[id]? with
  | none =>
    simp only [hfeed, Option.some.injEq, Prod.mk.injEq] at h
    obtain ⟨-, rfl, rfl⟩ := h
    simp
  | some feed =>
    cases hready : PriceFeed.ready feed with
    | true =>
      simp only [hfeed, hready, if_true, Option.some.injEq, Prod.mk.injEq] at h
      obtain ⟨-, rfl, rfl⟩ := h
      simp [hready, Option.filter]
    | false =>
      simp only [hfeed, hready, Bool.false_eq_true, if_false, Option.ite_none_right_eq_some,
        Option.some.injEq, Prod.mk.injEq] at h
      obtain ⟨hturn, -, rfl, rfl⟩ := h
      cases harmed : latch.armed <;> simp [Latch.trip, hready, hturn, harmed, Option.filter]

end ExchangeRates.Gate

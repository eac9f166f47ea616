import ExchangeRates.Proofs.Feed.Readiness

namespace ExchangeRates

/-- A call that controls a feed. -/
inductive Control where
  | start
  | stop

/-- The calls that have controlled a feed, each at an instant, the latest first. -/
abbrev Controls := List (Instant × Control)

/-- A run of a feed. -/
structure Span where
  begun : Instant
  ended : Instant

/-- The runs of a feed, the latest first: each is begun by a start, and ended by the next call or by
the present. -/
def runsOf : (calls : Controls) → (now : Instant) → List Span
  | [], _ => []
  | (t, .start) :: earlier, now => ⟨t, now⟩ :: runsOf earlier t
  | (t, .stop) :: earlier, _ => runsOf earlier t

namespace WalkProfile

variable {p : WalkProfile} {run : Span} {m : Nat}

/-- The nanoseconds from a start to the first tick. -/
def warmupNanos (p : WalkProfile) : Nat := (Duration.ofMillis p.warmup).nanos

/-- The nanoseconds between two ticks. -/
def periodNanos (p : WalkProfile) : Nat := (Duration.ofMillis (max p.tick 1)).nanos

/-- When a run that has begun at an instant ticks, if it lasts; its ticks are numbered from zero. -/
def tickAt (p : WalkProfile) (begun : Instant) (k : Nat) : Instant :=
  begun + p.warmupNanos + k * p.periodNanos

theorem tickAt_zero (p : WalkProfile) (begun : Instant) :
    p.tickAt begun 0 = begun + p.warmupNanos := by
  rw [tickAt, Nat.zero_mul, Nat.add_zero]

theorem tickAt_succ (p : WalkProfile) (begun : Instant) (k : Nat) :
    p.tickAt begun (k + 1) = p.tickAt begun k + p.periodNanos := by
  rw [tickAt, Nat.succ_mul, ← Nat.add_assoc, tickAt]

/-- How often a run ticks. -/
def ticksIn (p : WalkProfile) (run : Span) : Nat :=
  let length := run.ended - run.begun
  if length < p.warmupNanos then 0 else (length - p.warmupNanos) / p.periodNanos + 1

/-- How often some runs tick together. -/
def ticksOf (p : WalkProfile) (runs : List Span) : Nat := (runs.map p.ticksIn).sum

/-- No run ends at an instant at which it ticks. -/
def Apart (p : WalkProfile) (runs : List Span) : Prop :=
  ∀ run ∈ runs, ∀ k, p.tickAt run.begun k ≠ run.ended

/-- A time between two of the instants that follow each other at a distance is after so many. -/
theorem eq_count_of_between {begun ended warmup period m : Nat} (hlasts : begun ≤ ended)
    (hbefore : ∀ k < m, begun + warmup + k * period ≤ ended)
    (hafter : ended < begun + warmup + m * period) :
    m = if ended - begun < warmup then 0 else (ended - begun - warmup) / period + 1 := by
  cases m with
  | zero => rw [if_pos (by omega)]
  | succ m =>
    have hlast := hbefore m (Nat.lt_succ_self m)
    rw [if_neg (by omega), Nat.add_left_inj, eq_comm]
    exact Nat.div_eq_of_lt_le (by omega) (by omega)

/-- A run that does not end at a tick has had the ticks up to its end. -/
theorem eq_ticksIn (hlasts : run.begun ≤ run.ended)
    (hbefore : ∀ k < m, p.tickAt run.begun k ≤ run.ended)
    (hafter : run.ended ≤ p.tickAt run.begun m)
    (hapart : ∀ k, p.tickAt run.begun k ≠ run.ended) : m = p.ticksIn run :=
  eq_count_of_between hlasts hbefore (Nat.lt_of_le_of_ne hafter (hapart m).symm)

end WalkProfile

namespace WalkingFeed

/-- A feed becomes another one as time passes from an instant on: it is controlled by calls, from
where tasks can run in the background, and its tasks tick when they are due. Time does not pass
beyond an instant at which a task is due. What is due at the instant of a call may be done before
or after it. -/
inductive Lives (first : WalkingFeed) (since : Instant) : Controls → Instant → WalkingFeed → Prop
  | refl : Lives first since [] since first
  | start {calls : Controls} {now : Instant} {f : WalkingFeed} : Lives first since calls now f →
    Lives first since ((now, .start) :: calls) now (f.start now)
  | stop {calls : Controls} {now : Instant} {f : WalkingFeed} : Lives first since calls now f →
    Lives first since ((now, .stop) :: calls) now f.stop
  | tick {calls : Controls} {now : Instant} {f : WalkingFeed} (i : Nat) :
    Lives first since calls now f → f.isDue now i = true →
    Lives first since calls now (f.tick now i).1
  | wait {calls : Controls} {now : Instant} {f : WalkingFeed} (nanos : Nat) :
    Lives first since calls now f → (∀ t, PriceFeed.wakesAt f = some t → now + nanos ≤ t) →
    Lives first since calls (now + nanos) f

variable {p : WalkProfile} {draws : Draws} {first f : WalkingFeed} {since now : Instant}
  {calls : Controls}

namespace Lives

theorem wake (h : first.Lives since calls now f) : first.Lives since calls now (f.wake now).1 :=
  wake_invariant (P := first.Lives since calls now) (fun _ i hlives hdue => hlives.tick i hdue) h

theorem wakeFeed (h : first.Lives since calls now f) :
    first.Lives since calls now (ExchangeRates.wakeFeed now f).1 := by
  obtain hwoken | ⟨hquiet, -⟩ := wakeFeed_cases now f
  · rw [hwoken]
    exact h.wake
  · rw [hquiet]
    exact h

/-- To leave a feed alone is to let it live. -/
theorem leftAlone (h : first.Lives since calls now f) (nanos : Nat) :
    first.Lives since calls (now + nanos) (ExchangeRates.leftAlone now f nanos) := by
  induction nanos with
  | zero => exact h.wakeFeed
  | succ n ih => exact (ih.wait 1 fun _ => lt_of_wakesAt_leftAlone).wakeFeed

/-- The clock lets a feed live. -/
theorem passTime (h : first.Lives since calls now f) {limit : Instant} (hlimit : now < limit) :
    ∃ g, (ExchangeRates.passTime now limit [f] []).1 = [g] ∧ first.Lives since calls limit g := by
  obtain ⟨n, rfl⟩ := Nat.exists_eq_add_of_lt hlimit
  rw [passTime_eq hlimit, Nat.add_right_comm, Nat.add_sub_cancel_left]
  refine ⟨_, rfl, ?_⟩
  rw [Nat.add_right_comm]
  exact (h.leftAlone n).wait 1 fun _ => lt_of_wakesAt_leftAlone

/-- A start from where tasks cannot run in the background is no call that controls a feed. -/
theorem startIn (h : first.Lives since calls now f) (runtime : Bool) :
    first.Lives since (if runtime then (now, .start) :: calls else calls) now
      (f.startIn runtime now).1 := by
  cases runtime with
  | true => exact h.start
  | false => exact h

theorem profile_eq (h : first.Lives since calls now f) : f.profile = first.profile := by
  induction h with
  | refl => rfl
  | start _ ih => exact (profile_start _ _).trans ih
  | stop _ ih => exact (profile_stop _).trans ih
  | tick i _ _ ih => exact (profile_tick _ i _).trans ih
  | wait _ _ _ ih => exact ih

/-- Ticks are never taken back. -/
theorem ticks_le (h : first.Lives since calls now f) : first.ticks ≤ f.ticks := by
  induction h with
  | refl => exact Nat.le_refl _
  | @start _ now f _ ih =>
    obtain ⟨_, _, heq⟩ := start_frame now f
    rw [heq]
    exact ih
  | @stop _ _ f _ ih =>
    obtain ⟨_, _, heq⟩ := f.stop_frame
    rw [heq]
    exact ih
  | tick i _ _ ih => exact Nat.le_trans ih (ticks_tick_le _ i _)
  | wait _ _ _ ih => exact ih

/-- A feed is ready from its first tick on. -/
theorem ready_iff (h : first.Lives since calls now f)
    (hfirst : first.ready = true ↔ 0 < first.ticks) : f.ready = true ↔ 0 < f.ticks := by
  induction h with
  | refl => exact hfirst
  | @start _ now f _ ih =>
    obtain ⟨_, _, heq⟩ := start_frame now f
    rw [heq]
    exact ih
  | @stop _ _ f _ ih =>
    obtain ⟨_, _, heq⟩ := f.stop_frame
    rw [heq]
    exact ih
  | tick i _ _ ih => exact ready_tick ih _ i
  | wait _ _ _ ih => exact ih

end Lives

section

variable {t : Instant}

/-- A task that is due makes the feed ready, if it does not break down. -/
theorem ready_wake (hbreaks : f.profile.NeverBreaks) (hdue : PriceFeed.wakesAt f = some t)
    (hle : t ≤ now) : (f.wake now).1.ready = true := by
  have hticks : (f.wake now).1 = f ∨ (f.wake now).1.ready = true := by
    refine wake_invariant (P := fun g => g = f ∨ g.ready = true) (fun g i hg _ => ?_) (.inl rfl)
    obtain rfl | hready := hg
    · rw [tick_of_neverBreaks hbreaks]
      exact .inr rfl
    · exact .inr (ready_tick_of_ready hready now i)
  -- if none had ticked, the feed would still be due
  refine hticks.resolve_left fun hsame => ?_
  have hlater : now < t := by
    apply lt_of_wakesAt_wake (f := f)
    rw [hsame]
    exact hdue
  exact Nat.not_le_of_gt hlater hle

theorem ready_wakeFeed (hbreaks : f.profile.NeverBreaks) (hdue : PriceFeed.wakesAt f = some t)
    (hle : t ≤ now) : (wakeFeed now f).1.ready = true := by
  obtain hwoken | ⟨-, hquiet⟩ := wakeFeed_cases now f
  · rw [hwoken]
    exact ready_wake hbreaks hdue hle
  · exact absurd hle (Nat.not_le_of_gt (hquiet t hdue))

theorem ready_wakeFeed_of_ready (h : f.ready = true) (now : Instant) :
    (wakeFeed now f).1.ready = true := by
  obtain hwoken | ⟨hquiet, -⟩ := wakeFeed_cases now f
  · rw [hwoken]
    exact wake_invariant (P := fun g => g.ready = true)
      (fun _ i hready _ => ready_tick_of_ready hready now i) h
  · rw [hquiet]
    exact h

theorem ready_leftAlone_of_ready (h : f.ready = true) (now : Instant) (nanos : Nat) :
    (leftAlone now f nanos).ready = true := by
  induction nanos with
  | zero => exact ready_wakeFeed_of_ready h now
  | succ n ih => exact ready_wakeFeed_of_ready ih _

theorem ready_leftAlone (hbreaks : f.profile.NeverBreaks) (hdue : PriceFeed.wakesAt f = some t)
    {nanos : Nat} (hle : t ≤ now + nanos) : (leftAlone now f nanos).ready = true := by
  induction nanos with
  | zero => exact ready_wakeFeed hbreaks hdue hle
  | succ n ih =>
    obtain hearlier | hquiet := Nat.lt_or_ge (now + n) t
    · have hsame : leftAlone now f n = f := leftAlone_of_quiet fun due hwakes => by
        obtain rfl := Option.some.inj (hdue.symm.trans hwakes)
        exact hearlier
      rw [leftAlone, hsame]
      exact ready_wakeFeed hbreaks hdue hle
    · exact ready_wakeFeed_of_ready (ih hquiet) _

/-- When a feed that is left alone becomes ready: now, if it has been before, and otherwise at its
next tick. -/
def readyFrom (now : Instant) (f : WalkingFeed) : Option Instant :=
  if f.ready then some now else f.wakesAt

theorem becomesReady (hbreaks : f.profile.NeverBreaks)
    (hnext : ∀ t, PriceFeed.wakesAt f = some t → now ≤ t) :
    BecomesReady now f (f.readyFrom now) := by
  unfold readyFrom
  split
  · next hready =>
    refine ⟨fun _ => ⟨now, rfl, Nat.le_refl _⟩, fun _ _ _ => hready, fun nanos => ?_⟩
    exact iff_of_true (ready_leftAlone_of_ready hready now nanos) ⟨now, rfl, Nat.le_add_right ..⟩
  · next hnot =>
    refine ⟨fun hready => absurd hready hnot, fun r hr hbefore => ?_, fun nanos => ⟨?_, ?_⟩⟩
    · exact absurd hbefore (Nat.not_lt_of_ge (hnext r hr))
    · intro hready
      by_contra hnone
      refine hnot ?_
      rw [leftAlone_of_quiet] at hready
      · exact hready
      · exact fun t ht => Nat.lt_of_not_le fun hle => hnone ⟨t, ht, hle⟩
    · rintro ⟨t, ht, hle⟩
      exact ready_leftAlone hbreaks ht hle

end

/-- How a feed stands after some calls. While it runs, it has had the ticks of the current run up to
now, and ticks next when the run does. The ticks of a run that ended exactly at one of them are not
known. -/
inductive Stands (p : WalkProfile) : Controls → Instant → WalkingFeed → Prop
  | new {now : Instant} {f : WalkingFeed} : f.Idle → f.ticks = 0 → Stands p [] now f
  | stopped {ended now : Instant} {earlier : Controls} {f : WalkingFeed} : f.Idle →
    (p.Apart (runsOf earlier ended) → f.ticks = p.ticksOf (runsOf earlier ended)) →
    Stands p ((ended, .stop) :: earlier) now f
  | running {begun now : Instant} {earlier : Controls} {f : WalkingFeed} (m : Nat) :
    begun ≤ now → (∀ k < m, p.tickAt begun k ≤ now) → now ≤ p.tickAt begun m →
    f.Runs (some (p.tickAt begun m)) →
    (p.Apart (runsOf earlier begun) → f.ticks = p.ticksOf (runsOf earlier begun) + m) →
    Stands p ((begun, .start) :: earlier) now f

namespace Stands

theorem oneTask (h : Stands p calls now f) : f.OneTask := by
  cases h with
  | new hidle _ => exact .inl hidle
  | stopped hidle _ => exact .inl hidle
  | running _ _ _ _ hruns _ => exact .inr ⟨_, hruns⟩

theorem started_iff (h : Stands p calls now f) :
    f.started = true ↔ ∃ begun earlier, calls = (begun, .start) :: earlier := by
  cases h with
  | new hidle _ => simp [hidle.started]
  | stopped hidle _ => simp [hidle.started]
  | running _ _ _ _ hruns _ => simp [hruns.started]

theorem le_of_wakesAt (h : Stands p calls now f) {t : Instant}
    (ht : PriceFeed.wakesAt f = some t) : now ≤ t := by
  cases h with
  | new hidle _ => cases hidle.wakesAt_eq.symm.trans ht
  | stopped hidle _ => cases hidle.wakesAt_eq.symm.trans ht
  | running _ _ _ hnext hruns _ =>
    obtain rfl := Option.some.inj (hruns.wakesAt_eq.symm.trans ht)
    exact hnext

/-- The ticks are those of all runs, unless a run ended exactly at one of them. -/
theorem ticks_eq (h : Stands p calls now f) (hapart : p.Apart (runsOf calls now)) :
    f.ticks = p.ticksOf (runsOf calls now) := by
  cases h with
  | new _ hticks => exact hticks
  | stopped _ hticks => exact hticks hapart
  | running m hlasts hbefore hafter _ hticks =>
    obtain ⟨hlast, hearlier⟩ := List.forall_mem_cons.mp hapart
    rw [hticks hearlier, p.eq_ticksIn hlasts hbefore hafter hlast, Nat.add_comm]
    rfl

theorem start (hprofile : f.profile = p) (h : Stands p calls now f) :
    Stands p ((now, .start) :: calls) now (f.start now) := by
  have hfirst : p.tickAt now 0 = now + f.warmup.nanos := by
    rw [p.tickAt_zero, ← hprofile]
    rfl
  refine .running 0 (Nat.le_refl _) (fun _ hk => absurd hk (Nat.not_lt_zero _)) ?_ ?_
    fun hapart => ?_
  · rw [hfirst]
    exact Nat.le_add_right ..
  · rw [hfirst]
    exact h.oneTask.runs_start now
  · obtain ⟨_, _, heq⟩ := start_frame now f
    rw [heq]
    exact h.ticks_eq hapart

theorem stop (h : Stands p calls now f) : Stands p ((now, .stop) :: calls) now f.stop := by
  obtain ⟨_, _, heq⟩ := f.stop_frame
  refine .stopped h.oneTask.idle_stop fun hapart => ?_
  rw [heq]
  exact h.ticks_eq hapart

theorem tick (hprofile : f.profile = p) (hbreaks : p.NeverBreaks) (h : Stands p calls now f)
    {i : Nat} (hdue : f.isDue now i = true) : Stands p calls now (f.tick now i).1 := by
  cases h with
  | new hidle _ => cases (hidle.isDue_eq now i).symm.trans hdue
  | stopped hidle _ => cases (hidle.isDue_eq now i).symm.trans hdue
  | @running begun _ _ _ m hlasts hbefore hafter hruns hticks =>
    obtain ⟨-, t, ht, hle⟩ := hruns.task_of_isDue hdue
    obtain rfl := Option.some.inj ht
    -- time has not passed beyond the tick, so it is exactly on time
    obtain rfl : now = p.tickAt begun m := Nat.le_antisymm hafter hle
    obtain ⟨later, hlater, hpause⟩ := hruns.tick hdue
    rw [hpause (hprofile ▸ hbreaks)] at hlater
    have hnext : p.tickAt begun (m + 1) = p.tickAt begun m + f.period.nanos := by
      rw [p.tickAt_succ, ← hprofile]
      rfl
    refine .running (m + 1) hlasts (fun k hk => ?_) ?_ ?_ fun hapart => ?_
    · obtain hearlier | rfl := Nat.lt_succ_iff_lt_or_eq.mp hk
      · exact hbefore k hearlier
      · exact Nat.le_refl _
    · rw [hnext]
      exact Nat.le_add_right ..
    · rw [hnext]
      exact hlater
    · rw [ticks_tick (hprofile ▸ hbreaks), hticks hapart, Nat.add_assoc]

theorem wait (h : Stands p calls now f) {nanos : Nat}
    (hquiet : ∀ t, PriceFeed.wakesAt f = some t → now + nanos ≤ t) :
    Stands p calls (now + nanos) f := by
  cases h with
  | new hidle hticks => exact .new hidle hticks
  | stopped hidle hticks => exact .stopped hidle hticks
  | running m hlasts hbefore hafter hruns hticks =>
    have hlater := Nat.le_add_right now nanos
    exact .running m (Nat.le_trans hlasts hlater) (fun k hk => Nat.le_trans (hbefore k hk) hlater)
      (hquiet _ hruns.wakesAt_eq) hruns hticks

end Stands

theorem stands_of_lives (hbreaks : p.NeverBreaks) (h : (new p draws).Lives since calls now f) :
    Stands p calls now f := by
  induction h with
  | refl => exact .new (idle_new p draws) rfl
  | start hlives ih => exact ih.start hlives.profile_eq
  | stop _ ih => exact ih.stop
  | tick i hlives hdue ih => exact ih.tick hlives.profile_eq hbreaks hdue
  | wait nanos _ hquiet ih => exact ih.wait hquiet

/-- A request for the prices of a feed fails. -/
def Fails (f : WalkingFeed) : Prop := ∃ error, (PriceFeed.fetch f).2 = .ok (.error error)

theorem fails_iff (f : WalkingFeed) :
    f.Fails ↔ ∃ limit, f.profile.failAfter = some limit ∧ limit ≤ f.ticks := by
  have hanswer : f.Fails ↔ f.hasFailed = true := by
    simp only [Fails, PriceFeed.fetch, answer]
    split
    · next h => exact iff_of_true ⟨_, rfl⟩ h
    · next h =>
      refine iff_of_false ?_ h
      rintro ⟨error, heq⟩
      cases heq
  rw [hanswer, hasFailed, Option.any_eq_true]
  simp only [decide_eq_true_eq]

/-- What is known of a feed after some calls. -/
structure Accounted (p : WalkProfile) (calls : Controls) (now : Instant) (f : WalkingFeed) :
    Prop where
  /-- The ticks are those of all runs: none is lost, doubled or taken back. -/
  ticks : p.Apart (runsOf calls now) → f.ticks = p.ticksOf (runsOf calls now)
  /-- One task goes on if the feed is started, and otherwise none. -/
  alive : f.alive = if f.started then 1 else 0
  started : f.started = true ↔ ∃ begun earlier, calls = (begun, .start) :: earlier
  ready : PriceFeed.ready f = true ↔ 0 < f.ticks
  /-- A wait for the feed ends at its first tick, and at once from then on. -/
  becomesReady : BecomesReady now f (f.readyFrom now)
  fails : f.Fails ↔ ∃ limit, p.failAfter = some limit ∧ limit ≤ f.ticks

/-- At any time of its life a feed whose ticks do not break down has counted the ticks of all its
runs, and only the task of the latest start goes on. It is ready from its first tick on and fails
from the last that it is allowed, both for good. -/
theorem ticks_of_lives (hbreaks : p.NeverBreaks) (h : (new p draws).Lives since calls now f) :
    Accounted p calls now f ∧
    (∀ more later g, f.Lives now more later g → f.ticks ≤ g.ticks ∧
      (PriceFeed.ready f = true → PriceFeed.ready g = true) ∧ (f.Fails → g.Fails)) ∧
    ∀ limit, now < limit → ∃ g, (passTime now limit [f] []).1 = [g] ∧
      (new p draws).Lives since calls limit g := by
  have hstands := stands_of_lives hbreaks h
  have hready : f.ready = true ↔ 0 < f.ticks := h.ready_iff (by simp [new])
  refine ⟨⟨hstands.ticks_eq, hstands.oneTask.alive_eq, hstands.started_iff, hready, ?_, ?_⟩,
    fun more later g hmore => ⟨hmore.ticks_le, ?_, ?_⟩, fun limit hlimit => h.passTime hlimit⟩
  · exact becomesReady (h.profile_eq ▸ hbreaks) fun t => hstands.le_of_wakesAt
  · rw [fails_iff, h.profile_eq]
    rfl
  · intro hfirst
    exact (hmore.ready_iff hready).mpr (Nat.lt_of_lt_of_le (hready.mp hfirst) hmore.ticks_le)
  · rw [fails_iff, fails_iff, hmore.profile_eq]
    rintro ⟨limit, hlimit, hle⟩
    exact ⟨limit, hlimit, Nat.le_trans hle hmore.ticks_le⟩

/-- A feed that warms up for 200 milliseconds, ticks every second, and fails after two ticks. -/
def briefProfile : WalkProfile :=
  { WalkProfile.new "brief" (.ofList [("BTC", 1.0)]) with
    volatility := 0.0, warmup := 200, failAfter := some 2 }

/-- The feed is restarted in its warm-up, ticks twice, is stopped twice, and warms up again. -/
def briefCalls : Controls :=
  [(1500000000, .start), (1450000000, .stop), (1400000000, .stop), (100000000, .start), (0, .start)]

/-- Time passes up to where a task is due at the latest. -/
theorem Lives.pass (h : first.Lives since calls now f) (millis : Nat)
    (hquiet : (PriceFeed.wakesAt f).all (now + (Duration.ofMillis millis).nanos ≤ ·) = true) :
    first.Lives since calls (now + (Duration.ofMillis millis).nanos) f := by
  refine h.wait _ fun t ht => ?_
  rw [ht, Option.all_some, decide_eq_true_eq] at hquiet
  exact hquiet

theorem exists_lives_brief :
    ∃ f, (new briefProfile (.ofSeed 7)).Lives 0 briefCalls 1650000000 f ∧ f.started = true := by
  have hnew : (new briefProfile (.ofSeed 7)).Lives 0 [] 0 _ := .refl
  have hrestarted := (hnew.start.pass 100 rfl).start
  have hticked := ((hrestarted.pass 200 rfl).tick 1 rfl |>.pass 1000 rfl).tick 1 rfl
  have hstopped := ((hticked.pass 100 rfl).stop.pass 50 rfl).stop
  exact ⟨_, (hstopped.pass 50 rfl).start.pass 150 rfl, rfl⟩

theorem apart_briefCalls : briefProfile.Apart (runsOf briefCalls 1650000000) := by
  simp only [briefCalls, runsOf, WalkProfile.Apart, List.forall_mem_cons]
  refine ⟨fun k hlast => ?_, fun k hlong => ?_, fun k hfirst => ?_, List.forall_mem_nil _⟩
  · have htick : 1500000000 + 200000000 + k * 1000000000 = 1650000000 := hlast
    omega
  · have htick : 100000000 + 200000000 + k * 1000000000 = 1400000000 := hlong
    omega
  · have htick : 0 + 200000000 + k * 1000000000 = 100000000 := hfirst
    omega

/-- Of three runs only the second is long enough for ticks. It has two, after which the feed fails.
-/
theorem ticks_of_briefProfile : ∃ f,
    (new briefProfile (.ofSeed 7)).Lives 0 briefCalls 1650000000 f ∧ briefProfile.NeverBreaks ∧
    briefProfile.Apart (runsOf briefCalls 1650000000) ∧ f.ticks = 2 ∧ f.alive = 1 ∧
    PriceFeed.ready f = true ∧ f.Fails := by
  obtain ⟨f, hlives, hstarted⟩ := exists_lives_brief
  have hbreaks : briefProfile.NeverBreaks := .inl (by decide)
  obtain ⟨haccounted, -⟩ := ticks_of_lives hbreaks hlives
  have hticks : f.ticks = 2 := haccounted.ticks apart_briefCalls
  refine ⟨f, hlives, hbreaks, apart_briefCalls, hticks, ?_, ?_, ?_⟩
  · rw [haccounted.alive, hstarted, if_pos rfl]
  · rw [haccounted.ready, hticks]
    exact Nat.two_pos
  · rw [haccounted.fails, hticks]
    exact ⟨2, rfl, Nat.le_refl 2⟩

end WalkingFeed

end ExchangeRates

import ExchangeRates.Proofs.Duration
import ExchangeRates.Proofs.Except
import ExchangeRates.Settings

namespace ExchangeRates.Settings

/-- A variable gives a number of seconds: it reads as a finite number that is not negative. -/
structure Gives (env : Environment) (name : String) (x : Float) : Prop where
  reads : (env.text? name).bind Decimal.readFloat = some x
  finite : x.isFinite = true
  nonneg : 0.0 ≤ x

/-- A variable gives no time at all: it reads as a number of seconds that is at most half a
nanosecond. -/
def GivesNoTime (env : Environment) (name : String) : Prop :=
  ∃ x, (env.text? name).bind Decimal.readFloat = some x ∧ (x.isFinite && 0.0 ≤ x) = true ∧
    Duration.AtMostHalfNano x

/-- The settings in an environment have no defect. -/
structure PassesCheck (env : Environment) : Prop where
  interval : ¬ GivesNoTime env "FX_UPDATE_INTERVAL_SECS"
  gateTimeout : ¬ GivesNoTime env "FX_FEED_READY_TIMEOUT_SECS"
  defaultFeed : env.text? "FX_DEFAULT_FEED_NAME" ≠ some ""

theorem defect?_eq_none_iff {s : Settings} : s.defect? = none ↔
    0 < s.interval.nanos ∧ 0 < s.gateTimeout.nanos ∧ s.defaultFeed ≠ "" := by
  have hzero (d : Duration) : 0 < d.nanos ↔ d.isZero = false := by
    simp [Duration.isZero, Nat.pos_iff_ne_zero]
  have hempty : s.defaultFeed ≠ "" ↔ s.defaultFeed.isEmpty = false := by
    rw [← Bool.not_eq_true, String.isEmpty_iff]
  rw [hzero, hzero, hempty, defect?]
  cases s.interval.isZero <;> cases s.gateTimeout.isZero <;> cases s.defaultFeed.isEmpty <;>
    simp

section

variable {env : Environment} {name : String} {earlier d : Duration} {x : Float}

theorem Gives.unique {y : Float} (hx : Gives env name x) (hy : Gives env name y) : x = y :=
  Option.some.inj (hx.reads.symm.trans hy.reads)

theorem givesNoTime_iff (h : Gives env name x) :
    GivesNoTime env name ↔ Duration.AtMostHalfNano x := by
  simp [GivesNoTime, h.reads, h.finite, h.nonneg]

theorem GivesNoTime.exists_gives (h : GivesNoTime env name) : ∃ x, Gives env name x := by
  obtain ⟨x, hreads, hnumber, -⟩ := h
  rw [Bool.and_eq_true, decide_eq_true_iff] at hnumber
  exact ⟨x, hreads, hnumber.1, hnumber.2⟩

theorem readDuration_of_gives (h : Gives env name x) :
    readDuration env name earlier = (Duration.ofFloat x).mapError .noDuration := by
  have hnumber : (x.isFinite && decide (0.0 ≤ x)) = true := by simp [h.finite, h.nonneg]
  simp only [readDuration, h.reads]
  rw [if_pos hnumber]

theorem readDuration_of_not_gives (h : ∀ x, ¬ Gives env name x) :
    readDuration env name earlier = .ok earlier := by
  unfold readDuration
  split
  · next x hreads =>
    rw [if_neg]
    intro hnumber
    rw [Bool.and_eq_true, decide_eq_true_iff] at hnumber
    exact h x ⟨hreads, hnumber.1, hnumber.2⟩
  · rfl

/-- A duration that is read is no time exactly if its variable gives none. -/
theorem readDuration_pos_iff (h : readDuration env name earlier = .ok d)
    (hearlier : 0 < earlier.nanos) : 0 < d.nanos ↔ ¬ GivesNoTime env name := by
  by_cases hgives : ∃ x, Gives env name x
  · obtain ⟨x, hx⟩ := hgives
    rw [readDuration_of_gives hx, mapError_eq_ok_iff, Duration.ofFloat_eq_ok_iff] at h
    rw [givesNoTime_iff hx, ← Duration.nearestNanos_eq_zero_iff, h.2, Nat.pos_iff_ne_zero]
  · rw [readDuration_of_not_gives fun x hx => hgives ⟨x, hx⟩] at h
    obtain rfl := Except.ok.inj h
    exact iff_of_true hearlier fun hnone => hgives hnone.exists_gives

end

theorem ofEnvironment_eq_ok_iff {env : Environment} {settings : Settings} :
    ofEnvironment env = .ok settings ↔
      readDuration env "FX_UPDATE_INTERVAL_SECS" default.interval = .ok settings.interval ∧
      readDuration env "FX_FEED_READY_TIMEOUT_SECS" default.gateTimeout =
        .ok settings.gateTimeout ∧
      settings.defaultFeed = (env.text? "FX_DEFAULT_FEED_NAME").getD default.defaultFeed := by
  unfold ofEnvironment
  simp only [bind_eq_ok_iff]
  constructor
  · rintro ⟨interval, hinterval, gateTimeout, htimeout, hsettings⟩
    obtain rfl := Except.ok.inj hsettings
    exact ⟨hinterval, htimeout, rfl⟩
  · rintro ⟨hinterval, htimeout, hname⟩
    refine ⟨_, hinterval, _, htimeout, ?_⟩
    rw [← hname]
    rfl

/-- The settings of an environment pass their check exactly if no variable gives no time or an empty
name; their interval alone does not depend on the other variables. -/
theorem passesCheck_iff {env : Environment} {settings : Settings}
    (h : ofEnvironment env = .ok settings) : (settings.defect? = none ↔ PassesCheck env) ∧
      (0 < settings.interval.nanos ↔ ¬ GivesNoTime env "FX_UPDATE_INTERVAL_SECS") := by
  obtain ⟨hinterval, htimeout, hname⟩ := ofEnvironment_eq_ok_iff.mp h
  have hseconds := readDuration_pos_iff hinterval (by decide)
  refine ⟨?_, hseconds⟩
  have hdefault : settings.defaultFeed ≠ "" ↔ env.text? "FX_DEFAULT_FEED_NAME" ≠ some "" := by
    rw [hname]
    cases env.text? "FX_DEFAULT_FEED_NAME" with
    | none => simp [default]
    | some name => simp
  rw [defect?_eq_none_iff, hseconds, readDuration_pos_iff htimeout (by decide), hdefault]
  exact ⟨fun ⟨h₁, h₂, h₃⟩ => ⟨h₁, h₂, h₃⟩, fun ⟨h₁, h₂, h₃⟩ => ⟨h₁, h₂, h₃⟩⟩

end ExchangeRates.Settings

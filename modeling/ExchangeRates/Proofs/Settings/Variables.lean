import ExchangeRates.CommandLine.Program
import ExchangeRates.Proofs.Settings

namespace ExchangeRates.Settings

/-- A variable gives more seconds than a duration holds. -/
def Overflows (env : Environment) (name : String) : Prop :=
  ∃ x, Gives env name x ∧ Decimal.AtLeastTwoPow 64 x

/-- A duration is the one that an option would give for the number of a variable, or an earlier one
if the variable gives none. -/
structure FromVariable (env : Environment) (name : String) (earlier d : Duration) : Prop where
  given : ∀ x, Gives env name x → ∀ option, Program.durationOf option x = .ok d
  missing : (∀ x, ¬ Gives env name x) → d = earlier

/-- Every setting is that of its own variable. -/
structure FromVariables (env : Environment) (settings : Settings) : Prop where
  interval : FromVariable env "FX_UPDATE_INTERVAL_SECS" default.interval settings.interval
  gateTimeout :
    FromVariable env "FX_FEED_READY_TIMEOUT_SECS" default.gateTimeout settings.gateTimeout
  defaultFeed : settings.defaultFeed = (env.text? "FX_DEFAULT_FEED_NAME").getD default.defaultFeed

section

variable {env : Environment} {name : String} {earlier d : Duration} {x : Float}

theorem Gives.fits_iff (h : Gives env name x) :
    Duration.Fits x ↔ ¬ Decimal.AtLeastTwoPow 64 x :=
  Duration.fits_iff h.finite h.nonneg

theorem readDuration_eq_ok_iff :
    readDuration env name earlier = .ok d ↔ FromVariable env name earlier d := by
  by_cases hgives : ∃ x, Gives env name x
  · obtain ⟨x, hx⟩ := hgives
    have hfrom : FromVariable env name earlier d ↔
        ∀ option, Program.durationOf option x = .ok d := by
      refine ⟨fun h => h.given x hx, fun h => ⟨?_, fun hnone => absurd hx (hnone x)⟩⟩
      intro y hy
      rwa [← hx.unique hy]
    rw [hfrom, readDuration_of_gives hx]
    simp only [Program.durationOf, mapError_eq_ok_iff]
    exact ⟨fun h _ => h, fun h => h .interval⟩
  · have hnone : ∀ x, ¬ Gives env name x := fun x hx => hgives ⟨x, hx⟩
    rw [readDuration_of_not_gives hnone, Except.ok.injEq]
    exact ⟨fun h => ⟨fun x hx => absurd hx (hnone x), fun _ => h.symm⟩,
      fun h => (h.missing hnone).symm⟩

theorem readDuration_eq_error_iff {fault : Fault} :
    readDuration env name earlier = .error fault ↔
      fault = .noDuration .tooBigOrNaN ∧ Overflows env name := by
  by_cases hgives : ∃ x, Gives env name x
  · obtain ⟨x, hx⟩ := hgives
    have hoverflows : Overflows env name ↔ Decimal.AtLeastTwoPow 64 x := by
      refine ⟨?_, fun hbig => ⟨x, hx, hbig⟩⟩
      rintro ⟨y, hy, hbig⟩
      rwa [hx.unique hy]
    rw [hoverflows, readDuration_of_gives hx, mapError_eq_error_iff]
    by_cases hbig : Decimal.AtLeastTwoPow 64 x
    · simp [Duration.ofFloat_of_atLeastTwoPow hx.finite hx.nonneg hbig, hbig]
    · simp [Duration.ofFloat_of_fits (hx.fits_iff.mpr hbig), hbig]
  · rw [readDuration_of_not_gives fun x hx => hgives ⟨x, hx⟩]
    exact iff_of_false (by simp) fun ⟨_, x, hx, _⟩ => hgives ⟨x, hx⟩

end

/-- Every setting is read from its own variable, and reading them is a fault exactly if a number of
seconds is too big for a duration. -/
theorem ofEnvironment_fromVariables (env : Environment) :
    (∀ settings, ofEnvironment env = .ok settings ↔ FromVariables env settings) ∧
      ∀ fault, ofEnvironment env = .error fault ↔
        fault = .noDuration .tooBigOrNaN ∧
          (Overflows env "FX_UPDATE_INTERVAL_SECS" ∨
            Overflows env "FX_FEED_READY_TIMEOUT_SECS") := by
  constructor
  · intro settings
    rw [ofEnvironment_eq_ok_iff, readDuration_eq_ok_iff, readDuration_eq_ok_iff]
    exact ⟨fun ⟨h₁, h₂, h₃⟩ => ⟨h₁, h₂, h₃⟩, fun ⟨h₁, h₂, h₃⟩ => ⟨h₁, h₂, h₃⟩⟩
  · intro fault
    unfold ofEnvironment
    simp only [bind_eq_error_iff, readDuration_eq_error_iff, pure_ne_error, and_false,
      exists_false, or_false]
    constructor
    · rintro (⟨rfl, hinterval⟩ | ⟨_, _, rfl, htimeout⟩)
      · exact ⟨rfl, .inl hinterval⟩
      · exact ⟨rfl, .inr htimeout⟩
    · rintro ⟨rfl, hoverflows⟩
      -- The interval is read first, and hides a fault of the other variable.
      cases hinterval : readDuration env "FX_UPDATE_INTERVAL_SECS" default.interval with
      | error cause => exact .inl ⟨rfl, (readDuration_eq_error_iff.mp hinterval).2⟩
      | ok interval =>
        refine .inr ⟨interval, rfl, rfl, hoverflows.resolve_left ?_⟩
        intro htooMany
        exact nomatch hinterval.symm.trans (readDuration_eq_error_iff.mpr ⟨rfl, htooMany⟩)

/-- One variable gives half a second and another no number of seconds. -/
def halfGiven : Environment :=
  .ofList [("FX_UPDATE_INTERVAL_SECS", "5e-1".toUTF8), ("FX_FEED_READY_TIMEOUT_SECS", "-1".toUTF8)]

/-- A negative number of seconds leaves the default, and one that no duration holds is a fault. -/
theorem ofEnvironment_halfGiven :
    ofEnvironment halfGiven = .ok { default with interval := .ofMillis 500 } ∧
      ofEnvironment (.ofList [("FX_FEED_READY_TIMEOUT_SECS", "18446744073709551616".toUTF8)]) =
        .error (.noDuration .tooBigOrNaN) := by
  constructor
  · refine ((ofEnvironment_fromVariables halfGiven).1 _).mpr ⟨⟨?_, ?_⟩, ⟨?_, fun _ => rfl⟩, rfl⟩
    · intro x hx option
      obtain rfl : 0.5 = x := Option.some.inj hx.reads
      exact mapError_eq_ok_iff.mpr
        (Duration.ofFloat_eq_ok_iff.mpr ⟨⟨by decide, by decide⟩, by decide +kernel⟩)
    · intro hnone
      exact absurd ⟨rfl, by decide, by decide⟩ (hnone 0.5)
    · intro x hx
      obtain rfl : -1.0 = x := Option.some.inj hx.reads
      exact absurd hx.nonneg (by decide)
  · exact ((ofEnvironment_fromVariables _).2 _).mpr
      ⟨rfl, .inr ⟨18446744073709551616.0, ⟨rfl, by decide, by decide⟩, by decide⟩⟩

/-- An update interval of more seconds than a duration holds. -/
def hugeInterval : Environment := .ofList [("FX_UPDATE_INTERVAL_SECS", "1e20".toUTF8)]

/-- An interval may be finite and not negative, and a fault all the same. -/
theorem not_forall_ofEnvironment_eq_ok :
    ¬ ∀ env, ∃ settings, ofEnvironment env = .ok settings := by
  intro h
  obtain ⟨settings, hsettings⟩ := h hugeInterval
  exact nomatch hsettings

end ExchangeRates.Settings

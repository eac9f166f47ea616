import ExchangeRates.Proofs.Engine.Query
import ExchangeRates.Proofs.Engine.Timeline

namespace ExchangeRates.Engine

variable {φ : Type}

/-- The engine with another log. -/
def withLog (e : Engine φ) (log : Array LogEvent) : Engine φ := { e with log }

/-- The engine, but for its log. -/
def silent (e : Engine φ) : Engine φ := e.withLog #[]

section

variable {e other : Engine φ}

theorem eq_withLog_of_silent (h : other.silent = e.silent) : other = e.withLog other.log := by
  have hlog := congrArg (withLog · other.log) h
  exact hlog

/-- What does not read the log is the same for engines that differ in their logs alone. -/
theorem congr_of_silent {α : Sort*} {f : Engine φ → α}
    (hf : ∀ (s : Engine φ) (log : Array LogEvent), f (s.withLog log) = f s)
    (h : other.silent = e.silent) : f other = f e := by
  rw [eq_withLog_of_silent h, hf]

theorem silent_completeCycle (e : Engine φ) (log : Array LogEvent) (i notifier : Nat)
    (config : RateConfig) (answers : List (String × Answer)) :
    ((e.withLog log).completeCycle i notifier config answers).silent =
      (e.completeCycle i notifier config answers).silent := by
  unfold completeCycle withLog note
  dsimp only
  split <;> rfl

theorem silent_stepWaiter (e : Engine φ) (log : Array LogEvent) (i : Nat) :
    ((e.withLog log).stepWaiter i).map silent = (e.stepWaiter i).map silent := by
  unfold stepWaiter withLog
  dsimp only
  split
  · rfl
  · split <;> rfl
  · rfl

end

variable [PriceFeed φ]

theorem silent_stepFeeds (e : Engine φ) (log : Array LogEvent) :
    (e.withLog log).stepFeeds.map silent = e.stepFeeds.map silent := by
  unfold stepFeeds withLog
  dsimp only
  split <;> rfl

theorem silent_stepTask (e : Engine φ) (log : Array LogEvent) (i : Nat) :
    ((e.withLog log).stepTask i).map silent = (e.stepTask i).map silent := by
  unfold stepTask withLog
  dsimp only
  split
  · rfl
  · split
    · rfl
    · split
      · rfl
      · split <;> rfl
      · unfold stepGate
        dsimp only
        split
        · rfl
        · split <;> rfl
      · unfold stepFetching
        dsimp only
        split
        · rfl
        · rfl
        · rw [Option.map_map, Option.map_map]
          congr 1
          funext answers
          exact silent_completeCycle e log i _ _ answers

theorem silent_step (e : Engine φ) (log : Array LogEvent) :
    (e.withLog log).step.map silent = e.step.map silent := by
  unfold step
  simp only [Option.map_or, List.map_findSome?, Function.comp_def, silent_stepFeeds,
    silent_stepTask, silent_stepWaiter]
  rfl

section

variable {e other : Engine φ} {t : Instant}

theorem silent_stepMany (count : Nat) (h : other.silent = e.silent) :
    (other.stepMany count).silent = (e.stepMany count).silent := by
  induction count generalizing e other with
  | zero => exact h
  | succ count ih =>
    have hstep := silent_step e other.log
    rw [← eq_withLog_of_silent h] at hstep
    unfold stepMany
    cases hnext : e.step with
    | none =>
      rw [hnext, Option.map_none, Option.map_eq_none_iff] at hstep
      rw [hstep]
      exact h
    | some later =>
      rw [hnext, Option.map_some, Option.map_eq_some_iff] at hstep
      obtain ⟨same, hsame, hsilent⟩ := hstep
      rw [hsame]
      exact ih hsilent

theorem silent_settle (h : other.silent = e.silent) : other.settle.silent = e.settle.silent := by
  rw [settle, settle, congr_of_silent (f := work) (fun _ _ => rfl) h]
  exact silent_stepMany _ h

/-- Engines that differ in their logs alone are alike for as long as they are left alone. -/
theorem silent_leftUntil (h : other.silent = e.silent) :
    (other.leftUntil t).silent = (e.leftUntil t).silent := by
  induction hn : t - e.now using Nat.strong_induction_on generalizing e other with
  | _ n ih =>
  have hnow : other.now = e.now := congr_of_silent (fun _ _ => rfl) h
  have hsettled := silent_settle h
  have hdue : other.settle.nextDue? = e.settle.nextDue? :=
    congr_of_silent (fun _ _ => rfl) hsettled
  have hlater (t : Instant) : ({ other.settle with now := t } : Engine φ).silent =
      ({ e.settle with now := t } : Engine φ).silent := by
    rw [eq_withLog_of_silent hsettled]
    rfl
  by_cases hle : t ≤ e.now
  · rw [leftUntil_of_le hle, leftUntil_of_le (hnow ▸ hle)]
    exact h
  have hlt := Nat.lt_of_not_le hle
  obtain ⟨next, hnext, hgoes, hbefore⟩ | hquiet := e.due_or_quiet t
  · rw [leftUntil_of_due hnext hbefore, leftUntil_of_due (hdue.trans hnext) hbefore]
    exact ih (t - next) (hn ▸ Nat.sub_lt_sub_left hlt hgoes) (hlater next) rfl
  · rw [leftUntil_of_quiet hlt hquiet, leftUntil_of_quiet (hnow ▸ hlt) (hdue ▸ hquiet)]
    exact hlater t

theorem silent_stop (h : other.silent = e.silent) : other.stop.silent = e.stop.silent := by
  rw [eq_withLog_of_silent h, stop_eq, stop_eq]
  rfl

theorem askConversion_of_silent (h : other.silent = e.silent) (amount : Float)
    (fromAsset toAsset : String) (source : Option String) :
    (other.askConversion amount fromAsset toAsset source).1 =
      (e.askConversion amount fromAsset toAsset source).1 := by
  rw [askConversion_eq, askConversion_eq, eq_withLog_of_silent h]
  rfl

/-- A question to a started engine is written to the log, and that is all. -/
theorem silent_ask (hstarted : e.started = true) :
    (∀ amount fromAsset toAsset source,
      (e.askConversion amount fromAsset toAsset source).2.silent = e.silent) ∧
    ∀ asset price source, (e.askDollars asset price source).2.silent = e.silent := by
  constructor
  · intro amount fromAsset toAsset source
    simp only [askConversion, startIfIdle_of_started hstarted]
    rfl
  · intro asset price source
    simp only [askDollars, startIfIdle_of_started hstarted]
    rfl

end

end ExchangeRates.Engine

import ExchangeRates.Engine.Clock
import ExchangeRates.Engine.Query

namespace ExchangeRates.Engine

/-- What can happen to an engine among feeds of kind `φ`. -/
inductive Action (φ : Type) where
  | reconfigure
  | setOverride (o : RateOverride)
  | clearOverride
  | register (ids : List FeedId)
  | setInterval (interval : Duration)
  | setOrigin (origin : ConfigOrigin)
  | setEnvironment (environment : Environment)
  /-- From now on calls come from where tasks can run in the background, or cannot. -/
  | setRuntime (runtime : Bool)
  | changeFeed (id : FeedId) (change : φ → φ)
  | start
  | stop
  | askRates (source : String)
  | askDollars (asset : String) (price : Float) (source : Option String)
  | askConversion (amount : Float) (fromAsset toAsset : String) (source : Option String)
  | spawnWait
  | takeLog
  | stepFeeds
  | stepTask (i : Nat)
  | stepWaiter (i : Nat)
  | wait (nanos : Nat)

/-- An engine, and what happened to it then. -/
structure Moment (φ : Type) where
  engine : Engine φ
  action : Action φ

/-- The moments of an execution, the latest first. -/
abbrev Trace (φ : Type) := List (Moment φ)

section

variable {φ : Type}

/-- The moments of an execution that lead to an engine it passes through. -/
def Trace.Visits (trace : Trace φ) (last : Engine φ) (before : Trace φ) (e : Engine φ) : Prop :=
  (before = trace ∧ e = last) ∨ ∃ m, m :: before <:+ trace ∧ e = m.engine

theorem Trace.visits_cons_iff {trace before : Trace φ} {m : Moment φ} {last e : Engine φ} :
    Trace.Visits (m :: trace) last before e ↔
      (before = m :: trace ∧ e = last) ∨ trace.Visits m.engine before e := by
  constructor
  · rintro (hlast | ⟨d, hsuffix, rfl⟩)
    · exact .inl hlast
    · obtain heq | hsuffix := List.suffix_cons_iff.mp hsuffix
      · obtain ⟨rfl, rfl⟩ := List.cons.inj heq
        exact .inr (.inl ⟨rfl, rfl⟩)
      · exact .inr (.inr ⟨d, hsuffix, rfl⟩)
  · rintro (hlast | ⟨rfl, rfl⟩ | ⟨d, hsuffix, rfl⟩)
    · exact .inl hlast
    · exact .inr ⟨m, List.suffix_rfl, rfl⟩
    · exact .inr ⟨d, hsuffix.trans (List.suffix_cons m trace), rfl⟩

end

variable {φ : Type} [PriceFeed φ]

/-- The engine after an action. A step of the background may not be possible. -/
def act (e : Engine φ) : Action φ → Option (Engine φ)
  | .reconfigure => some e.reconfigure
  | .setOverride o => some (e.setOverride o)
  | .clearOverride => some e.clearOverride
  | .register ids => some (e.register ids)
  | .setInterval interval => some (e.setInterval interval)
  | .setOrigin origin => some (e.setOrigin origin)
  | .setEnvironment environment => some (e.setEnvironment environment)
  | .setRuntime runtime => some { e with runtime }
  | .changeFeed id change => some (e.changeFeed id change)
  | .start => some e.start.2
  | .stop => some e.stop
  | .askRates source => some (e.askRates source).2
  | .askDollars asset price source => some (e.askDollars asset price source).2
  | .askConversion amount fromAsset toAsset source =>
    some (e.askConversion amount fromAsset toAsset source).2
  | .spawnWait => some e.spawnWait.2
  | .takeLog => some e.takeLog.2
  | .stepFeeds => e.stepFeeds
  | .stepTask i => e.stepTask i
  | .stepWaiter i => e.stepWaiter i
  | .wait nanos => some { e with now := e.now + nanos }

/-- Actions lead from one engine to another. -/
inductive Execution (first : Engine φ) : Trace φ → Engine φ → Prop
  | nil : Execution first [] first
  | act {trace : Trace φ} {e later : Engine φ} {a : Action φ} :
    Execution first trace e → e.act a = some later → Execution first (⟨e, a⟩ :: trace) later

namespace Execution

variable {first e later : Engine φ} {trace : Trace φ}

theorem append {middle : Engine φ} {next : Trace φ} (h : Execution first trace middle)
    (hnext : Execution middle next later) : Execution first (next ++ trace) later := by
  induction hnext with
  | nil => exact h
  | act _ hact ih => exact ih.act hact

/-- Every moment of an execution divides it in two. -/
theorem split {after before : Trace φ} {m : Moment φ}
    (h : Execution first (after ++ m :: before) e) :
    Execution first before m.engine ∧
      ∃ next, m.engine.act m.action = some next ∧ Execution next after e := by
  generalize htrace : after ++ m :: before = trace at h
  induction h generalizing after with
  | nil => simp at htrace
  | act hbefore hact ih =>
    cases after with
    | nil =>
      obtain ⟨rfl, rfl⟩ := List.cons.inj htrace
      exact ⟨hbefore, _, hact, .nil⟩
    | cons last after =>
      obtain ⟨rfl, hrest⟩ := List.cons.inj htrace
      obtain ⟨hm, next, hnext, hafter⟩ := ih hrest
      exact ⟨hm, next, hnext, hafter.act hact⟩

/-- The moments that lead to an engine on the way are an execution themselves. -/
theorem of_visits {before : Trace φ} {s : Engine φ} (h : Execution first trace e)
    (hvisits : trace.Visits e before s) : Execution first before s := by
  obtain ⟨rfl, rfl⟩ | ⟨m, ⟨after, rfl⟩, rfl⟩ := hvisits
  · exact h
  · exact h.split.1

/-- What holds of the first engine, and is kept by every action, holds of the last. -/
theorem invariant {P : Engine φ → Prop} (h : Execution first trace e) (hfirst : P first)
    (hact : ∀ {e later : Engine φ} {a : Action φ}, P e → e.act a = some later → P later) : P e := by
  induction h with
  | nil => exact hfirst
  | act _ hstep ih => exact hact ih hstep

/-- What one action after the other keeps under a condition on the action is kept throughout an
execution exactly if all its actions meet the condition. -/
theorem throughout_iff {P : Trace φ → Engine φ → Prop} {Q : Trace φ → Moment φ → Prop}
    (h : Execution first trace e) (hfirst : P [] first)
    (hstep : ∀ (before : Trace φ) (s : Engine φ) (a : Action φ) (next : Engine φ),
      ⟨s, a⟩ :: before <:+ trace → Execution first before s → P before s →
        s.act a = some next → (P (⟨s, a⟩ :: before) next ↔ Q before ⟨s, a⟩)) :
    (∀ before s, trace.Visits e before s → P before s) ↔
      ∀ m before, m :: before <:+ trace → Q before m := by
  induction h with
  | nil => simp [Trace.Visits, hfirst]
  | @act rest s next a hbefore hact ih =>
    have hrest := ih fun before s a next hsuffix =>
      hstep before s a next (hsuffix.trans (List.suffix_cons ..))
    have hlast := hstep rest s a next List.suffix_rfl hbefore
    -- the engine before the last action is one of those visited earlier, so it has the property
    simp only [Trace.visits_cons_iff, List.suffix_cons_iff]
    constructor
    · intro hkept m before hsuffix
      have hearlier := fun before s hvisits => hkept before s (.inr hvisits)
      obtain heq | hsuffix := hsuffix
      · obtain ⟨rfl, rfl⟩ := List.cons.inj heq
        exact (hlast (hearlier _ _ (.inl ⟨rfl, rfl⟩)) hact).mp (hkept _ _ (.inl ⟨rfl, rfl⟩))
      · exact hrest.mp hearlier m before hsuffix
    · intro hconditions before t hvisits
      have hearlier := hrest.mpr fun m before hsuffix => hconditions m before (.inr hsuffix)
      obtain ⟨rfl, rfl⟩ | hvisits := hvisits
      · exact (hlast (hearlier _ _ (.inl ⟨rfl, rfl⟩)) hact).mpr (hconditions _ _ (.inl rfl))
      · exact hearlier before t hvisits

end Execution

/-- The moments of a list of actions and the engine after them, if they are all possible. -/
def perform (e : Engine φ) : List (Action φ) → Option (Trace φ × Engine φ)
  | [] => some ([], e)
  | a :: actions =>
    (e.act a).bind fun next =>
      (next.perform actions).map fun (trace, last) => (trace ++ [⟨e, a⟩], last)

theorem execution_of_perform {e last : Engine φ} {actions : List (Action φ)} {trace : Trace φ}
    (h : e.perform actions = some (trace, last)) : Execution e trace last := by
  induction actions generalizing e trace with
  | nil =>
    obtain ⟨rfl, rfl⟩ := Prod.mk.inj (Option.some.inj h)
    exact .nil
  | cons a actions ih =>
    obtain ⟨next, hact, hrest⟩ := Option.bind_eq_some_iff.mp h
    obtain ⟨⟨rest, end_⟩, hperform, heq⟩ := Option.map_eq_some_iff.mp hrest
    obtain ⟨rfl, rfl⟩ := Prod.mk.inj heq
    exact (Execution.nil.act hact).append (ih hperform)

end ExchangeRates.Engine

import ExchangeRates.Proofs.Engine.ConfigHistory
import ExchangeRates.SharedEngine

namespace ExchangeRates.SharedEngine

/-- What can happen in a process that may share an engine. -/
inductive Event (φ : Type) where
  | setEnvironment (environment : Environment)
  | install (engine : Engine φ)
  | access
  /-- The shared engine is called, or goes on in the background. -/
  | use (a : Engine.Action φ)

/-- A process, and what happened in it then. -/
structure Moment (φ : Type) where
  process : SharedEngine φ
  event : Event φ

variable {φ : Type}

def Event.isUse : Event φ → Bool
  | .use _ => true
  | _ => false

/-- The engine that a moment begins to share: the one that is installed, or the one that is made
because there is none to give out. -/
def Moment.shares? (m : Moment φ) : Option (Engine φ) :=
  match m.process.shared, m.event with
  | none, .install engine => some engine
  | none, .access => (engineOf m.process.environment m.process.runtime).toOption
  | _, _ => none

/-- What a moment does to the engine that is shared already. Asking for it does nothing to it,
unless its configuration is empty. -/
def Moment.action? (m : Moment φ) : Option (Engine.Action φ) :=
  match m.event with
  | .setEnvironment environment => some (.setEnvironment environment)
  | .install _ => none
  | .access =>
    if m.process.shared.any fun (_, e) => e.config.isEmpty then some .reconfigure else none
  | .use a => some a

section

variable {s : SharedEngine φ} {n : Nat} {e : Engine φ}

theorem access_of_shared (h : s.shared = some (n, e)) :
    s.access = (.ok (n, if e.config.isEmpty then e.reconfigure else e),
      s.update (if e.config.isEmpty then e.reconfigure else e)) := by
  simp only [access, update, h, Option.map_some]

theorem access_of_engineOf_ok (h : s.shared = none)
    (hengine : engineOf s.environment s.runtime = .ok e) :
    s.access =
      (.ok (s.made, e), { s with made := s.made + 1, shared := some (s.made, e) }) := by
  simp only [access, h, hengine]

theorem access_of_engineOf_error {fault : Fault} (h : s.shared = none)
    (hengine : engineOf (φ := φ) s.environment s.runtime = .error fault) :
    s.access = (.error fault, s) := by
  simp only [access, h, hengine]

theorem install_of_shared (h : s.shared = some (n, e)) (engine : Engine φ) :
    s.install engine = (.error engine, { s with made := s.made + 1 }) := by
  simp only [install, h]

theorem install_of_none (h : s.shared = none) (engine : Engine φ) :
    s.install engine =
      (.ok (), { s with made := s.made + 1, shared := some (s.made, engine) }) := by
  simp only [install, h]

theorem update_of_shared (h : s.shared = some (n, e)) : s.update e = s := by
  rw [update, h, Option.map_some, ← h]

theorem engineOf_eq_ok_iff {environment : Environment} {runtime : Bool} :
    engineOf environment runtime = .ok e ↔ ∃ settings,
      Settings.ofEnvironment environment = .ok settings ∧
        .new settings .environment [] [] environment runtime = e := by
  unfold engineOf
  cases Settings.ofEnvironment environment <;> simp [Except.map]

theorem engineOf_eq_error_iff {environment : Environment} {runtime : Bool} {fault : Fault} :
    engineOf (φ := φ) environment runtime = .error fault ↔
      Settings.ofEnvironment environment = .error fault := by
  unfold engineOf
  cases Settings.ofEnvironment environment <;> simp [Except.map]

/-- Asking for the engine fails exactly if none is shared and none can be made. -/
theorem exists_access_eq_error_iff :
    (∃ fault, s.access.1 = .error fault) ↔
      s.shared = none ∧ ∃ fault, Settings.ofEnvironment s.environment = .error fault := by
  cases hshared : s.shared with
  | some shared => simp [access_of_shared hshared]
  | none =>
    cases hengine : engineOf (φ := φ) s.environment s.runtime with
    | ok e =>
      obtain ⟨settings, hsettings, -⟩ := engineOf_eq_ok_iff.mp hengine
      simp [access_of_engineOf_ok hshared hengine, hsettings]
    | error fault =>
      simp [access_of_engineOf_error hshared hengine, engineOf_eq_error_iff.mp hengine]

theorem shared_of_shares? {m : Moment φ} (h : m.shares? = some e) : m.process.shared = none := by
  unfold Moment.shares? at h
  split at h <;> first | assumption | cases h

end

variable [PriceFeed φ]

/-- The process after an event. There may be no engine to use, or it cannot be used in this way. -/
def after (s : SharedEngine φ) : Event φ → Option (SharedEngine φ)
  | .setEnvironment environment => some (s.setEnvironment environment)
  | .install engine => some (s.install engine).2
  | .access => some s.access.2
  | .use a => s.shared.bind fun (_, e) => (e.act a).map s.update

/-- Events lead from one process to another; the latest comes first. -/
inductive History (first : SharedEngine φ) : List (Moment φ) → SharedEngine φ → Prop
  | nil : History first [] first
  | next {trace : List (Moment φ)} {s later : SharedEngine φ} {event : Event φ} :
    History first trace s → s.after event = some later →
      History first (⟨s, event⟩ :: trace) later

/-- An engine has been shared since a moment. Nothing was shared earlier, no engine that was made
later has its number, and it has become what the moments since then did to it. -/
structure SharedSince (trace : List (Moment φ)) (start : Moment φ) (since : List (Moment φ))
    (first : Engine φ) (n : Nat) (e : Engine φ) : Prop where
  split : ∃ before, trace = since ++ start :: before ∧
    ∀ m ∈ before, m.process.shared = none ∧ m.shares? = none
  shares : start.shares? = some first
  number : start.process.made = n
  same : ∀ m ∈ since, n < m.process.made ∧ ∃ then_, m.process.shared = some (n, then_)
  run : ∃ run, Engine.Execution first run e ∧
    run.map (·.action) = since.filterMap Moment.action?

section

variable {s later : SharedEngine φ} {n : Nat} {e : Engine φ} {event : Event φ}

/-- A shared engine stays the shared one, and what an event does to it is one action or none. -/
theorem after_of_shared (hshared : s.shared = some (n, e)) (hafter : s.after event = some later) :
    ∃ next, later.shared = some (n, next) ∧ s.made ≤ later.made ∧
      ((⟨s, event⟩ : Moment φ).action? = none ∧ next = e ∨
        ∃ a, (⟨s, event⟩ : Moment φ).action? = some a ∧ e.act a = some next) := by
  cases event with
  | setEnvironment environment =>
    obtain rfl := Option.some.inj hafter
    refine ⟨e.setEnvironment environment, ?_, Nat.le_refl _, .inr ⟨_, rfl, rfl⟩⟩
    simp only [setEnvironment, hshared, Option.map_some]
  | install engine =>
    obtain rfl := Option.some.inj hafter
    rw [install_of_shared hshared]
    exact ⟨e, hshared, Nat.le_succ _, .inl ⟨rfl, rfl⟩⟩
  | access =>
    obtain rfl := Option.some.inj hafter
    rw [access_of_shared hshared]
    refine ⟨if e.config.isEmpty then e.reconfigure else e, ?_, Nat.le_refl _, ?_⟩
    · simp only [update, hshared, Option.map_some]
    · simp only [Moment.action?, hshared, Option.any_some]
      split
      · exact .inr ⟨_, rfl, rfl⟩
      · exact .inl ⟨rfl, rfl⟩
  | use a =>
    simp only [after, hshared, Option.bind_some, Option.map_eq_some_iff] at hafter
    obtain ⟨next, hact, rfl⟩ := hafter
    refine ⟨next, ?_, Nat.le_refl _, .inr ⟨a, rfl, hact⟩⟩
    simp only [update, hshared, Option.map_some]

/-- If nothing is shared, an event shares the engine it is said to share, under a new number. -/
theorem after_of_none (hshared : s.shared = none) (hafter : s.after event = some later) :
    later.shared = (⟨s, event⟩ : Moment φ).shares?.map (s.made, ·) ∧
      (later.shared.isSome = true → s.made < later.made) := by
  cases event with
  | setEnvironment environment =>
    obtain rfl := Option.some.inj hafter
    simp [setEnvironment, Moment.shares?, hshared]
  | install engine =>
    obtain rfl := Option.some.inj hafter
    simp [install_of_none hshared, Moment.shares?, hshared]
  | access =>
    obtain rfl := Option.some.inj hafter
    cases hengine : engineOf (φ := φ) s.environment s.runtime with
    | ok engine =>
      simp [access_of_engineOf_ok hshared hengine, Moment.shares?, hshared, hengine,
        Except.toOption]
    | error fault =>
      simp [access_of_engineOf_error hshared hengine, Moment.shares?, hshared, hengine,
        Except.toOption]
  | use a => simp [after, hshared] at hafter

/-- Without a use of the shared engine, nothing changes it but what surrounds it once its
configuration is not empty. -/
theorem History.shared_of_calls {rest : List (Moment φ)} (h : History s rest later)
    (hshared : s.shared = some (n, e)) (hconfig : e.config.isEmpty = false)
    (hcalls : ∀ m ∈ rest, m.event.isUse = false) :
    ∃ environment, later.shared = some (n, { e with environment }) := by
  induction h with
  | nil => exact ⟨e.environment, hshared⟩
  | @next rest between later event _ hafter ih =>
    rw [List.forall_mem_cons] at hcalls
    obtain ⟨environment, hbetween⟩ := ih hcalls.2
    obtain ⟨next, hlater, -, ⟨-, rfl⟩ | ⟨a, haction, hact⟩⟩ := after_of_shared hbetween hafter
    · exact ⟨environment, hlater⟩
    · cases event with
      | setEnvironment changed =>
        obtain rfl := Option.some.inj haction
        obtain rfl := Option.some.inj hact
        exact ⟨changed, hlater⟩
      | install engine => cases haction
      | access =>
        simp only [Moment.action?, hbetween, Option.any_some, hconfig] at haction
        cases haction
      | use a => cases hcalls.1

end

variable {environment : Environment} {runtime : Bool} {trace : List (Moment φ)}
  {s : SharedEngine φ}

theorem SharedSince.next {start : Moment φ} {since : List (Moment φ)} {first e next : Engine φ}
    {n : Nat} {m : Moment φ} (h : SharedSince trace start since first n e)
    (hshared : m.process.shared = some (n, e)) (hmade : n < m.process.made)
    (hnext : m.action? = none ∧ next = e ∨ ∃ a, m.action? = some a ∧ e.act a = some next) :
    SharedSince (m :: trace) start (m :: since) first n next := by
  obtain ⟨before, rfl, hbefore⟩ := h.split
  obtain ⟨run, hrun, hactions⟩ := h.run
  refine ⟨⟨before, rfl, hbefore⟩, h.shares, h.number,
    List.forall_mem_cons.mpr ⟨⟨hmade, e, hshared⟩, h.same⟩, ?_⟩
  obtain ⟨hnone, rfl⟩ | ⟨a, hsome, hact⟩ := hnext
  · refine ⟨run, hrun, ?_⟩
    rw [List.filterMap_cons_none hnone, hactions]
  · refine ⟨_, hrun.act hact, ?_⟩
    rw [List.filterMap_cons_some hsome, List.map_cons, hactions]

/-- As long as no engine is shared, nothing has shared one. -/
theorem shared_invariant (h : History (new environment runtime) trace s) :
    (s.shared = none → ∀ m ∈ trace, m.process.shared = none ∧ m.shares? = none) ∧
      ∀ n e, s.shared = some (n, e) → n < s.made ∧
        ∃ start since first, SharedSince trace start since first n e := by
  induction h with
  | nil => exact ⟨fun _ _ hmem => absurd hmem List.not_mem_nil, fun _ _ hsome => nomatch hsome⟩
  | @next trace s later event _ hafter ih =>
    obtain ⟨hnone, hsome⟩ := ih
    cases hshared : s.shared with
    | none =>
      obtain ⟨hlater, hmade⟩ := after_of_none hshared hafter
      refine ⟨fun hunshared => ?_, fun n e hnow => ?_⟩
      · rw [hlater, Option.map_eq_none_iff] at hunshared
        exact List.forall_mem_cons.mpr ⟨⟨hshared, hunshared⟩, hnone hshared⟩
      · rw [hnow] at hmade
        rw [hlater, Option.map_eq_some_iff] at hnow
        obtain ⟨first, hshares, hpair⟩ := hnow
        obtain ⟨rfl, rfl⟩ := Prod.mk.inj hpair
        refine ⟨hmade rfl, ⟨s, event⟩, [], first, ?_⟩
        exact {
          split := ⟨trace, rfl, hnone hshared⟩
          shares := hshares
          number := rfl
          same := fun _ hmem => absurd hmem List.not_mem_nil
          run := ⟨[], .nil, rfl⟩ }
    | some shared =>
      obtain ⟨n, e⟩ := shared
      obtain ⟨next, hlater, hmade, hnext⟩ := after_of_shared hshared hafter
      obtain ⟨hnumber, start, since, first, hsince⟩ := hsome n e hshared
      refine ⟨fun hunshared => (nomatch hlater.symm.trans hunshared), fun n' e' hnow => ?_⟩
      obtain ⟨rfl, rfl⟩ := Prod.mk.inj (Option.some.inj (hlater.symm.trans hnow))
      exact ⟨Nat.lt_of_lt_of_le hnumber hmade, start, _, first, hsince.next hshared hnumber hnext⟩

/-- The settings of a shared engine are those it was made with; if it was made because it was asked
for, they are those of the environment of that moment. -/
theorem SharedSince.settings {start : Moment φ} {since : List (Moment φ)} {first e : Engine φ}
    {n : Nat} (h : SharedSince trace start since first n e) :
    e.settings = first.settings ∧ (start.event = .access →
      Settings.ofEnvironment start.process.environment = .ok e.settings) := by
  obtain ⟨run, hrun, -⟩ := h.run
  have hkept := hrun.settings_eq
  refine ⟨hkept, fun haccess => ?_⟩
  have hshares := h.shares
  rw [Moment.shares?, shared_of_shares? h.shares, haccess] at hshares
  cases hengine : engineOf (φ := φ) start.process.environment start.process.runtime with
  | error fault => simp [hengine, Except.toOption] at hshares
  | ok engine =>
    obtain ⟨settings, hsettings, rfl⟩ := engineOf_eq_ok_iff.mp hengine
    simp only [hengine, Except.toOption, Option.some.injEq] at hshares
    rw [hsettings, hkept, ← hshares]
    exact congrArg Except.ok (Engine.settings_new ..).symm

/-- Every moment that gives the engine out gives the one that is shared at the end. -/
theorem shared_of_access (h : History (new environment runtime) trace s) {m : Moment φ}
    (hmem : m ∈ trace) (haccess : m.event = .access) {n : Nat} {e : Engine φ}
    (hgiven : m.process.access.1 = .ok (n, e)) : ∃ now, s.shared = some (n, now) := by
  -- a moment at which nothing is shared gives an engine out only by sharing it
  have hshares (hunshared : m.process.shared = none) :
      m.process.made = n ∧ m.shares? = some e := by
    cases hengine : engineOf (φ := φ) m.process.environment m.process.runtime with
    | error fault => simp [access_of_engineOf_error hunshared hengine] at hgiven
    | ok engine =>
      simp only [access_of_engineOf_ok hunshared hengine, Except.ok.injEq, Prod.mk.injEq] at hgiven
      obtain ⟨hn, rfl⟩ := hgiven
      exact ⟨hn, by simp [Moment.shares?, hunshared, haccess, hengine, Except.toOption]⟩
  obtain ⟨hnone, hsome⟩ := shared_invariant h
  cases hshared : s.shared with
  | none =>
    obtain ⟨hunshared, hnot⟩ := hnone hshared m hmem
    cases hnot.symm.trans (hshares hunshared).2
  | some shared =>
    obtain ⟨number, now⟩ := shared
    obtain ⟨-, start, since, first, hsince⟩ := hsome number now hshared
    obtain ⟨before, rfl, hbefore⟩ := hsince.split
    suffices n = number from ⟨now, by rw [this]⟩
    obtain hmem | hmem := List.mem_append.mp hmem
    · obtain ⟨-, then_, hthen⟩ := hsince.same m hmem
      rw [access_of_shared hthen, Except.ok.injEq, Prod.mk.injEq] at hgiven
      exact hgiven.1.symm
    obtain rfl | hmem := List.mem_cons.mp hmem
    · rw [← hsince.number]
      exact (hshares (shared_of_shares? hsince.shares)).1.symm
    · obtain ⟨hunshared, hnot⟩ := hbefore m hmem
      cases hnot.symm.trans (hshares hunshared).2

/-- A process shares at most one engine, and whoever asks gets that one. It is the first that is
installed or made because it is asked for; with another one nothing happens but that it is handed
back. The calls it gets since then are those of its users, changes of the environment, and one
resolution for each time it is asked for while its configuration is empty: after that asking does
nothing, whatever the environment becomes. A resolution that fails leaves it as it was, and its
settings stay those it was made with. Only the first access can fail. -/
theorem one_engine_of_history (h : History (new environment runtime) trace s) :
    (∀ n e, s.shared = some (n, e) → ∃ start since first,
      SharedSince trace start since first n e ∧ e.settings = first.settings ∧
        (start.event = .access →
          Settings.ofEnvironment start.process.environment = .ok e.settings)) ∧
    (∀ m ∈ trace, m.event = .access → ∀ n e, m.process.access.1 = .ok (n, e) →
      ∃ now, s.shared = some (n, now)) ∧
    (∀ engine, ((s.install engine).1 = .ok () ↔ ∀ m ∈ trace, m.shares? = none) ∧
      ((s.install engine).1 ≠ .ok () →
        (s.install engine).1 = .error engine ∧ (s.install engine).2.shared = s.shared)) ∧
    ((∃ fault, s.access.1 = .error fault) ↔
      s.shared = none ∧ ∃ fault, Settings.ofEnvironment s.environment = .error fault) ∧
    ∀ n e, s.shared = some (n, e) →
      (e.config.global.keys = [] → s.access = (.ok (n, e.reconfigure), s.update e.reconfigure) ∧
        ∀ error, e.resolution = .error error →
          e.reconfigure = { e with log := e.log ++ #[.configRejected error] }) ∧
      (e.config.global.keys ≠ [] → s.access = (.ok (n, e), s) ∧
        ∀ rest later, History s rest later → (∀ m ∈ rest, m.event.isUse = false) →
          ∃ environment, later.shared = some (n, { e with environment })) := by
  obtain ⟨hnone, hsome⟩ := shared_invariant h
  refine ⟨fun n e hshared => ?_, fun m hmem haccess n e => shared_of_access h hmem haccess,
    fun engine => ?_, exists_access_eq_error_iff, fun n e hshared => ⟨fun hempty => ?_,
      fun hconfig => ?_⟩⟩
  · obtain ⟨-, start, since, first, hsince⟩ := hsome n e hshared
    exact ⟨start, since, first, hsince, hsince.settings⟩
  · cases hshared : s.shared with
    | none =>
      rw [install_of_none hshared]
      exact ⟨iff_of_true rfl fun m hmem => (hnone hshared m hmem).2, fun hfailed => nomatch hfailed⟩
    | some shared =>
      obtain ⟨n, e⟩ := shared
      obtain ⟨-, start, since, first, hsince⟩ := hsome n e hshared
      obtain ⟨before, rfl, -⟩ := hsince.split
      rw [install_of_shared hshared]
      refine ⟨iff_of_false (fun hok => nomatch hok) fun hunshared => ?_, fun _ => ⟨rfl, hshared⟩⟩
      have hstart := hunshared start (List.mem_append_right _ List.mem_cons_self)
      exact nomatch hstart.symm.trans hsince.shares
  · rw [access_of_shared hshared, if_pos (RateConfig.isEmpty_iff.mpr hempty)]
    exact ⟨rfl, fun error => Engine.reconfigure_of_error⟩
  · have hkept : e.config.isEmpty = false :=
      Bool.eq_false_iff.mpr fun hempty => hconfig (RateConfig.isEmpty_iff.mp hempty)
    rw [access_of_shared hshared, hkept, if_neg Bool.false_ne_true, update_of_shared hshared]
    exact ⟨rfl, fun rest later hrest => hrest.shared_of_calls hshared hkept⟩

/-- An environment with one rate in it. -/
def dollarCoinEnvironment : Environment :=
  .ofList [("EXCHANGE_RATE_CONVERSION", "[[\"USDC\",\"1.0\",\"fast\"]]".toUTF8)]

/-- The engine is made while nothing is configured, and finds its configuration when it is asked for
again. Then it is kept, with the environment emptied and another engine handed over. -/
def lateEnvironment : List (Event ScriptedFeed) :=
  [.access, .setEnvironment dollarCoinEnvironment, .access, .setEnvironment .empty, .access,
    .install (.new .default .environment [] [] .empty true)]

/-- The engine that was made first stays the one of the process, with the configuration that it
found when it was asked for again. -/
theorem one_engine_of_lateEnvironment :
    ∃ trace s e, History (new .empty true) trace s ∧
      trace.reverse.map (·.event) = lateEnvironment ∧
      s.shared = some (0, e) ∧ s.made = 2 ∧ e.config.global.keys = [.ofText "USDC"] ∧
      s.access = (.ok (0, e), s) ∧
      ∃ start since first, SharedSince trace start since first 0 e ∧
        e.settings = first.settings := by
  obtain ⟨trace, s, e, h, hevents, hshared, hmade, hkeys⟩ :
      ∃ trace s e, History (new .empty true) trace s ∧
        trace.reverse.map (·.event) = lateEnvironment ∧ s.shared = some (0, e) ∧ s.made = 2 ∧
        e.config.global.keys = [.ofText "USDC"] :=
    ⟨_, _, _, ((((((History.nil).next rfl).next rfl).next rfl).next rfl).next rfl).next rfl, rfl,
      rfl, rfl, by decide⟩
  obtain ⟨hone, -, -, -, hcalls⟩ := one_engine_of_history h
  obtain ⟨start, since, first, hsince, hsettings, -⟩ := hone 0 e hshared
  have hsame := ((hcalls 0 e hshared).2 (by rw [hkeys]; exact List.cons_ne_nil _ _)).1
  exact ⟨trace, s, e, h, hevents, hshared, hmade, hkeys, hsame, start, since, first, hsince,
    hsettings⟩

end ExchangeRates.SharedEngine

import ExchangeRates.Proofs.Config.Override
import ExchangeRates.Proofs.Decimal.Exact
import ExchangeRates.Proofs.Json.Reread

namespace ExchangeRates

instance : ReflBEq RateSource where
  rfl {c} := by
    change ((c.initialRate == c.initialRate || c.initialRate.isNaN && c.initialRate.isNaN) &&
      c.feed == c.feed) = true
    rw [Bool.and_self, Decimal.beq_self_or_isNaN, beq_self_eq_true, Bool.and_self]

namespace RateSource

theorem rereads : Json.Rereads ofJson? toJson fun c => c.initialRate.isFinite := by
  intro c
  have hfields : c.toJson.fields? ["default", "source"] =
      some [some (.ofFloat c.initialRate), some (.text c.feed)] := rfl
  have hrate := Json.rereads_float c.initialRate
  unfold ofJson?
  rw [hfields]
  change (Json.toFloat? (.ofFloat c.initialRate)).bind _ = _
  rw [hrate]
  split <;> rfl

/-- The rate that is read is finite, or unknown where there is no default rate. -/
theorem yields : Json.Yields ofJson? fun c => c.initialRate.isFinite ∨ c.initialRate.isNaN := by
  intro j c h
  unfold ofJson? at h
  obtain ⟨fields, -, h⟩ := Option.bind_eq_some_iff.mp h
  split at h
  · obtain ⟨rate, hrate, h⟩ := Option.bind_eq_some_iff.mp h
    obtain ⟨feed, -, h⟩ := Option.bind_eq_some_iff.mp h
    obtain rfl : ⟨rate, feed⟩ = c := Option.some.inj h
    have hyields : Json.Yields Json.toFloat? fun x => x.isFinite ∨ x.isNaN :=
      fun j x hx => .inl (Json.yields_float j x hx)
    exact hyields.optional (.inr rfl) hrate
  · cases h

end RateSource

namespace RateOverride

/-- Whether all rates of a map can be written. -/
def hasFiniteRates (t : SourceTable) : Bool := t.entries.all fun e => e.2.initialRate.isFinite

/-- No rate of a map is unknown. -/
def Known (t : SourceTable) : Prop :=
  ∀ asset source, t.get? asset = some source → source.initialRate.isNaN = false

/-- Two overrides give equal source configs to the same assets. -/
def equals (o other : RateOverride) : Bool :=
  RateConfig.sameTable o.required other.required && RateConfig.sameTable o.global other.global

theorem rereads_table : Json.Rereads tableOfJson? tableToJson hasFiniteRates :=
  RateSource.rereads.table Symbol.ofText_text

theorem ofJson?_toJson (o : RateOverride) :
    ofJson? o.toJson =
      if hasFiniteRates o.required && hasFiniteRates o.global then some o else none := by
  have hfields : o.toJson.fields? ["conversion_required", "global_config"] =
      some [some (tableToJson o.required), some (tableToJson o.global)] := rfl
  unfold ofJson?
  rw [hfields]
  change (tableOfJson? (tableToJson o.required)).bind (fun required =>
    (tableOfJson? (tableToJson o.global)).bind fun global =>
      some (RateOverride.mk required global)) = _
  rw [rereads_table, rereads_table]
  cases hasFiniteRates o.required <;> cases hasFiniteRates o.global <;> rfl

/-- What has been read: rates that are finite where they are known. -/
def ReadRates (t : SourceTable) : Prop :=
  ∀ asset source, t.get? asset = some source →
    source.initialRate.isFinite ∨ source.initialRate.isNaN

theorem yields_table : Json.Yields tableOfJson? ReadRates := by
  have hentries : Json.Yields tableOfJson? fun t => ∀ e ∈ t.entries,
      e.2.initialRate.isFinite ∨ e.2.initialRate.isNaN := RateSource.yields.table
  intro j t h asset source hsource
  exact hentries j t h (asset, source) (Table.mem_entries_iff.mpr hsource)

theorem yields : Json.Yields ofJson? fun o => ReadRates o.required ∧ ReadRates o.global := by
  intro j o h
  have hempty : ReadRates .empty := by
    intro asset source hsource
    rw [Table.get?_empty] at hsource
    cases hsource
  unfold ofJson? at h
  obtain ⟨fields, -, h⟩ := Option.bind_eq_some_iff.mp h
  split at h
  · obtain ⟨required, hrequired, h⟩ := Option.bind_eq_some_iff.mp h
    obtain ⟨global, hglobal, h⟩ := Option.bind_eq_some_iff.mp h
    obtain rfl : ⟨required, global⟩ = o := Option.some.inj h
    exact ⟨yields_table.optional hempty hrequired, yields_table.optional hempty hglobal⟩
  · cases h

theorem hasFiniteRates_iff {t : SourceTable} (h : ReadRates t) : hasFiniteRates t ↔ Known t := by
  rw [hasFiniteRates, List.all_eq_true]
  constructor
  · intro hfinite asset source hsource
    have hrate := hfinite _ (Table.mem_entries_iff.mpr hsource)
    by_contra hnan
    rw [Bool.not_eq_false] at hnan
    rw [Decimal.isFinite_eq_false_of_isNaN hnan] at hrate
    cases hrate
  · intro hknown e he
    have hsource : t.get? e.1 = some e.2 := Table.mem_entries_iff.mp he
    rcases h _ _ hsource with hfinite | hunknown
    · exact hfinite
    · rw [hknown _ _ hsource] at hunknown
      cases hunknown

theorem sameTable_of_get?_eq {t u : SourceTable} (h : t.get? = u.get?) :
    RateConfig.sameTable t u = true := by
  have hsize : t.size = u.size := (Table.perm_of_get?_eq h).length_eq
  rw [RateConfig.sameTable, hsize, beq_self_eq_true, Bool.true_and, List.all_eq_true]
  intro e he
  have hget : u.get? e.1 = some e.2 := h ▸ Table.mem_entries_iff.mp he
  rw [hget]
  exact beq_self_eq_true e.2

theorem Same.equals {o other : RateOverride} (h : o.Same other) : o.equals other = true := by
  rw [RateOverride.equals, sameTable_of_get?_eq h.required, sameTable_of_get?_eq h.global,
    Bool.and_self]

theorem ReadRates.of_get?_eq {t u : SourceTable} (h : t.get? = u.get?) (ht : ReadRates t) :
    ReadRates u := by
  intro asset source hsource
  rw [← h] at hsource
  exact ht asset source hsource

theorem known_congr {t u : SourceTable} (h : t.get? = u.get?) : Known t ↔ Known u := by
  rw [Known, Known, h]

/-- What is written of an override that has been read is read again, as an equal override, if all
its rates are known, in whatever order its maps are enumerated. If a rate is unknown nothing is read
again. -/
theorem reread_iff_known {j : Json} {o other : RateOverride} (h : ofJson? j = some o)
    (hsame : o.Same other) :
    ((∃ again, ofJson? other.toJson = some again ∧ o.equals again) ↔
        Known o.required ∧ Known o.global) ∧
      (ofJson? other.toJson = none ↔ ¬ (Known o.required ∧ Known o.global)) := by
  obtain ⟨hrequired, hglobal⟩ := yields j o h
  have hwritable : (hasFiniteRates other.required && hasFiniteRates other.global) = true ↔
      Known o.required ∧ Known o.global := by
    rw [Bool.and_eq_true, hasFiniteRates_iff (hrequired.of_get?_eq hsame.required),
      hasFiniteRates_iff (hglobal.of_get?_eq hsame.global), known_congr hsame.required,
      known_congr hsame.global]
  rw [ofJson?_toJson, ← hwritable]
  split
  · next hw =>
    exact ⟨iff_of_true ⟨other, rfl, hsame.equals⟩ hw, iff_of_false nofun (not_not.mpr hw)⟩
  · next hw => exact ⟨iff_of_false nofun hw, iff_of_true rfl hw⟩

/-- Two entries with default rates, one of them written as an array. -/
def withDefaults : Json :=
  .object [("global_config", .object [
    (" btc", .array [.number (.integer 50000), .text "slow"]),
    ("Eth", .object [("source", .text "slow"), ("default", .number (.float 3000.5))])])]

def priced : RateOverride where
  required := .empty
  global := .ofList [(.ofText " btc", ⟨50000.0, "slow"⟩), (.ofText "Eth", ⟨3000.5, "slow"⟩)]

/-- The same override, enumerated in another order. -/
def pricedBackward : RateOverride where
  required := .empty
  global := .ofList [(.ofText "Eth", ⟨3000.5, "slow"⟩), (.ofText " btc", ⟨50000.0, "slow"⟩)]

/-- An override that knows all its rates is read again, in whatever order it is enumerated. -/
theorem reread_pricedBackward :
    ofJson? withDefaults = some priced ∧
      ∃ again, ofJson? pricedBackward.toJson = some again ∧ priced.equals again := by
  have hread : ofJson? withDefaults = some priced := rfl
  have hsame : priced.Same pricedBackward := ⟨rfl, Table.get?_eq_of_perm (.swap _ _ [])⟩
  refine ⟨hread, (reread_iff_known hread hsame).1.mpr ?_⟩
  obtain ⟨hrequired, hglobal⟩ := yields _ _ hread
  exact ⟨(hasFiniteRates_iff hrequired).mp rfl, (hasFiniteRates_iff hglobal).mp rfl⟩

/-- An entry without a default rate. -/
def withoutDefault : Json :=
  .object [("global_config", .object [("btc", .object [("source", .text "feedX")])])]

/-- A rate that is not known is written as `null`, from which no rate is read. -/
theorem exists_not_reread :
    ¬ ∀ (j : Json) (o : RateOverride), ofJson? j = some o →
      ∃ again, ofJson? o.toJson = some again ∧ o.equals again := by
  intro h
  obtain ⟨again, hagain, -⟩ := h withoutDefault _ rfl
  cases hagain

end RateOverride

end ExchangeRates

import ExchangeRates.Config.Resolve
import ExchangeRates.Proofs.Except

namespace ExchangeRates

/-- The entries of raw lists have the right number of fields, and the default rates are numbers. -/
structure RateLists.WellFormed (raw : RateLists) : Prop where
  fetched : ∀ entry ∈ raw.fetched, ∃ asset source, entry = [asset, source]
  converted : ∀ entry ∈ raw.converted, ∃ asset initialRate source rate,
    entry = [asset, initialRate, source] ∧
      Decimal.readFloat (String.ofList (Text.trim initialRate.toList)) = some rate

theorem exists_ofFetcherEntry_eq_ok_iff {entry : List String} :
    (∃ pair, RateSource.ofFetcherEntry entry = .ok pair) ↔
      ∃ asset source, entry = [asset, source] := by
  unfold RateSource.ofFetcherEntry
  split <;> simp_all

theorem exists_ofConversionEntry_eq_ok_iff {entry : List String} :
    (∃ pair, RateSource.ofConversionEntry entry = .ok pair) ↔
      ∃ asset initialRate source rate, entry = [asset, initialRate, source] ∧
        Decimal.readFloat (String.ofList (Text.trim initialRate.toList)) = some rate := by
  unfold RateSource.ofConversionEntry
  split
  · next asset initialRate source =>
    dsimp only
    split
    · next rate hrate => exact iff_of_true ⟨_, rfl⟩ ⟨asset, initialRate, source, rate, rfl, hrate⟩
    · next hrate =>
      refine iff_of_false (by simp) ?_
      rintro ⟨_, _, _, rate, heq, hread⟩
      simp only [List.cons.injEq, and_true] at heq
      obtain ⟨-, rfl, -⟩ := heq
      simp [hrate] at hread
  · next hother =>
    refine iff_of_false (by simp) ?_
    rintro ⟨asset, initialRate, source, _, rfl, -⟩
    exact hother _ _ _ rfl

theorem exists_readEntries_eq_ok_iff {read : List String → Except EntryError (Symbol × RateSource)}
    {fault : List String → EntryError → ConfigFault} {entries : List (List String)} :
    (∃ table, readEntries read fault entries = .ok table) ↔
      ∀ entry ∈ entries, ∃ pair, read entry = .ok pair := by
  have hentry (entry : List String) :
      (∃ pair, ((read entry).mapError fun e => RateError.badConfig (fault entry e)) = .ok pair) ↔
        ∃ pair, read entry = .ok pair := by
    cases read entry with
    | error e => exact iff_of_false (by rintro ⟨_, ⟨⟩⟩) (by rintro ⟨_, ⟨⟩⟩)
    | ok pair => exact iff_of_true ⟨pair, rfl⟩ ⟨pair, rfl⟩
  unfold readEntries
  simp only [exists_bind_eq_ok_iff, pure_eq_ok_iff, exists_eq', and_true, exists_mapM_eq_ok_iff,
    hentry]

/-- Raw lists resolve exactly if they are well formed. -/
theorem exists_resolveLists_eq_ok_iff {raw : RateLists} :
    (∃ config, resolveLists raw = .ok config) ↔ raw.WellFormed := by
  unfold resolveLists
  simp only [exists_bind_eq_ok_iff, pure_eq_ok_iff, exists_eq', and_true, exists_and_right,
    exists_readEntries_eq_ok_iff, exists_ofFetcherEntry_eq_ok_iff,
    exists_ofConversionEntry_eq_ok_iff]
  exact ⟨fun h => ⟨h.1, h.2⟩, fun h => ⟨h.fetched, h.converted⟩⟩

theorem RateConfig.isEmpty_iff {config : RateConfig} :
    config.isEmpty = true ↔ config.global.keys = [] := by
  simp [isEmpty, Table.isEmpty, Table.keys]

/-- The required assets are among all assets, and have the same sources there. -/
def RateConfig.Nested (config : RateConfig) : Prop :=
  ∀ asset source, config.required.get? asset = some source →
    config.global.get? asset = some source

theorem RateConfig.Nested.keys_subset {config : RateConfig} (h : config.Nested) :
    ∀ asset ∈ config.required.keys, asset ∈ config.global.keys := by
  intro asset hasset
  obtain ⟨source, hsource⟩ := Option.isSome_iff_exists.mp (Table.mem_keys_iff.mp hasset)
  rw [Table.mem_keys_iff, h asset source hsource]
  rfl

theorem RateConfig.nested_empty : RateConfig.empty.Nested := by
  intro asset source h
  cases h

/-- The required assets win over the others when the two maps are merged. -/
theorem RateConfig.nested_merge (global required : SourceTable) :
    (RateConfig.merge global required).Nested := by
  intro asset source h
  change (global.override required).get? asset = some source
  change required.get? asset = some source at h
  rw [Table.get?_override, h, Option.some_or]

theorem nested_resolveOverride (o : RateOverride) : (resolveOverride o).Nested :=
  RateConfig.nested_merge _ _

theorem nested_of_resolveLists {raw : RateLists} {config : RateConfig}
    (h : resolveLists raw = .ok config) : config.Nested := by
  unfold resolveLists at h
  obtain ⟨global, -, h⟩ := bind_eq_ok_iff.mp h
  obtain ⟨required, -, h⟩ := bind_eq_ok_iff.mp h
  obtain rfl : RateConfig.merge global required = config := Except.ok.inj h
  exact RateConfig.nested_merge global required

end ExchangeRates

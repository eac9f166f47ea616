import ExchangeRates.Proofs.Config.Resolve
import ExchangeRates.Proofs.Decimal.Literal
import ExchangeRates.Proofs.Table

namespace ExchangeRates

/-- The asset that an entry is for. -/
def entryAsset? : List String → Option Symbol
  | asset :: _ => some (.ofText asset)
  | [] => none

/-- The last entry of a list that is for an asset. -/
def LastFor (asset : Symbol) (entries : List (List String)) (entry : List String) : Prop :=
  ∃ before after, entries = before ++ entry :: after ∧ entryAsset? entry = some asset ∧
    ∀ other ∈ after, entryAsset? other ≠ some asset

/-- A field without the white space around it. -/
def trimmed (field : String) : String := String.ofList (Text.trim field.toList)

theorem LastFor.entryAsset?_eq {asset : Symbol} {entries : List (List String)}
    {entry : List String} (h : LastFor asset entries entry) : entryAsset? entry = some asset := by
  obtain ⟨_, _, _, hasset, _⟩ := h
  exact hasset

def IsFetcherEntry (entry : List String) : Prop := entry.length = 2

def IsConversionEntry (entry : List String) : Prop :=
  ∃ asset initialRate source, entry = [asset, initialRate, source] ∧
    Decimal.IsLiteral (trimmed initialRate).toList

namespace RateLists

/-- A configuration is what raw lists mean. -/
structure Means (raw : RateLists) (config : RateConfig) : Prop where
  required : ∀ asset source, config.required.get? asset = some source ↔
    ∃ spelling initialRate rate feed, LastFor asset raw.converted [spelling, initialRate, feed] ∧
      Decimal.readFloat (trimmed initialRate) = some rate ∧ source = ⟨rate, feed⟩
  global : ∀ asset source, config.global.get? asset = some source ↔
    config.required.get? asset = some source ∨ config.required.get? asset = none ∧
      ∃ spelling feed, LastFor asset raw.fetched [spelling, feed] ∧
        source = ⟨Decimal.notANumber, feed⟩
  keys : ∀ asset, asset ∈ config.global.keys ↔
    ∃ entry ∈ raw.fetched ++ raw.converted, entryAsset? entry = some asset

/-- The first fault of raw lists, those of fetched assets coming first. -/
inductive FirstFault (raw : RateLists) : RateError → Prop
  | fetched {before after : List (List String)} {entry : List String}
    (hfetched : raw.fetched = before ++ entry :: after) (hbefore : ∀ e ∈ before, IsFetcherEntry e)
    (hlength : entry.length ≠ 2) :
    FirstFault raw (.badConfig (.fetcherEntry entry (.wrongLength 2 entry.length)))
  | converted {before after : List (List String)} {entry : List String}
    (hfetched : ∀ e ∈ raw.fetched, IsFetcherEntry e)
    (hconverted : raw.converted = before ++ entry :: after)
    (hbefore : ∀ e ∈ before, IsConversionEntry e) (hlength : entry.length ≠ 3) :
    FirstFault raw (.badConfig (.conversionEntry entry (.wrongLength 3 entry.length)))
  | rate {before after : List (List String)} {asset initialRate source : String}
    (hfetched : ∀ e ∈ raw.fetched, IsFetcherEntry e)
    (hconverted : raw.converted = before ++ [asset, initialRate, source] :: after)
    (hbefore : ∀ e ∈ before, IsConversionEntry e)
    (hrate : ¬ Decimal.IsLiteral (trimmed initialRate).toList) :
    FirstFault raw (.badConfig
      (.conversionEntry [asset, initialRate, source] (.noNumber (trimmed initialRate))))

end RateLists

section

variable {read : List String → Except EntryError (Symbol × RateSource)}
  {fault : List String → EntryError → ConfigFault} {entries : List (List String)}

theorem readEntries_eq_ok_iff {table : SourceTable} :
    readEntries read fault entries = .ok table ↔
      ∃ pairs, entries.map read = pairs.map .ok ∧ table = .ofList pairs := by
  have hmap (pairs : List (Symbol × RateSource)) :
      (entries.map fun entry =>
        (read entry).mapError fun e => RateError.badConfig (fault entry e)) = pairs.map .ok ↔
          entries.map read = pairs.map .ok := by
    induction entries generalizing pairs with
    | nil => simp
    | cons entry entries ih =>
      cases pairs with
      | nil => simp
      | cons pair pairs => simp only [List.map_cons, List.cons.injEq, ih, mapError_eq_ok_iff]
  unfold readEntries
  simp only [bind_eq_ok_iff, mapM_eq_ok_iff, hmap, pure_eq_ok_iff]
  simp only [eq_comm (a := table)]

theorem readEntries_eq_error_iff {error : RateError} :
    readEntries read fault entries = .error error ↔
      ∃ before entry after cause, entries = before ++ entry :: after ∧
        (∀ e ∈ before, ∃ pair, read e = .ok pair) ∧ read entry = .error cause ∧
        error = .badConfig (fault entry cause) := by
  unfold readEntries
  rw [bind_eq_error_iff]
  simp only [mapM_eq_error_iff, mapError_eq_ok_iff, mapError_eq_error_iff, pure_ne_error, and_false,
    exists_false, or_false]
  constructor
  · rintro ⟨before, entry, after, heq, hbefore, cause, hcause, rfl⟩
    exact ⟨before, entry, after, cause, heq, hbefore, hcause, rfl⟩
  · rintro ⟨before, entry, after, cause, heq, hbefore, hcause, rfl⟩
    exact ⟨before, entry, after, heq, hbefore, cause, hcause, rfl⟩

/-- The entries of a list that can all be read give an asset what the last entry for it says. -/
theorem get?_ofList_entries {pairs : List (Symbol × RateSource)}
    (hpairs : entries.map read = pairs.map .ok)
    (hasset : ∀ entry pair, read entry = .ok pair → entryAsset? entry = some pair.1)
    {asset : Symbol} {source : RateSource} :
    (Table.ofList pairs).get? asset = some source ↔
      ∃ entry, LastFor asset entries entry ∧ read entry = .ok (asset, source) := by
  rw [Table.get?_ofList_eq_some_iff]
  constructor
  · rintro ⟨before, after, rfl, hafter⟩
    rw [List.map_append, List.map_cons] at hpairs
    obtain ⟨front, rest, rfl, -, hrest⟩ := List.map_eq_append_iff.mp hpairs
    obtain ⟨entry, back, rfl, hentry, hback⟩ := List.map_eq_cons_iff.mp hrest
    refine ⟨entry, ⟨front, back, rfl, hasset _ _ hentry, ?_⟩, hentry⟩
    intro other hother heq
    have hmem : read other ∈ after.map .ok := hback ▸ List.mem_map_of_mem hother
    obtain ⟨pair, hpair, hread⟩ := List.mem_map.mp hmem
    exact hafter pair hpair (Option.some.inj ((hasset _ _ hread.symm).symm.trans heq))
  · rintro ⟨entry, ⟨front, back, rfl, -, hback⟩, hentry⟩
    rw [List.map_append, List.map_cons, hentry] at hpairs
    obtain ⟨before, rest, rfl, -, hrest⟩ := List.map_eq_append_iff.mp hpairs.symm
    obtain ⟨pair, after, rfl, hpair, hafter⟩ := List.map_eq_cons_iff.mp hrest
    obtain rfl := Except.ok.inj hpair
    refine ⟨before, after, rfl, ?_⟩
    intro other hother heq
    have hmem : Except.ok other ∈ back.map read := hafter ▸ List.mem_map_of_mem hother
    obtain ⟨e, he, hread⟩ := List.mem_map.mp hmem
    exact hback e he (by rw [hasset _ _ hread, heq])

/-- The assets of the read entries are those that the entries are for. -/
theorem isSome_get?_ofList_entries {pairs : List (Symbol × RateSource)}
    (hpairs : entries.map read = pairs.map .ok)
    (hasset : ∀ entry pair, read entry = .ok pair → entryAsset? entry = some pair.1)
    {asset : Symbol} :
    ((Table.ofList pairs).get? asset).isSome = true ↔
      ∃ entry ∈ entries, entryAsset? entry = some asset := by
  rw [Table.isSome_get?_ofList_iff]
  constructor
  · rintro ⟨pair, hpair, rfl⟩
    have hmem : Except.ok pair ∈ entries.map read := hpairs ▸ List.mem_map_of_mem hpair
    obtain ⟨entry, hentry, hread⟩ := List.mem_map.mp hmem
    exact ⟨entry, hentry, hasset _ _ hread⟩
  · rintro ⟨entry, hentry, hfor⟩
    have hmem : read entry ∈ pairs.map .ok := hpairs ▸ List.mem_map_of_mem hentry
    obtain ⟨pair, hpair, hread⟩ := List.mem_map.mp hmem
    exact ⟨pair, hpair, Option.some.inj ((hasset _ _ hread.symm).symm.trans hfor)⟩

end

theorem ofFetcherEntry_of_length_ne {entry : List String} (h : entry.length ≠ 2) :
    RateSource.ofFetcherEntry entry = .error (.wrongLength 2 entry.length) := by
  unfold RateSource.ofFetcherEntry
  split
  · exact absurd rfl h
  · rfl

theorem ofFetcherEntry_eq_ok_iff {entry : List String} {pair : Symbol × RateSource} :
    RateSource.ofFetcherEntry entry = .ok pair ↔
      ∃ spelling feed, entry = [spelling, feed] ∧
        pair = (.ofText spelling, ⟨Decimal.notANumber, feed⟩) := by
  constructor
  · intro h
    obtain ⟨spelling, feed, rfl⟩ := exists_ofFetcherEntry_eq_ok_iff.mp ⟨pair, h⟩
    exact ⟨spelling, feed, rfl, (Except.ok.inj h).symm⟩
  · rintro ⟨spelling, feed, rfl, rfl⟩
    rfl

theorem ofFetcherEntry_eq_error_iff {entry : List String} {cause : EntryError} :
    RateSource.ofFetcherEntry entry = .error cause ↔
      entry.length ≠ 2 ∧ cause = .wrongLength 2 entry.length := by
  by_cases hlength : entry.length = 2
  · obtain ⟨asset, source, rfl⟩ := List.length_eq_two.mp hlength
    exact iff_of_false (by rintro ⟨⟩) (fun h => h.1 rfl)
  · simp [ofFetcherEntry_of_length_ne hlength, hlength, eq_comm]

theorem ofConversionEntry_of_length_ne {entry : List String} (h : entry.length ≠ 3) :
    RateSource.ofConversionEntry entry = .error (.wrongLength 3 entry.length) := by
  unfold RateSource.ofConversionEntry
  split
  · exact absurd rfl h
  · rfl

theorem ofConversionEntry_of_number {spelling initialRate feed : String} {rate : Float}
    (h : Decimal.readFloat (trimmed initialRate) = some rate) :
    RateSource.ofConversionEntry [spelling, initialRate, feed] =
      .ok (.ofText spelling, ⟨rate, feed⟩) := by
  unfold RateSource.ofConversionEntry
  rw [trimmed] at h
  simp only [h]

theorem ofConversionEntry_of_no_number {spelling initialRate feed : String}
    (h : Decimal.readFloat (trimmed initialRate) = none) :
    RateSource.ofConversionEntry [spelling, initialRate, feed] =
      .error (.noNumber (trimmed initialRate)) := by
  unfold RateSource.ofConversionEntry
  rw [trimmed] at h
  simp only [h, trimmed]

theorem ofConversionEntry_eq_ok_iff {entry : List String} {pair : Symbol × RateSource} :
    RateSource.ofConversionEntry entry = .ok pair ↔
      ∃ spelling initialRate rate feed, entry = [spelling, initialRate, feed] ∧
        Decimal.readFloat (trimmed initialRate) = some rate ∧
        pair = (.ofText spelling, ⟨rate, feed⟩) := by
  constructor
  · intro h
    obtain ⟨spelling, initialRate, feed, rate, rfl, hrate⟩ :=
      exists_ofConversionEntry_eq_ok_iff.mp ⟨pair, h⟩
    rw [ofConversionEntry_of_number hrate] at h
    exact ⟨spelling, initialRate, rate, feed, rfl, hrate, (Except.ok.inj h).symm⟩
  · rintro ⟨spelling, initialRate, rate, feed, rfl, hrate, rfl⟩
    exact ofConversionEntry_of_number hrate

theorem ofConversionEntry_eq_error_iff {entry : List String} {cause : EntryError} :
    RateSource.ofConversionEntry entry = .error cause ↔
      entry.length ≠ 3 ∧ cause = .wrongLength 3 entry.length ∨
        ∃ asset initialRate source, entry = [asset, initialRate, source] ∧
          ¬ Decimal.IsLiteral (trimmed initialRate).toList ∧
          cause = .noNumber (trimmed initialRate) := by
  simp only [← Decimal.isSome_readFloat_iff]
  constructor
  · intro h
    by_cases hlength : entry.length = 3
    · obtain ⟨asset, initialRate, source, rfl⟩ := List.length_eq_three.mp hlength
      cases hrate : Decimal.readFloat (trimmed initialRate) with
      | some rate => exact nomatch (ofConversionEntry_of_number hrate).symm.trans h
      | none =>
        rw [ofConversionEntry_of_no_number hrate] at h
        exact .inr ⟨asset, initialRate, source, rfl, by simp [hrate], (Except.error.inj h).symm⟩
    · rw [ofConversionEntry_of_length_ne hlength] at h
      exact .inl ⟨hlength, (Except.error.inj h).symm⟩
  · rintro (⟨hlength, rfl⟩ | ⟨asset, initialRate, source, rfl, hrate, rfl⟩)
    · exact ofConversionEntry_of_length_ne hlength
    · exact ofConversionEntry_of_no_number (by simpa using hrate)

theorem exists_ofFetcherEntry_iff {entry : List String} :
    (∃ pair, RateSource.ofFetcherEntry entry = .ok pair) ↔ IsFetcherEntry entry := by
  rw [exists_ofFetcherEntry_eq_ok_iff, IsFetcherEntry, List.length_eq_two]

theorem exists_ofConversionEntry_iff {entry : List String} :
    (∃ pair, RateSource.ofConversionEntry entry = .ok pair) ↔ IsConversionEntry entry := by
  simp only [exists_ofConversionEntry_eq_ok_iff, IsConversionEntry, ← Decimal.isSome_readFloat_iff,
    Option.isSome_iff_exists, trimmed, exists_and_left]

theorem entryAsset?_of_ofFetcherEntry {entry : List String} {pair : Symbol × RateSource}
    (h : RateSource.ofFetcherEntry entry = .ok pair) : entryAsset? entry = some pair.1 := by
  obtain ⟨spelling, feed, rfl, rfl⟩ := ofFetcherEntry_eq_ok_iff.mp h
  rfl

theorem entryAsset?_of_ofConversionEntry {entry : List String} {pair : Symbol × RateSource}
    (h : RateSource.ofConversionEntry entry = .ok pair) : entryAsset? entry = some pair.1 := by
  obtain ⟨spelling, initialRate, rate, feed, rfl, -, rfl⟩ := ofConversionEntry_eq_ok_iff.mp h
  rfl

namespace RateLists

variable {raw : RateLists}

/-- The source that the last conversion entry for an asset gives it. -/
theorem get?_converted {converted : List (Symbol × RateSource)}
    (hconverted : raw.converted.map RateSource.ofConversionEntry = converted.map .ok)
    {asset : Symbol} {source : RateSource} :
    (Table.ofList converted).get? asset = some source ↔
      ∃ spelling initialRate rate feed, LastFor asset raw.converted [spelling, initialRate, feed] ∧
        Decimal.readFloat (trimmed initialRate) = some rate ∧ source = ⟨rate, feed⟩ := by
  rw [get?_ofList_entries hconverted fun _ _ => entryAsset?_of_ofConversionEntry]
  constructor
  · rintro ⟨entry, hlast, hread⟩
    obtain ⟨spelling, initialRate, rate, feed, rfl, hrate, hpair⟩ :=
      ofConversionEntry_eq_ok_iff.mp hread
    exact ⟨spelling, initialRate, rate, feed, hlast, hrate, (Prod.mk.inj hpair).2⟩
  · rintro ⟨spelling, initialRate, rate, feed, hlast, hrate, rfl⟩
    obtain rfl : Symbol.ofText spelling = asset := Option.some.inj hlast.entryAsset?_eq
    exact ⟨_, hlast, ofConversionEntry_of_number hrate⟩

/-- The source that the last fetcher entry for an asset gives it. -/
theorem get?_fetched {fetched : List (Symbol × RateSource)}
    (hfetched : raw.fetched.map RateSource.ofFetcherEntry = fetched.map .ok)
    {asset : Symbol} {source : RateSource} :
    (Table.ofList fetched).get? asset = some source ↔
      ∃ spelling feed, LastFor asset raw.fetched [spelling, feed] ∧
        source = ⟨Decimal.notANumber, feed⟩ := by
  rw [get?_ofList_entries hfetched fun _ _ => entryAsset?_of_ofFetcherEntry]
  constructor
  · rintro ⟨entry, hlast, hread⟩
    obtain ⟨spelling, feed, rfl, hpair⟩ := ofFetcherEntry_eq_ok_iff.mp hread
    exact ⟨spelling, feed, hlast, (Prod.mk.inj hpair).2⟩
  · rintro ⟨spelling, feed, hlast, rfl⟩
    obtain rfl : Symbol.ofText spelling = asset := Option.some.inj hlast.entryAsset?_eq
    exact ⟨_, hlast, rfl⟩

/-- The merged maps of well-formed lists are what the lists mean. -/
theorem means_merge {fetched converted : List (Symbol × RateSource)}
    (hfetched : raw.fetched.map RateSource.ofFetcherEntry = fetched.map .ok)
    (hconverted : raw.converted.map RateSource.ofConversionEntry = converted.map .ok) :
    raw.Means (.merge (.ofList fetched) (.ofList converted)) where
  required asset source := get?_converted hconverted
  global asset source := by
    simp only [RateConfig.merge, Table.get?_override, Option.or_eq_some_iff, get?_fetched hfetched]
  keys asset := by
    rw [Table.mem_keys_iff, RateConfig.merge, Table.get?_override, Option.isSome_or,
      Bool.or_eq_true,
      isSome_get?_ofList_entries hconverted fun _ _ => entryAsset?_of_ofConversionEntry,
      isSome_get?_ofList_entries hfetched fun _ _ => entryAsset?_of_ofFetcherEntry, or_comm]
    simp only [List.mem_append, or_and_right, exists_or]

theorem means_of_resolveLists {config : RateConfig} (h : resolveLists raw = .ok config) :
    raw.Means config := by
  unfold resolveLists at h
  obtain ⟨global, hglobal, h⟩ := bind_eq_ok_iff.mp h
  obtain ⟨required, hrequired, h⟩ := bind_eq_ok_iff.mp h
  obtain rfl : RateConfig.merge global required = config := Except.ok.inj h
  obtain ⟨fetched, hfetched, rfl⟩ := readEntries_eq_ok_iff.mp hglobal
  obtain ⟨converted, hconverted, rfl⟩ := readEntries_eq_ok_iff.mp hrequired
  exact means_merge hfetched hconverted

/-- Lists resolve if all their entries are well formed. -/
theorem exists_resolveLists_iff :
    (∃ config, resolveLists raw = .ok config) ↔
      (∀ entry ∈ raw.fetched, IsFetcherEntry entry) ∧
        ∀ entry ∈ raw.converted, IsConversionEntry entry := by
  simp only [exists_resolveLists_eq_ok_iff, ← exists_ofFetcherEntry_iff,
    ← exists_ofConversionEntry_iff, exists_ofFetcherEntry_eq_ok_iff,
    exists_ofConversionEntry_eq_ok_iff]
  exact ⟨fun h => ⟨h.fetched, h.converted⟩, fun h => ⟨h.1, h.2⟩⟩

/-- The fetched assets are read first, so the error for one of them hides any other. -/
theorem resolveLists_eq_error_iff {error : RateError} :
    resolveLists raw = .error error ↔ raw.FirstFault error := by
  have hread : (∃ table, readEntries RateSource.ofFetcherEntry .fetcherEntry raw.fetched =
      .ok table) ↔ ∀ entry ∈ raw.fetched, IsFetcherEntry entry := by
    simp only [exists_readEntries_eq_ok_iff, exists_ofFetcherEntry_iff]
  unfold resolveLists
  simp only [bind_eq_error_iff, readEntries_eq_error_iff, ofFetcherEntry_eq_error_iff,
    ofConversionEntry_eq_error_iff, exists_ofFetcherEntry_iff, exists_ofConversionEntry_iff,
    pure_ne_error, and_false, exists_false, or_false]
  constructor
  · rintro (⟨before, entry, after, cause, hfetched, hbefore, ⟨hlength, rfl⟩, rfl⟩ |
      ⟨global, hglobal, before, entry, after, cause, hconverted, hbefore,
        ⟨hlength, rfl⟩ | ⟨asset, initialRate, source, rfl, hrate, rfl⟩, rfl⟩)
    · exact .fetched hfetched hbefore hlength
    · exact .converted (hread.mp ⟨global, hglobal⟩) hconverted hbefore hlength
    · exact .rate (hread.mp ⟨global, hglobal⟩) hconverted hbefore hrate
  · rintro (⟨hfetched, hbefore, hlength⟩ | ⟨hfetched, hconverted, hbefore, hlength⟩ |
      ⟨hfetched, hconverted, hbefore, hrate⟩)
    · exact .inl ⟨_, _, _, _, hfetched, hbefore, ⟨hlength, rfl⟩, rfl⟩
    · obtain ⟨global, hglobal⟩ := hread.mpr hfetched
      exact .inr ⟨global, hglobal, _, _, _, _, hconverted, hbefore, .inl ⟨hlength, rfl⟩, rfl⟩
    · obtain ⟨global, hglobal⟩ := hread.mpr hfetched
      exact .inr ⟨global, hglobal, _, _, _, _, hconverted, hbefore,
        .inr ⟨_, _, _, rfl, hrate, rfl⟩, rfl⟩

end RateLists

/-- Raw lists resolve exactly if all their entries are well formed. The configuration then gives an
asset what the last entry for it says, those of converted assets going first, and otherwise the
error is the first fault. -/
theorem resolve_last_entry_or_first_fault (raw : RateLists) :
    ((∃ config, resolve raw none = .ok config) ↔
      (∀ entry ∈ raw.fetched, IsFetcherEntry entry) ∧
        ∀ entry ∈ raw.converted, IsConversionEntry entry) ∧
      (∀ config, resolve raw none = .ok config → raw.Means config) ∧
      ∀ error, resolve raw none = .error error ↔ raw.FirstFault error :=
  ⟨RateLists.exists_resolveLists_iff, fun _ => RateLists.means_of_resolveLists,
    fun _ => RateLists.resolveLists_eq_error_iff⟩

/-- Some assets stand in a list twice, in different spellings, and one of them in both lists. -/
def RateLists.respelled : RateLists where
  fetched := [["btc", "one"], [" Eth", "two"], ["BTC ", "three"]]
  converted := [["eth", " 2 ", "four"], ["ETH", "5e-1", "five"]]

/-- The last entry for an asset counts, whatever its spelling, and the first malformed one is the
error. -/
theorem resolve_respelled :
    (∃ config, resolve .respelled none = .ok config ∧
      config.global.get? (.ofText "ETH") = some ⟨0.5, "five"⟩ ∧
      config.global.get? (.ofText "BTC") = some ⟨Decimal.notANumber, "three"⟩) ∧
    resolve ⟨[["btc", "one"], ["ETH"]], [["eth", "none", "two"]]⟩ none =
      .error (.badConfig (.fetcherEntry ["ETH"] (.wrongLength 2 1))) := by
  have hmeans := (resolve_last_entry_or_first_fault .respelled).2.1 _ rfl
  refine ⟨⟨_, rfl, ?_, ?_⟩, ?_⟩
  · refine (hmeans.global _ _).mpr (.inl ((hmeans.required _ _).mpr ?_))
    exact ⟨"ETH", "5e-1", 0.5, "five", ⟨[_], [], rfl, rfl, by simp⟩, rfl, rfl⟩
  · refine (hmeans.global _ _).mpr (.inr ⟨rfl, ?_⟩)
    exact ⟨"BTC ", "three", ⟨[_, _], [], rfl, rfl, by simp⟩, rfl⟩
  · have hbefore : ∀ e ∈ [["btc", "one"]], IsFetcherEntry e := by simp [IsFetcherEntry]
    exact ((resolve_last_entry_or_first_fault _).2.2 _).mpr (.fetched rfl hbefore (by decide))

end ExchangeRates

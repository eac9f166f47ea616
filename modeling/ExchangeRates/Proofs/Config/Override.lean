import ExchangeRates.Proofs.Config.Resolve
import ExchangeRates.Proofs.Symbol
import ExchangeRates.Proofs.Table

namespace ExchangeRates

/-- Two configurations hold the same, whatever the order in which they are enumerated. -/
structure RateConfig.Same (config other : RateConfig) : Prop where
  required : config.required.get? = other.required.get?
  global : config.global.get? = other.global.get?

namespace RateOverride

/-- Two overrides hold the same, whatever the order in which they are enumerated. -/
structure Same (o other : RateOverride) : Prop where
  required : o.required.get? = other.required.get?
  global : o.global.get? = other.global.get?

theorem map_ofText_keys (t : SourceTable) :
    t.keys.map (fun asset => Symbol.ofText asset.text) = t.keys := by
  simp only [Symbol.ofText_text, List.map_id_fun', id]

theorem normalize_eq (t : SourceTable) : normalize t = t := by
  simp only [normalize, Symbol.ofText_text]
  exact (congrArg Table.ofList (List.map_id _)).trans (Table.ofList_entries t)

/-- The keys of an override are in normal form already, so giving them their normal form again
changes none of them and lets no two of them collide. -/
theorem resolveOverride_eq (o : RateOverride) :
    resolveOverride o = .merge o.global o.required := by
  rw [resolveOverride, normalize_eq, normalize_eq]

/-- What the keys of a map are when they are given their normal form: as many as before, and each of
them what it was. -/
structure KeysKept (t : SourceTable) : Prop where
  unchanged : t.keys.map (fun asset => Symbol.ofText asset.text) = t.keys
  distinct : (t.keys.map fun asset => Symbol.ofText asset.text).Nodup

theorem keysKept (t : SourceTable) : KeysKept t where
  unchanged := map_ofText_keys t
  distinct := (map_ofText_keys t).symm ▸ t.nodup

/-- An override is taken verbatim: its two maps are merged as they are. -/
structure Verbatim (o : RateOverride) (config : RateConfig) : Prop where
  required : config.required = o.required
  /-- The required assets win. -/
  global : ∀ asset, config.global.get? asset = (o.required.get? asset).or (o.global.get? asset)

theorem verbatim_merge (o : RateOverride) : Verbatim o (.merge o.global o.required) where
  required := rfl
  global := Table.get?_override o.global o.required

theorem Same.merge {o other : RateOverride} (h : o.Same other) :
    (RateConfig.merge o.global o.required).Same (.merge other.global other.required) where
  required := h.required
  global := by
    funext asset
    rw [(verbatim_merge o).global, (verbatim_merge other).global, h.required, h.global]

theorem resolve_eq (raw : RateLists) (o : RateOverride) :
    resolve raw (some o) = .ok (.merge o.global o.required) :=
  congrArg Except.ok (resolveOverride_eq o)

/-- Normalizing a symbol again changes nothing, and a symbol is read back from its JSON. So an
override resolves to the merge of its two maps as they are, in place of any raw lists and in
whatever order the maps are enumerated. -/
theorem resolve_override_verbatim :
    (∀ spelling, Symbol.ofText (Symbol.ofText spelling).text = Symbol.ofText spelling) ∧
      (∀ asset : Symbol, Text.IsNormal asset.text.toList ∧
        (Json.ofText? asset.toJson.compactText).bind Symbol.ofJson? = some asset) ∧
      ∀ o : RateOverride, KeysKept o.required ∧ KeysKept o.global ∧
        Verbatim o (.merge o.global o.required) ∧
        (∀ raw, resolve raw (some o) = .ok (.merge o.global o.required)) ∧
        ∀ other, o.Same other → ∀ raw, ∃ config, resolve raw (some other) = .ok config ∧
          (RateConfig.merge o.global o.required).Same config := by
  refine ⟨fun spelling => Symbol.ofText_text _,
    fun asset => ⟨asset.isNormal_text, asset.ofText?_toJson_bind_ofJson?⟩, fun o => ?_⟩
  refine ⟨keysKept o.required, keysKept o.global, verbatim_merge o, fun raw => resolve_eq raw o, ?_⟩
  intro other hsame raw
  exact ⟨_, resolve_eq raw other, hsame.merge⟩

/-- An override with an asset in both of its maps. -/
def respelled : RateOverride where
  required := .ofList [(.ofText "usdc", ⟨1.0, "fast"⟩)]
  global := .ofList [(.ofText "USDC", ⟨2.0, "slow"⟩), (.ofText " straße", .withoutRate "slow")]

/-- The same override, enumerated in another order. -/
def respelledBackward : RateOverride where
  required := .ofList [(.ofText "Usdc ", ⟨1.0, "fast"⟩)]
  global := .ofList [(.ofText "STRASSE", .withoutRate "slow"), (.ofText "usdc", ⟨2.0, "slow"⟩)]

/-- The required entry wins in the other order as well, and the raw lists are not looked at. -/
theorem resolve_respelledBackward :
    ∃ config, resolve ⟨[["BTC"]], []⟩ (some respelledBackward) = .ok config ∧
      config.global.get? (.ofText "usdc") = some ⟨1.0, "fast"⟩ := by
  have hsame : respelled.Same respelledBackward :=
    ⟨rfl, Table.get?_eq_of_perm (.swap _ _ [])⟩
  obtain ⟨-, -, hverbatim, -, horder⟩ := resolve_override_verbatim.2.2 respelled
  obtain ⟨config, hconfig, hglobal⟩ := horder respelledBackward hsame ⟨[["BTC"]], []⟩
  refine ⟨config, hconfig, ?_⟩
  rw [← hglobal.global, hverbatim.global]
  rfl

end RateOverride

end ExchangeRates

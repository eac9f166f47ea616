import ExchangeRates.Proofs.Json.Reread
import ExchangeRates.Proofs.Json.Same
import ExchangeRates.Scenario.Format

namespace ExchangeRates

/-- Values that have been read are written as objects, from which they are read again, and written
the same again. Two values are the `same` if only maps in them are enumerated in other orders. -/
structure RoundTrip {α : Type} (read : Json → Option α) (write : α → Json) (same : α → α → Prop) :
    Prop where
  object : ∀ a, ∃ members, write a = .object members
  again : ∀ {j a b}, read j = some a → same a b → read (write b) = some b
  rewritten : ∀ {a b}, same a b → (write a).Same (write b)

namespace RateLists

theorem entriesOfJson?_entriesToJson (entries : List (List String)) :
    entriesOfJson? (entriesToJson entries) = some entries := by
  rw [entriesOfJson?, entriesToJson, Json.rereads_texts.list entries]
  simp

theorem ofFields?_toMembers (raw : RateLists) :
    ofFields? (some (entriesToJson raw.fetched)) (some (entriesToJson raw.converted)) =
      some raw := by
  change (entriesOfJson? (entriesToJson raw.fetched)).bind (fun fetched =>
    (entriesOfJson? (entriesToJson raw.converted)).bind fun converted =>
      some (RateLists.mk fetched converted)) = _
  rw [entriesOfJson?_entriesToJson, entriesOfJson?_entriesToJson]
  rfl

theorem ofJson?_toJson (raw : RateLists) : ofJson? raw.toJson = some raw :=
  ofFields?_toMembers raw

theorem roundTrip : RoundTrip ofJson? toJson Eq where
  object raw := ⟨_, rfl⟩
  again := by
    rintro j raw _ - rfl
    exact ofJson?_toJson raw
  rewritten := by
    rintro raw _ rfl
    exact .refl _

end RateLists

namespace Probe

theorem rereads : Json.Rereads ofJson? toJson fun p => p.amount.isFinite := by
  intro p
  have hfields : p.toJson.fields? ["amount", "from", "to", "source"] =
      some [some (.ofFloat p.amount), some (.text p.source), some (.text p.target),
        some (.ofOption Json.text p.rateSource)] := rfl
  have hsource : Json.toOption? Json.toText? (.ofOption Json.text p.rateSource) =
      some p.rateSource := by
    rw [Json.rereads_text.option (fun _ => Json.noConfusion) p.rateSource]
    simp
  unfold ofJson?
  rw [hfields]
  change (Json.toFloat? (.ofFloat p.amount)).bind (fun amount =>
    (Json.toOption? Json.toText? (.ofOption Json.text p.rateSource)).bind fun rateSource =>
      some (Probe.mk amount p.source p.target rateSource)) = _
  rw [Json.rereads_float p.amount, hsource]
  split <;> rfl

theorem yields : Json.Yields ofJson? fun p => p.amount.isFinite := by
  intro j p h
  unfold ofJson? at h
  obtain ⟨fields, -, h⟩ := Option.bind_eq_some_iff.mp h
  split at h
  · obtain ⟨amount, hamount, h⟩ := Option.bind_eq_some_iff.mp h
    obtain ⟨source, -, h⟩ := Option.bind_eq_some_iff.mp h
    obtain ⟨target, -, h⟩ := Option.bind_eq_some_iff.mp h
    obtain ⟨rateSource, -, h⟩ := Option.bind_eq_some_iff.mp h
    obtain rfl : Probe.mk amount source target rateSource = p := Option.some.inj h
    exact Json.yields_float.required hamount
  · cases h

theorem roundTrip : RoundTrip ofJson? toJson Eq where
  object p := ⟨_, rfl⟩
  again := by
    rintro j p _ h rfl
    exact rereads.eq_some (yields j p h)
  rewritten := by
    rintro p _ rfl
    exact .refl _

end Probe

namespace WalkProfile

/-- Two profiles are the same, except that their prices may be enumerated in other orders. -/
structure Same (p other : WalkProfile) : Prop where
  name : p.name = other.name
  prices : p.prices.entries.Perm other.prices.entries
  volatility : p.volatility = other.volatility
  warmup : p.warmup = other.warmup
  tick : p.tick = other.tick
  failAfter : p.failAfter = other.failAfter

/-- Whether all floats of a profile are finite. -/
def isFinite (p : WalkProfile) : Bool :=
  p.volatility.isFinite && p.prices.entries.all fun e => e.2.isFinite

theorem Same.isFinite {p other : WalkProfile} (h : p.Same other) (hp : p.isFinite) :
    other.isFinite := by
  rw [WalkProfile.isFinite, Bool.and_eq_true] at hp ⊢
  rw [← h.volatility]
  exact ⟨hp.1, h.prices.all_eq.symm.trans hp.2⟩

theorem all_isFinite {profiles others : List WalkProfile}
    (hsame : List.Forall₂ WalkProfile.Same profiles others)
    (hfinite : profiles.all WalkProfile.isFinite) : others.all WalkProfile.isFinite := by
  induction hsame with
  | nil => rfl
  | cons hfeed _ ih =>
    rw [List.all_cons, Bool.and_eq_true] at hfinite ⊢
    exact ⟨hfeed.isFinite hfinite.1, ih hfinite.2⟩

theorem rereads : Json.Rereads ofJson? toJson isFinite := by
  intro p
  have hfields : p.toJson.fields? fieldNames =
      some [some (.text p.name), some (.ofTable id Json.ofFloat p.prices),
        some (.ofFloat p.volatility), some (.ofNat p.warmup), some (.ofNat p.tick),
        some (.ofOption Json.ofNat p.failAfter)] := rfl
  have hprices : Json.toTable? id Json.toFloat? (.ofTable id Json.ofFloat p.prices) =
      if p.prices.entries.all fun e => e.2.isFinite then some p.prices else none :=
    Json.rereads_float.table (fun _ => rfl) p.prices
  have hfail : Json.toOption? Json.toNat? (.ofOption Json.ofNat p.failAfter) =
      some p.failAfter := by
    rw [Json.rereads_nat.option (fun _ => Json.noConfusion) p.failAfter]
    simp
  unfold ofJson?
  rw [hfields]
  change (Json.toTable? id Json.toFloat? (.ofTable id Json.ofFloat p.prices)).bind (fun prices =>
    (Json.toFloat? (.ofFloat p.volatility)).bind fun volatility =>
      (Json.toNat? (.ofNat p.warmup)).bind fun warmup =>
        (Json.toNat? (.ofNat p.tick)).bind fun tick =>
          (Json.toOption? Json.toNat? (.ofOption Json.ofNat p.failAfter)).bind fun failAfter =>
            some (WalkProfile.mk p.name prices volatility warmup tick failAfter)) = _
  rw [hprices, Json.rereads_float p.volatility, Json.rereads_nat p.warmup,
    Json.rereads_nat p.tick, hfail, isFinite]
  cases p.prices.entries.all _ <;> cases p.volatility.isFinite <;> rfl

theorem yields : Json.Yields ofJson? fun p => p.isFinite := by
  have htable : Json.Yields (Json.toTable? id Json.toFloat?) fun t => ∀ e ∈ t.entries,
      e.2.isFinite := Json.yields_float.table
  intro j p h
  unfold ofJson? at h
  obtain ⟨fields, -, h⟩ := Option.bind_eq_some_iff.mp h
  split at h
  · obtain ⟨name, -, h⟩ := Option.bind_eq_some_iff.mp h
    obtain ⟨prices, hprices, h⟩ := Option.bind_eq_some_iff.mp h
    obtain ⟨volatility, hvolatility, h⟩ := Option.bind_eq_some_iff.mp h
    obtain ⟨warmup, -, h⟩ := Option.bind_eq_some_iff.mp h
    obtain ⟨tick, -, h⟩ := Option.bind_eq_some_iff.mp h
    obtain ⟨failAfter, -, h⟩ := Option.bind_eq_some_iff.mp h
    obtain rfl : WalkProfile.mk name prices volatility warmup tick failAfter = p :=
      Option.some.inj h
    have husual : usualVolatility.isFinite := by decide
    rw [isFinite, Bool.and_eq_true, List.all_eq_true]
    exact ⟨Json.yields_float.optional husual hvolatility, htable.required hprices⟩
  · cases h

theorem Same.rewritten {p other : WalkProfile} (h : p.Same other) :
    p.toJson.Same other.toJson := by
  have hprices : (Json.ofTable id Json.ofFloat p.prices).Same
      (.ofTable id Json.ofFloat other.prices) := .of_perm (h.prices.map _)
  rw [toJson, toJson, h.name, h.volatility, h.warmup, h.tick, h.failAfter]
  exact .object (.refl _) (.cons (.refl _) (.cons hprices (.refl _)))

theorem roundTrip : RoundTrip ofJson? toJson Same where
  object _ := ⟨_, rfl⟩
  again h hsame := rereads.eq_some (hsame.isFinite (yields _ _ h))
  rewritten := Same.rewritten

end WalkProfile

theorem Json.areSoundItems_of_forall {items : List Json} (h : ∀ item ∈ items, item.isSound) :
    areSoundItems items = true := by
  induction items with
  | nil => rfl
  | cons item items ih =>
    rw [List.forall_mem_cons] at h
    rw [areSoundItems, h.1, ih h.2, Bool.and_self]

theorem Json.depthItems_le_of_forall {n : Nat} {items : List Json}
    (h : ∀ item ∈ items, item.depth ≤ n) : depthItems items ≤ n := by
  induction items with
  | nil => exact Nat.zero_le n
  | cons item items ih =>
    rw [List.forall_mem_cons] at h
    rw [depthItems]
    exact Nat.max_le.mpr ⟨h.1, ih h.2⟩

namespace Scenario

theorem isSound_entriesToJson (entries : List (List String)) :
    (RateLists.entriesToJson entries).isSound = true := by
  refine Json.areSoundItems_of_forall fun item hitem => ?_
  obtain ⟨texts, -, rfl⟩ := List.mem_map.mp hitem
  refine Json.areSoundItems_of_forall fun item hitem => ?_
  obtain ⟨text, -, rfl⟩ := List.mem_map.mp hitem
  rfl

theorem depth_entriesToJson (entries : List (List String)) :
    (RateLists.entriesToJson entries).depth ≤ 2 := by
  refine Nat.succ_le_succ (Json.depthItems_le_of_forall fun item hitem => ?_)
  obtain ⟨texts, -, rfl⟩ := List.mem_map.mp hitem
  refine Nat.succ_le_succ (Json.depthItems_le_of_forall fun item hitem => ?_)
  obtain ⟨text, -, rfl⟩ := List.mem_map.mp hitem
  exact Nat.le_refl 0

theorem canBeKept_entriesToJson (entries : List (List String)) :
    canBeKept (RateLists.entriesToJson entries) = true := by
  have hdepth : (RateLists.entriesToJson entries).depth ≤ maxDepth :=
    Nat.le_trans (depth_entriesToJson entries) (by decide)
  rw [canBeKept, isSound_entriesToJson, Bool.true_and, decide_eq_true_iff]
  exact hdepth

/-- Two scenarios are the same, except that prices may be enumerated in other orders. -/
structure Same (s other : Scenario) : Prop where
  name : s.name = other.name
  description : s.description = other.description
  rates : s.rates = other.rates
  feeds : List.Forall₂ WalkProfile.Same s.feeds other.feeds
  probes : s.probes = other.probes

/-- Whether all floats of a scenario are finite. -/
def isFinite (s : Scenario) : Bool :=
  s.feeds.all WalkProfile.isFinite && s.probes.all fun p => p.amount.isFinite

theorem Same.isFinite {s other : Scenario} (h : s.Same other) (hs : s.isFinite) :
    other.isFinite := by
  rw [Scenario.isFinite, Bool.and_eq_true] at hs ⊢
  exact ⟨WalkProfile.all_isFinite h.feeds hs.1, h.probes ▸ hs.2⟩

/-- The members of the object that a scenario is written as. -/
def toMembers (s : Scenario) : List (String × Json) :=
  [("name", .text s.name), ("description", .text s.description)] ++ s.rates.toMembers ++
    [("feeds", .array (s.feeds.map WalkProfile.toJson)),
      ("conversions", .array (s.probes.map Probe.toJson))]

/-- The rate lists of a scenario may be kept aside. -/
theorem all_toMembers (s : Scenario) :
    (s.toMembers.all fun m => memberNames.contains m.1 || canBeKept m.2) = true := by
  have hrates : (s.rates.toMembers.all fun m => memberNames.contains m.1 || canBeKept m.2) =
      true := by
    rw [RateLists.toMembers, List.all_cons, List.all_cons, canBeKept_entriesToJson,
      canBeKept_entriesToJson]
    rfl
  rw [toMembers, List.all_append, List.all_append, hrates]
  rfl

theorem rereads : Json.Rereads ofJson? toJson isFinite := by
  intro s
  have hmembers : memberNames.mapM (Json.onlyMember? s.toMembers) =
      some [some (.text s.name), some (.text s.description),
        some (.array (s.feeds.map WalkProfile.toJson)),
        some (.array (s.probes.map Probe.toJson))] := rfl
  have hrates : RateLists.fieldNames.mapM (Json.onlyMember? s.toMembers) =
      some [some (RateLists.entriesToJson s.rates.fetched),
        some (RateLists.entriesToJson s.rates.converted)] := rfl
  have hfeeds : Json.toList? WalkProfile.ofJson? (.array (s.feeds.map WalkProfile.toJson)) =
      if s.feeds.all WalkProfile.isFinite then some s.feeds else none :=
    WalkProfile.rereads.list s.feeds
  have hprobes : Json.toList? Probe.ofJson? (.array (s.probes.map Probe.toJson)) =
      if s.probes.all fun p => p.amount.isFinite then some s.probes else none :=
    Probe.rereads.list s.probes
  change ofJson? (.object s.toMembers) = _
  unfold ofJson?
  dsimp only
  rw [all_toMembers, hmembers, hrates]
  change (RateLists.ofFields? (some (RateLists.entriesToJson s.rates.fetched))
      (some (RateLists.entriesToJson s.rates.converted))).bind (fun rates =>
    (Json.toList? WalkProfile.ofJson? (.array (s.feeds.map WalkProfile.toJson))).bind fun feeds =>
      (Json.toList? Probe.ofJson? (.array (s.probes.map Probe.toJson))).bind fun probes =>
        some (Scenario.mk s.name s.description rates feeds probes)) = _
  rw [RateLists.ofFields?_toMembers, hfeeds, hprobes, isFinite]
  cases s.feeds.all _ <;> cases s.probes.all _ <;> rfl

theorem yields : Json.Yields ofJson? fun s => s.isFinite := by
  intro j s h
  unfold ofJson? at h
  split at h
  · obtain ⟨-, -, h⟩ := Option.bind_eq_some_iff.mp h
    obtain ⟨members, -, h⟩ := Option.bind_eq_some_iff.mp h
    obtain ⟨lists, -, h⟩ := Option.bind_eq_some_iff.mp h
    split at h
    · obtain ⟨name, -, h⟩ := Option.bind_eq_some_iff.mp h
      obtain ⟨description, -, h⟩ := Option.bind_eq_some_iff.mp h
      obtain ⟨rates, -, h⟩ := Option.bind_eq_some_iff.mp h
      obtain ⟨feeds, hfeeds, h⟩ := Option.bind_eq_some_iff.mp h
      obtain ⟨probes, hprobes, h⟩ := Option.bind_eq_some_iff.mp h
      obtain rfl : Scenario.mk name description rates feeds probes = s := Option.some.inj h
      rw [isFinite, Bool.and_eq_true, List.all_eq_true, List.all_eq_true]
      exact ⟨WalkProfile.yields.list.required hfeeds,
        Probe.yields.list.optional (List.forall_mem_nil _) hprobes⟩
    · cases h
  · cases h

theorem Same.rewritten {s other : Scenario} (h : s.Same other) : s.toJson.Same other.toJson := by
  have hfeeds : (Json.array (s.feeds.map WalkProfile.toJson)).Same
      (.array (other.feeds.map WalkProfile.toJson)) := by
    have hfeed : ∀ p other : WalkProfile, p.Same other → p.toJson.Same other.toJson :=
      fun _ _ => WalkProfile.Same.rewritten
    exact .array (.of_forall₂ hfeed h.feeds)
  rw [toJson, toJson, h.name, h.description, h.rates, h.probes]
  exact .object (.refl _) (.cons (.refl _) (.cons (.refl _) (.cons (.refl _) (.cons (.refl _)
    (.cons hfeeds (.refl _))))))

theorem roundTrip : RoundTrip ofJson? toJson Same where
  object _ := ⟨_, rfl⟩
  again h hsame := rereads.eq_some (hsame.isFinite (yields _ _ h))
  rewritten := Same.rewritten

end Scenario

/-- A scenario that has been read from any JSON is read again from what is written of it, and so are
its feeds, its probes and its rate lists. -/
theorem scenario_roundTrip :
    RoundTrip Scenario.ofJson? Scenario.toJson Scenario.Same ∧
      RoundTrip WalkProfile.ofJson? WalkProfile.toJson WalkProfile.Same ∧
      RoundTrip Probe.ofJson? Probe.toJson Eq ∧ RoundTrip RateLists.ofJson? RateLists.toJson Eq :=
  ⟨Scenario.roundTrip, WalkProfile.roundTrip, Probe.roundTrip, RateLists.roundTrip⟩

namespace Scenario

/-- A scenario with an unknown member and without most of the others. -/
def sparse : Json :=
  .object [("comment", .array [.null]),
    ("feeds", .array [.object [("prices", .object [("btc", .number (.integer 2)),
      ("BTC", .number (.float 1.5))]), ("fail_after_ticks", .null), ("name", .text "feedX")]]),
    ("exchange_rate_fetcher", .array [.array [.text "BTC", .text "feedX"]]),
    ("name", .text "file")]

/-- That scenario, with the prices of its feed enumerated in some order. -/
def ofSparse (prices : List (String × Float)) : Scenario where
  name := "file"
  description := ""
  rates := ⟨[["BTC", "feedX"]], []⟩
  feeds := [.new "feedX" (.ofList prices)]
  probes := []

/-- Members that are missing get their defaults, and the prices of a feed keep their spellings. -/
theorem reread_sparse :
    ofJson? sparse = some (ofSparse [("btc", 2.0), ("BTC", 1.5)]) ∧
      ofJson? (ofSparse [("BTC", 1.5), ("btc", 2.0)]).toJson =
        some (ofSparse [("BTC", 1.5), ("btc", 2.0)]) := by
  have hread : ofJson? sparse = some (ofSparse [("btc", 2.0), ("BTC", 1.5)]) := rfl
  have hfeed : (WalkProfile.new "feedX" (.ofList [("btc", 2.0), ("BTC", 1.5)])).Same
      (.new "feedX" (.ofList [("BTC", 1.5), ("btc", 2.0)])) :=
    ⟨rfl, .swap _ _ [], rfl, rfl, rfl, rfl⟩
  exact ⟨hread, scenario_roundTrip.1.again hread ⟨rfl, rfl, rfl, .cons hfeed .nil, rfl⟩⟩

end Scenario

end ExchangeRates

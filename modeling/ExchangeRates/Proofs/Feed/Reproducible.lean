import ExchangeRates.Proofs.Feed.Walk
import ExchangeRates.Proofs.Scenario.Format

namespace ExchangeRates

/-- The draws of random words, as a seed gives them. -/
def Draws.ofWords (words : Nat → UInt64) : Draws := fun i => ofWord (words i)

namespace WalkProfile

variable {p other : WalkProfile}

/-- Two spellings of one asset have the same price. -/
def Consistent (p : WalkProfile) : Prop :=
  ∀ spelling price other otherPrice, p.prices.get? spelling = some price →
    p.prices.get? other = some otherPrice → Symbol.ofText spelling = Symbol.ofText other →
      price = otherPrice

/-- A feed that is built from a profile, in whatever order the prices of the profile and those of
the feed are enumerated. -/
def Builds (p : WalkProfile) (draws : Draws) (f : WalkingFeed) : Prop :=
  ∃ other prices, p.Same other ∧ (WalkingFeed.startPrices other).entries.Perm prices.entries ∧
    f = { WalkingFeed.new other draws with prices }

/-- A profile and random draws determine the prices of a feed after any number of ticks. -/
def Determined (p : WalkProfile) : Prop :=
  ∀ words f g ticks others, p.Builds (.ofWords words) f → p.Builds (.ofWords words) g →
    ticks.length = others.length →
      (f.ticked ticks).prices.get? = (g.ticked others).prices.get?

/-- Draws leave no mark on a price. -/
def Unmarked (volatility price : Float) : Prop :=
  ∀ words others n, Walk.priceAfter volatility (.ofWords words) price n =
    Walk.priceAfter volatility (.ofWords others) price n

theorem Same.refl (p : WalkProfile) : p.Same p := ⟨rfl, .refl _, rfl, rfl, rfl, rfl⟩

theorem Same.consistent (h : p.Same other) (hp : p.Consistent) : other.Consistent := by
  rw [Consistent, ← Table.get?_eq_of_perm h.prices]
  exact hp

theorem Same.moves_eq (h : p.Same other) : other.moves = p.moves := by
  rw [moves, moves, h.volatility]

theorem exists_spelling {asset : Symbol} {price : Float}
    (h : (WalkingFeed.startPrices p).get? asset = some price) :
    ∃ spelling, p.prices.get? spelling = some price ∧ Symbol.ofText spelling = asset := by
  obtain ⟨e, he, heq⟩ := List.mem_map.mp (Table.mem_of_get?_ofList h)
  obtain ⟨rfl, rfl⟩ := Prod.mk.inj heq
  exact ⟨e.1, Table.mem_entries_iff.mp he, rfl⟩

/-- The prices of a consistent profile, by any spelling. -/
theorem Consistent.get?_startPrices (hp : p.Consistent) {asset : Symbol} {price : Float} :
    (WalkingFeed.startPrices p).get? asset = some price ↔
      ∃ spelling, p.prices.get? spelling = some price ∧ Symbol.ofText spelling = asset := by
  constructor
  · exact exists_spelling
  · rintro ⟨spelling, hprice, rfl⟩
    have hentry : ∃ e ∈ p.prices.entries.map fun e => (Symbol.ofText e.1, e.2),
        e.1 = Symbol.ofText spelling :=
      ⟨_, List.mem_map_of_mem (Table.mem_entries_iff.mpr hprice), rfl⟩
    obtain ⟨found, hfound⟩ := Option.isSome_iff_exists.mp (Table.isSome_get?_ofList_iff.mpr hentry)
    obtain ⟨last, hlast, hsame⟩ := exists_spelling hfound
    rw [hp spelling price last found hprice hlast hsame.symm]
    exact hfound

theorem Consistent.startPrices_eq (hp : p.Consistent) (h : p.Same other) :
    (WalkingFeed.startPrices other).get? = (WalkingFeed.startPrices p).get? := by
  funext asset
  ext price
  rw [hp.get?_startPrices, (h.consistent hp).get?_startPrices, Table.get?_eq_of_perm h.prices]

/-- What is known of a feed that has been built. -/
structure Fresh (p : WalkProfile) (draws : Draws) (f : WalkingFeed) : Prop where
  volatility : f.profile.volatility = p.volatility
  moves : f.profile.moves = p.moves
  draws : f.draws = draws
  drawn : f.drawn = 0
  prices : f.prices.get? = (WalkingFeed.startPrices p).get?

theorem Consistent.fresh (hp : p.Consistent) {draws : Draws} {f : WalkingFeed}
    (h : p.Builds draws f) : p.Fresh draws f := by
  obtain ⟨other, prices, hsame, hperm, rfl⟩ := h
  refine ⟨hsame.volatility.symm, hsame.moves_eq, rfl, rfl, ?_⟩
  rw [← hp.startPrices_eq hsame]
  exact (Table.get?_eq_of_perm hperm).symm

theorem Fresh.size_eq {draws : Draws} {f : WalkingFeed} (h : p.Fresh draws f) :
    f.prices.size = (WalkingFeed.startPrices p).size :=
  (Table.perm_of_get?_eq h.prices).length_eq

/-- The price at a place after some ticks. -/
theorem Fresh.get?_ticked {draws : Draws} {f : WalkingFeed} (h : p.Fresh draws f)
    (hmoves : p.moves) {i : Nat} {asset : Symbol} {price : Float}
    (hplace : f.prices.entries[i]? = some (asset, price)) (ticks : List (Instant × Nat)) :
    (f.ticked ticks).prices.get? asset = some (Walk.priceAfter p.volatility
      (draws.atPlace (WalkingFeed.startPrices p).size i) price ticks.length) := by
  have hnone : draws.drop 0 = draws := funext fun n => congrArg draws (Nat.zero_add n)
  have hprices := WalkingFeed.prices_ticked (h.moves.trans hmoves) ticks
  rw [hprices, WalkingFeed.pricesAfter, Table.get?_mapIdx hplace, h.volatility, h.draws, h.drawn,
    h.size_eq, hnone]

/-- Feeds of a consistent profile whose prices do not move keep equal prices. -/
theorem Consistent.determined_of_not_moves (hp : p.Consistent) (hmoves : p.moves = false) :
    p.Determined := by
  intro words f g ticks others hf hg _
  have hfresh := hp.fresh hf
  have hother := hp.fresh hg
  rw [WalkingFeed.prices_ticked_of_not_moves (hfresh.moves.trans hmoves),
    WalkingFeed.prices_ticked_of_not_moves (hother.moves.trans hmoves), hfresh.prices,
    hother.prices]

/-- The prices are determined if a price does not depend on the place that it is enumerated at. -/
theorem Consistent.determined_of_places (hp : p.Consistent) (hmoves : p.moves)
    (h : ∀ words i j asset price n, (WalkingFeed.startPrices p).get? asset = some price →
      i < (WalkingFeed.startPrices p).size → j < (WalkingFeed.startPrices p).size →
        Walk.priceAfter p.volatility
            ((Draws.ofWords words).atPlace (WalkingFeed.startPrices p).size i) price n =
          Walk.priceAfter p.volatility
            ((Draws.ofWords words).atPlace (WalkingFeed.startPrices p).size j) price n) :
    p.Determined := by
  intro words f g ticks others hf hg hlength
  have hfresh := hp.fresh hf
  have hother := hp.fresh hg
  funext asset
  cases hstart : (WalkingFeed.startPrices p).get? asset with
  | none =>
    have hnone : ∀ {f : WalkingFeed} (ticks : List (Instant × Nat)), p.Fresh (.ofWords words) f →
        (f.ticked ticks).prices.get? asset = none := by
      intro f ticks hfresh
      rw [WalkingFeed.prices_ticked (hfresh.moves.trans hmoves), WalkingFeed.pricesAfter,
        Table.get?_mapIdx_eq_none_iff, hfresh.prices]
      exact hstart
    rw [hnone ticks hfresh, hnone others hother]
  | some price =>
    obtain ⟨i, hi⟩ := Table.exists_place_iff.mpr ((congrFun hfresh.prices asset).trans hstart)
    obtain ⟨j, hj⟩ := Table.exists_place_iff.mpr ((congrFun hother.prices asset).trans hstart)
    have hibound := (List.getElem?_eq_some_iff.mp hi).1
    have hjbound := (List.getElem?_eq_some_iff.mp hj).1
    rw [hfresh.get?_ticked hmoves hi, hother.get?_ticked hmoves hj, hlength]
    congr 1
    apply h _ _ _ _ _ _ hstart
    · exact hfresh.size_eq ▸ hibound
    · exact hother.size_eq ▸ hjbound

/-- Any spelling may be the one that is enumerated last. -/
theorem exists_builds_last {spelling : String} {price : Float} (draws : Draws)
    (h : p.prices.get? spelling = some price) :
    ∃ f, p.Builds draws f ∧ f.prices.get? (.ofText spelling) = some price := by
  obtain ⟨l, hfirst⟩ := Table.exists_perm_cons h
  have hperm : p.prices.entries.Perm (l ++ [(spelling, price)]) :=
    hfirst.trans (List.perm_append_singleton _ _).symm
  let other : WalkProfile := { p with prices := p.prices.reorder _ hperm }
  refine ⟨.new other draws, ⟨other, _, ⟨rfl, hperm, rfl, rfl, rfl, rfl⟩, .refl _, rfl⟩, ?_⟩
  have hlast : (l ++ [(spelling, price)]).map (fun e => (Symbol.ofText e.1, e.2)) =
      l.map (fun e => (Symbol.ofText e.1, e.2)) ++ (Symbol.ofText spelling, price) :: [] :=
    List.map_append
  exact Table.get?_ofList_eq_some_iff.mpr ⟨_, [], hlast, List.forall_mem_nil _⟩

theorem Determined.consistent (h : p.Determined) : p.Consistent := by
  intro spelling price other otherPrice hprice hother hsame
  obtain ⟨f, hf, hfirst⟩ := exists_builds_last (.ofWords fun _ => 0) hprice
  obtain ⟨g, hg, hsecond⟩ := exists_builds_last (.ofWords fun _ => 0) hother
  have hget : f.prices.get? = g.prices.get? := h _ f g [] [] hf hg rfl
  rw [hget, hsame, hsecond] at hfirst
  exact (Option.some.inj hfirst).symm

theorem builds_reorder (draws : Draws) {l : List (Symbol × Float)}
    (hperm : (WalkingFeed.startPrices p).entries.Perm l) :
    p.Builds draws
      { WalkingFeed.new p draws with prices := (WalkingFeed.startPrices p).reorder l hperm } :=
  ⟨p, _, .refl p, hperm, rfl⟩

/-- Words for several places, of which the first gets those of one sequence and the others get those
of another. -/
def deal (size : Nat) (words others : Nat → UInt64) (i : Nat) : UInt64 :=
  if i % size = 0 then words (i / size) else others (i / size)

theorem ofWords_deal_first {size : Nat} (hsize : 2 ≤ size) (words others : Nat → UInt64) :
    (Draws.ofWords (deal size words others)).atPlace size 0 = .ofWords words := by
  funext t
  have hplace : (t * size + 0) % size = 0 := by simp
  have htick : (t * size + 0) / size = t := by
    rw [Nat.add_zero]
    exact Nat.mul_div_cancel t (by omega)
  simp only [Draws.atPlace, Draws.ofWords, deal, if_pos hplace, htick]

theorem ofWords_deal_second {size : Nat} (hsize : 2 ≤ size) (words others : Nat → UInt64) :
    (Draws.ofWords (deal size words others)).atPlace size 1 = .ofWords others := by
  funext t
  have hone : 1 < size := hsize
  have hplace : (t * size + 1) % size ≠ 0 := by
    rw [Nat.mul_add_mod_self_right, Nat.mod_eq_of_lt hone]
    exact Nat.one_ne_zero
  have htick : (t * size + 1) / size = t := by
    rw [Nat.add_comm, Nat.add_mul_div_right _ _ (by omega), Nat.div_eq_of_lt hone, Nat.zero_add]
  simp only [Draws.atPlace, Draws.ofWords, deal, if_neg hplace, htick]

/-- Two prices may exchange their draws, so each must be the same with those of the other. -/
theorem Determined.unmarked (h : p.Determined) (hmoves : p.moves)
    (hsize : 2 ≤ (WalkingFeed.startPrices p).size) {asset : Symbol} {price : Float}
    (hprice : (WalkingFeed.startPrices p).get? asset = some price) :
    Unmarked p.volatility price := by
  intro words others n
  obtain ⟨e, rest, hfirst, hsecond⟩ := Table.exists_perm_cons_cons hprice hsize
  have hf := builds_reorder
    (.ofWords (deal (WalkingFeed.startPrices p).size words others)) hfirst
  have hg := builds_reorder
    (.ofWords (deal (WalkingFeed.startPrices p).size words others)) hsecond
  have hsame := congrFun
    (h _ _ _ (List.replicate n (0, 0)) (List.replicate n (0, 0)) hf hg rfl) asset
  rw [(h.consistent.fresh hf).get?_ticked (i := 0) hmoves rfl (List.replicate n (0, 0)),
    (h.consistent.fresh hg).get?_ticked (i := 1) hmoves rfl (List.replicate n (0, 0)),
    ofWords_deal_first hsize, ofWords_deal_second hsize, List.length_replicate] at hsame
  exact Option.some.inj hsame

/-- A profile and random draws determine the prices of a feed exactly if two spellings of one asset
have the same price and, where there are several assets whose prices move, draws leave no mark on
any of the prices. -/
theorem determined_iff (p : WalkProfile) :
    p.Determined ↔ p.Consistent ∧ (p.moves = false ∨ (WalkingFeed.startPrices p).size ≤ 1 ∨
      ∀ asset price, (WalkingFeed.startPrices p).get? asset = some price →
        Unmarked p.volatility price) := by
  constructor
  · intro h
    refine ⟨h.consistent, ?_⟩
    by_cases hmoves : p.moves
    · by_cases hsize : (WalkingFeed.startPrices p).size ≤ 1
      · exact .inr (.inl hsize)
      · exact .inr (.inr fun _ _ => h.unmarked hmoves (by omega))
    · exact .inl (Bool.not_eq_true _ ▸ hmoves)
  · rintro ⟨hp, h⟩
    by_cases hmoves : p.moves
    · refine hp.determined_of_places hmoves ?_
      intro words i j asset price n hprice hi hj
      rcases h with hstill | hsize | hunmarked
      · rw [hmoves] at hstill
        cases hstill
      · obtain rfl : i = j := by omega
        rfl
      · exact hunmarked asset price hprice _ _ n
    · exact hp.determined_of_not_moves (Bool.not_eq_true _ ▸ hmoves)

/-- One asset in two spellings. -/
def twoSpellings : WalkProfile := .new "feedX" (.ofList [("btc", 1.0), ("BTC", 2.0)])

/-- Two assets of one price. -/
def twoAssets : WalkProfile := .new "feedX" (.ofList [("BTC", 1.0), ("ETH", 1.0)])

/-- Neither two prices of one asset nor two assets that may exchange their draws determine the
prices of a feed. -/
theorem exists_not_determined : ¬ twoSpellings.Determined ∧ ¬ twoAssets.Determined := by
  constructor
  · intro h
    have hprice : (1.0 : Float) = 2.0 := h.consistent "btc" 1.0 "BTC" 2.0 rfl rfl rfl
    have hbelow := congrArg (fun price => decide (price < (2.0 : Float))) hprice
    revert hbelow
    decide
  · intro h
    have hprice : (WalkingFeed.startPrices twoAssets).get? (.ofText "BTC") = some 1.0 := rfl
    have hmark := h.unmarked rfl (by decide) hprice
    -- The least draw lowers the price, and one in the middle does not.
    have hmoved := hmark (fun _ => 0) (fun _ => 0x8000000000000000) 1
    have hbelow := congrArg (fun price => decide (price < (1.0 : Float))) hmoved
    revert hbelow
    decide +kernel

end WalkProfile

end ExchangeRates

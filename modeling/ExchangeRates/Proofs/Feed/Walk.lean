import ExchangeRates.Feed.Walking
import ExchangeRates.Proofs.Table

namespace ExchangeRates

/-- The draws that are left when some have been used. -/
def Draws.drop (draws : Draws) (count : Nat) : Draws := fun n => draws (count + n)

/-- The draws that a place gets if several places take one each, again and again. -/
def Draws.atPlace (draws : Draws) (size place : Nat) : Draws := fun n => draws (n * size + place)

namespace Walk

/-- A price after some moves, by the changes that the draws of a sequence stand for. -/
def priceAfter (volatility : Float) (draws : Draws) (price : Float) : (moves : Nat) → Float
  | 0 => price
  | n + 1 => movePrice (priceAfter volatility draws price n) (change volatility (draws n))

end Walk

/-- Whether the prices of a profile are moved by ticks. -/
def WalkProfile.moves (p : WalkProfile) : Bool :=
  !(p.volatility ≤ 0.0) && Walk.isDrawable p.volatility

namespace WalkingFeed

variable {f g h : WalkingFeed} {n : Nat}

/-- The feed after some ticks, each at an instant and by a task. -/
def ticked (f : WalkingFeed) (ticks : List (Instant × Nat)) : WalkingFeed :=
  ticks.foldl (fun f tick => (f.tick tick.1 tick.2).1) f

/-- All prices of a feed have moved once, each by its own draw. -/
structure Moved (f g : WalkingFeed) : Prop where
  profile : g.profile = f.profile
  draws : g.draws = f.draws
  prices : g.prices = Walk.movePrices f.profile.volatility (f.draws.drop f.drawn) f.prices
  drawn : g.drawn = f.drawn + f.prices.size

theorem moved_walk (hmoves : f.profile.moves) : f.Moved f.walk := by
  rw [WalkProfile.moves, Bool.and_eq_true] at hmoves
  unfold walk
  split
  · exact ⟨rfl, rfl, rfl, rfl⟩
  · next hmoving =>
    -- Only a feed without prices does not move then, and it takes no draws.
    have hempty : f.prices.entries = [] := by
      rw [isMoving, hmoves.1, Bool.true_and, Bool.not_eq_true', Bool.not_eq_false] at hmoving
      exact List.isEmpty_iff.mp hmoving
    refine ⟨rfl, rfl, Table.ext_entries ?_, ?_⟩
    · simp [Walk.movePrices, Table.mapIdx, hempty]
    · simp [Table.size, hempty]

theorem moved_tick (hmoves : f.profile.moves) (now : Instant) (i : Nat) :
    f.Moved (f.tick now i).1 := by
  have hdrawable : Walk.isDrawable f.profile.volatility = true := by
    rw [WalkProfile.moves, Bool.and_eq_true] at hmoves
    exact hmoves.2
  have hwalk := moved_walk hmoves
  unfold tick
  rw [hdrawable, Bool.not_true, Bool.and_false]
  exact ⟨hwalk.profile, hwalk.draws, hwalk.prices, hwalk.drawn⟩

/-- A tick that does not move the prices changes none of them. -/
theorem tick_of_not_moves (hmoves : f.profile.moves = false) (now : Instant) (i : Nat) :
    (f.tick now i).1.profile = f.profile ∧ (f.tick now i).1.prices = f.prices := by
  unfold tick
  split
  · exact ⟨rfl, rfl⟩
  · next hdraws =>
    have hmoving : f.isMoving = false := by
      rw [WalkProfile.moves, Bool.and_eq_false_iff] at hmoves
      rw [Bool.and_eq_true, Bool.not_eq_true', not_and, Bool.not_eq_false] at hdraws
      rcases hmoves with hstill | hdrawable
      · rw [isMoving, hstill, Bool.false_and]
      · by_contra hmoving
        rw [Bool.not_eq_false] at hmoving
        rw [hdraws hmoving] at hdrawable
        cases hdrawable
    have hwalk : f.walk = f := by
      rw [walk, hmoving]
      rfl
    dsimp only
    rw [hwalk]
    exact ⟨rfl, rfl⟩

/-- The prices after some ticks, by the prices and draws before them. -/
def pricesAfter (f : WalkingFeed) (n : Nat) : Rates :=
  f.prices.mapIdx fun i _ price =>
    Walk.priceAfter f.profile.volatility ((f.draws.drop f.drawn).atPlace f.prices.size i) price n

/-- A feed has gone on by some ticks. -/
structure Walked (f : WalkingFeed) (n : Nat) (g : WalkingFeed) : Prop where
  profile : g.profile = f.profile
  draws : g.draws = f.draws
  prices : g.prices = f.pricesAfter n
  drawn : g.drawn = f.drawn + n * f.prices.size

theorem Walked.move (hwalked : f.Walked n g) (hmoved : g.Moved h) : f.Walked (n + 1) h where
  profile := hmoved.profile.trans hwalked.profile
  draws := hmoved.draws.trans hwalked.draws
  prices := by
    rw [hmoved.prices, hwalked.prices, hwalked.profile, hwalked.draws, hwalked.drawn, pricesAfter,
      Walk.movePrices, Table.mapIdx_mapIdx, pricesAfter]
    simp only [Draws.drop, Nat.add_assoc]
    rfl
  drawn := by
    rw [hmoved.drawn, hwalked.drawn, hwalked.prices, pricesAfter, Table.size_mapIdx, Nat.add_assoc,
      Nat.succ_mul]

theorem Walked.ticked (hmoves : f.profile.moves) (hwalked : f.Walked n g)
    (ticks : List (Instant × Nat)) : f.Walked (n + ticks.length) (g.ticked ticks) := by
  induction ticks generalizing n g with
  | nil => exact hwalked
  | cons tick ticks ih =>
    have hmoved : g.Moved (g.tick tick.1 tick.2).1 :=
      moved_tick (hwalked.profile ▸ hmoves) tick.1 tick.2
    rw [List.length_cons, Nat.add_comm ticks.length, ← Nat.add_assoc]
    exact ih (hwalked.move hmoved)

/-- Ticks move every price by the draws of its place. -/
theorem prices_ticked (hmoves : f.profile.moves) (ticks : List (Instant × Nat)) :
    (f.ticked ticks).prices = f.pricesAfter ticks.length := by
  have hnone : f.Walked 0 f := ⟨rfl, rfl, (Table.mapIdx_self f.prices).symm, by simp⟩
  rw [← Nat.zero_add ticks.length]
  exact (hnone.ticked hmoves ticks).prices

/-- A feed whose prices are not moved by ticks keeps them. -/
theorem prices_ticked_of_not_moves (hmoves : f.profile.moves = false)
    (ticks : List (Instant × Nat)) : (f.ticked ticks).prices = f.prices := by
  induction ticks generalizing f with
  | nil => rfl
  | cons tick ticks ih =>
    obtain ⟨hprofile, hprices⟩ := tick_of_not_moves hmoves tick.1 tick.2
    have hrest := ih (hprofile ▸ hmoves)
    rw [← hprices, ← hrest]
    rfl

end WalkingFeed

end ExchangeRates

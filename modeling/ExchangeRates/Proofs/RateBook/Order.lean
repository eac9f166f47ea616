import ExchangeRates.Proofs.RateBook.Account
import ExchangeRates.Proofs.Table
import Mathlib.Data.List.Pairwise
import Mathlib.Data.List.Perm.Basic

namespace ExchangeRates

namespace RateBook

/-- No two feeds of a list have names that are equal when case is ignored. -/
def DistinctFeeds (answers : List (String × Answer)) : Prop :=
  answers.Pairwise fun a b => ¬ EqIgnoringCase a.1 b.1

instance (answers : List (String × Answer)) : Decidable (DistinctFeeds answers) :=
  inferInstanceAs (Decidable (List.Pairwise _ _))

/-- Two books hold the same, whatever the order is in which they are enumerated. -/
structure Same (book other : RateBook) : Prop where
  snapshots : book.snapshots.get? = other.snapshots.get?
  merged : book.merged.get? = other.merged.get?

/-- Two refreshes come to the same: they fail alike, or they leave books behind that hold the same
and give the same account, whose lists may differ in order. -/
inductive SameOutcome : (one other : Except RateError (RateBook × RefreshResult)) → Prop
  | failed (error : RateError) : SameOutcome (.error error) (.error error)
  | refreshed {one other : RateBook × RefreshResult} (books : one.1.Same other.1)
      (updated : one.2.updated = other.2.updated) (missing : one.2.missing.Perm other.2.missing)
      (failed : one.2.failed.Perm other.2.failed) : SameOutcome (.ok one) (.ok other)

section

variable {now : Instant} {book other : RateBook} {config same : RateConfig}
  {answers others : List (String × Answer)} {asset : Symbol} {feed : String} {prices : Rates}
  {price : Float}

theorem DistinctFeeds.perm (h : DistinctFeeds answers) (hperm : answers.Perm others) :
    DistinctFeeds others := by
  exact (hperm.pairwise_iff fun hab hba => hab hba.symm).mp h

theorem DistinctFeeds.eq_of_eqIgnoringCase (h : DistinctFeeds answers) {a b : String × Answer}
    (ha : a ∈ answers) (hb : b ∈ answers) (hsame : EqIgnoringCase a.1 b.1) : a = b := by
  induction answers with
  | nil => cases ha
  | cons first answers ih =>
    obtain ⟨hfirst, hrest⟩ := List.pairwise_cons.mp h
    rcases List.mem_cons.mp ha with rfl | hlaterA <;> rcases List.mem_cons.mp hb with rfl | hlaterB
    · rfl
    · exact absurd hsame (hfirst b hlaterB)
    · exact absurd hsame.symm (hfirst a hlaterA)
    · exact ih hrest hlaterA hlaterB

/-- The last answer of a feed is the only one under its name. -/
theorem DistinctFeeds.latest?_eq_some_iff (h : DistinctFeeds answers) :
    latest? answers feed = some prices ↔ (feed, .ok prices) ∈ answers := by
  refine ⟨mem_of_latest?, fun hmem => ?_⟩
  obtain ⟨given, hlatest⟩ :=
    exists_latest?_of_mem_answered (mem_answered.mpr ⟨prices, hmem⟩)
  have hsame : (feed, Except.ok given) = (feed, Except.ok prices) :=
    h.eq_of_eqIgnoringCase (mem_of_latest? hlatest) hmem rfl
  rw [hlatest, Except.ok.inj (Prod.mk.inj hsame).2]

/-- A rate is written exactly if the one feed that the source of its asset names has answered with a
usable price for it. -/
theorem DistinctFeeds.written?_eq_some_iff (h : DistinctFeeds answers) :
    book.written? now config answers asset = some price ↔
      ∃ source feed prices, config.global.get? asset = some source ∧
        EqIgnoringCase source.feed feed ∧ (feed, .ok prices) ∈ answers ∧
        prices.get? asset = some price ∧ Usable price := by
  refine ⟨exists_answer_of_written?, ?_⟩
  rintro ⟨source, feed, prices, hsource, hfrom, hmem, hprice, hvalid⟩
  have hwritten {name : String} {given : Rates} {rate : Float}
      (hfrom : EqIgnoringCase source.feed name) (hgiven : (name, .ok given) ∈ answers) :
      (book.capture now answers).priceFrom? config asset name = some rate ↔
        given.get? asset = some rate ∧ Usable rate := by
    rw [priceFrom?_eq_some_iff hsource, Offers, prices?_capture,
      h.latest?_eq_some_iff.mpr hgiven]
    simp [hfrom, Usable]
  refine findSome?_eq_some_of_unique (List.mem_reverse.mpr (mem_answered.mpr ⟨prices, hmem⟩))
    ((hwritten hfrom hmem).mpr ⟨hprice, hvalid⟩) ?_
  intro name hname rate hrate
  obtain ⟨given, hgiven⟩ := mem_answered.mp (List.mem_reverse.mp hname)
  have hfromName : EqIgnoringCase source.feed name := ((priceFrom?_eq_some_iff hsource).mp hrate).1
  have hsame := h.eq_of_eqIgnoringCase hgiven hmem (hfromName.symm.trans hfrom)
  obtain rfl := Except.ok.inj (Prod.mk.inj hsame).2
  exact Option.some.inj (((hwritten hfromName hgiven).mp hrate).1.symm.trans hprice)

theorem Same.prices?_eq (h : book.Same other) (feed : String) :
    book.prices? feed = other.prices? feed := by
  rw [prices?, h.snapshots, ← prices?]

theorem Same.lacks_iff (h : book.Same other) (hconfig : config.global.get? = same.global.get?) :
    book.Lacks config feed asset ↔ other.Lacks same feed asset := by
  simp only [Lacks, Offers, hconfig, h.prices?_eq]

theorem Same.capture (h : book.Same other) (hanswers : answers.Perm others)
    (hdistinct : DistinctFeeds answers) :
    (book.capture now answers).Same (other.capture now others) := by
  refine ⟨?_, h.merged⟩
  have hlatest (feed : String) : latest? answers feed = latest? others feed := by
    ext prices
    rw [hdistinct.latest?_eq_some_iff, (hdistinct.perm hanswers).latest?_eq_some_iff,
      hanswers.mem_iff]
  funext feed
  rw [get?_snapshots_capture, get?_snapshots_capture, hlatest, h.snapshots]

theorem written?_perm (book other : RateBook) (hconfig : config.global.get? = same.global.get?)
    (hanswers : answers.Perm others) (hdistinct : DistinctFeeds answers) :
    book.written? now config answers asset = other.written? now same others asset := by
  ext price
  simp only [hdistinct.written?_eq_some_iff, (hdistinct.perm hanswers).written?_eq_some_iff,
    hconfig, hanswers.mem_iff]

theorem misses_perm (h : book.Same other) (hconfig : config.global.get? = same.global.get?)
    {feeds shuffled : List String} (hfeeds : feeds.Perm shuffled) :
    (book.misses config feeds).Perm (other.misses same shuffled) := by
  refine hfeeds.flatMap fun feed _ => List.Perm.map _ ?_
  refine (List.perm_ext_iff_of_nodup ((nodup_sourcedFrom config feed).filter _)
    ((nodup_sourcedFrom same feed).filter _)).mpr fun asset => ?_
  exact mem_unpriced.trans ((h.lacks_iff hconfig).trans mem_unpriced.symm)

theorem answered_perm (h : answers.Perm others) : (answered answers).Perm (answered others) := by
  rw [answered_eq, answered_eq]
  exact (h.filter _).map _

theorem anyAnswer_perm (h : answers.Perm others) : anyAnswer answers = anyAnswer others := by
  rw [Bool.eq_iff_iff, anyAnswer_iff, anyAnswer_iff]
  simp only [h.mem_iff, List.eq_nil_iff_forall_not_mem]

end

/-- A refresh from feeds whose names differ in more than case comes to the same for the feeds in any
order, each with its own answer, and for the configuration and the book enumerated in any order. -/
theorem refresh_perm (now : Instant) {book other : RateBook} {config same : RateConfig}
    {answers others : List (String × Answer)} (hbook : book.Same other)
    (hconfig : config.global.entries.Perm same.global.entries) (hanswers : answers.Perm others)
    (hdistinct : DistinctFeeds answers) :
    SameOutcome (book.refresh now config answers) (other.refresh now same others) := by
  have hglobal := Table.get?_eq_of_perm hconfig
  have hcaptured : (book.capture now answers).Same (other.capture now others) :=
    hbook.capture hanswers hdistinct
  rw [refresh_eq, refresh_eq, anyAnswer_perm hanswers]
  split
  · have hmissing : (book.refreshed now config answers).2.missing.Perm
        (other.refreshed now same others).2.missing := by
      rw [missing_refreshed, missing_refreshed]
      exact misses_perm hcaptured hglobal (answered_perm hanswers)
    refine .refreshed ⟨hcaptured.snapshots, ?_⟩ ?_ hmissing ?_
    · funext asset
      rw [get?_merged_refreshed, get?_merged_refreshed, hbook.merged,
        written?_perm book other hglobal hanswers hdistinct]
    · -- there are as many lookups in both, and as many of them are misses
      have hlookups := lookups_refreshed now book config answers
      have hsame := lookups_refreshed now other same others
      simp only [length_sourcedFrom] at hlookups hsame
      have hsum := ((answered_perm hanswers).map fun feed =>
        config.global.entries.countP fun e => EqIgnoringCase e.2.feed feed).sum_nat
      simp only [hconfig.countP_eq] at hsum hlookups
      have hlength := hmissing.length_eq
      omega
    · rw [(accounts_refreshed now book config answers).failed,
        (accounts_refreshed now other same others).failed]
      exact (hanswers.filter _).map _
  · exact .failed .noAnswer

/-- Two assets that come from one feed and a third that comes from another. -/
def threeAssets : List (Symbol × RateSource) :=
  [(.ofText "BTC", ⟨noRate, "feedX"⟩), (.ofText "ETH", ⟨3000.0, "FeedX"⟩),
    (.ofText "USDC", ⟨1.0, "feedY"⟩)]

/-- The answers of the two feeds, neither of which has a price for all of its assets, and a
failure. -/
def threeFeeds : List (String × Answer) :=
  [("FEEDX", .ok (.ofList [(.ofText "BTC", 50000.0)])), ("down", .error .noAnswer),
    ("FEEDY", .ok .empty)]

/-- In reverse, the misses are listed in another order, and nothing else is different. -/
theorem refresh_perm_reverse :
    let outcome := RateBook.empty.refresh 0 ⟨.empty, .ofList threeAssets⟩ threeFeeds
    let reversed :=
      RateBook.empty.refresh 0 ⟨.empty, .ofList threeAssets.reverse⟩ threeFeeds.reverse
    SameOutcome outcome reversed ∧
      outcome.map (fun r => r.1.rate? (.ofText "BTC")) = .ok (some 50000.0) ∧
      outcome.map (fun r => r.2.missing.map Miss.feed) = .ok ["FEEDX", "FEEDY"] ∧
      reversed.map (fun r => r.2.missing.map Miss.feed) = .ok ["FEEDY", "FEEDX"] :=
  ⟨refresh_perm 0 ⟨rfl, rfl⟩ (List.reverse_perm threeAssets).symm
    (List.reverse_perm threeFeeds).symm (by decide), rfl, rfl, rfl⟩

end RateBook

end ExchangeRates

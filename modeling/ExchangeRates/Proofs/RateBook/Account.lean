import ExchangeRates.Proofs.RateBook.Contents
import Mathlib.Algebra.BigOperators.Group.List.Basic
import Mathlib.Algebra.Order.Ring.Nat
import Mathlib.Data.List.Count
import Mathlib.Data.List.Nodup

namespace ExchangeRates.RateBook

/-- The assets that a feed is the source of and has a usable price for. -/
def priced (book : RateBook) (config : RateConfig) (feed : String) : List Symbol :=
  (sourcedFrom config feed).filter fun asset => (book.priceFrom? config asset feed).isSome

/-- The assets that a feed is the source of and has no usable price for. -/
def unpriced (book : RateBook) (config : RateConfig) (feed : String) : List Symbol :=
  (sourcedFrom config feed).filter fun asset => !(book.priceFrom? config asset feed).isSome

/-- The lookups in the prices of feeds, in their order, that find no usable price. -/
def misses (book : RateBook) (config : RateConfig) (feeds : List String) : List Miss :=
  feeds.flatMap fun feed => (book.unpriced config feed).map (⟨·, feed⟩)

/-- A feed is the source of an asset, and the prices that are kept of it hold no finite price
greater than zero for the asset. -/
def Lacks (book : RateBook) (config : RateConfig) (feed : String) (asset : Symbol) : Prop :=
  (∃ source, config.global.get? asset = some source ∧ EqIgnoringCase source.feed feed) ∧
    ∀ price, ¬ book.Offers feed asset price

/-- The account of a refresh that succeeds and leaves a book behind. -/
structure Accounts (config : RateConfig) (answers : List (String × Answer)) (later : RateBook)
    (result : RefreshResult) : Prop where
  failed : result.failed = (answers.filter fun a => !a.2.isOk).map Prod.fst
  lookups : result.updated + result.missing.length =
    ((answers.filter fun a => a.2.isOk).map fun a =>
      config.global.entries.countP fun e => EqIgnoringCase e.2.feed a.1).sum
  missing : ∀ feed asset, later.Lacks config feed asset →
    result.missing.count ⟨asset, feed⟩ = answers.countP fun a => a.1 = feed && a.2.isOk
  found : ∀ feed asset, ¬ later.Lacks config feed asset → ⟨asset, feed⟩ ∉ result.missing
  hasMisses : result.hasMisses = true ↔
    ∃ feed prices asset, (feed, .ok prices) ∈ answers ∧ later.Lacks config feed asset

section

variable {book : RateBook} {config : RateConfig} {answers : List (String × Answer)}
  {asset : Symbol} {feed : String} {prices : Rates}

theorem answered_eq (answers : List (String × Answer)) :
    answered answers = (answers.filter fun a => a.2.isOk).map Prod.fst := by
  induction answers with
  | nil => rfl
  | cons a answers ih =>
    obtain ⟨name, answer⟩ := a
    cases answer with
    | ok prices => exact congrArg (name :: ·) ih
    | error error => exact ih

theorem failures_eq (answers : List (String × Answer)) :
    (failures answers).map Prod.fst = (answers.filter fun a => !a.2.isOk).map Prod.fst := by
  induction answers with
  | nil => rfl
  | cons a answers ih =>
    obtain ⟨name, answer⟩ := a
    cases answer with
    | ok prices => exact ih
    | error error => exact congrArg (name :: ·) ih

theorem count_answered (answers : List (String × Answer)) (feed : String) :
    (answered answers).count feed = answers.countP fun a => a.1 = feed && a.2.isOk := by
  rw [answered_eq, List.count, List.countP_map, List.countP_filter]
  rfl

theorem priceFrom?_of_prices? (hprices : book.prices? feed = some prices)
    (hasset : asset ∈ sourcedFrom config feed) :
    book.priceFrom? config asset feed = validPrice? prices asset := by
  rw [priceFrom?, hprices, Option.bind_some, if_pos hasset]

/-- The feeds that answered have prices once a refresh has captured them. -/
theorem exists_prices?_capture (now : Instant) (book : RateBook) (hfeed : feed ∈ answered answers) :
    ∃ prices, (book.capture now answers).prices? feed = some prices := by
  obtain ⟨prices, hlatest⟩ := exists_latest?_of_mem_answered hfeed
  exact ⟨prices, by rw [prices?_capture, hlatest, Option.some_or]⟩

theorem nodup_sourcedFrom (config : RateConfig) (feed : String) :
    (sourcedFrom config feed).Nodup :=
  config.global.nodup.sublist (List.filter_sublist.map Prod.fst)

theorem length_sourcedFrom (config : RateConfig) (feed : String) :
    (sourcedFrom config feed).length =
      config.global.entries.countP fun e => EqIgnoringCase e.2.feed feed := by
  rw [sourcedFrom, List.length_map, ← List.countP_eq_length_filter]
  exact List.countP_congr fun e _ => by rw [RateSource.isFrom_iff, decide_eq_true_iff]

theorem length_priced_add_length_unpriced (book : RateBook) (config : RateConfig) (feed : String) :
    (book.priced config feed).length + (book.unpriced config feed).length =
      (sourcedFrom config feed).length :=
  (List.length_eq_length_filter_add _).symm

theorem mem_unpriced : asset ∈ book.unpriced config feed ↔ book.Lacks config feed asset := by
  rw [unpriced, List.mem_filter, mem_sourcedFrom, Lacks]
  refine and_congr_right fun ⟨source, hsource, hfrom⟩ => ?_
  rw [Bool.not_eq_true', Option.isSome_eq_false_iff, Option.isNone_iff_eq_none,
    Option.eq_none_iff_forall_ne_some]
  refine forall_congr' fun price => not_congr ?_
  rw [priceFrom?_eq_some_iff hsource]
  exact and_iff_right hfrom

theorem updated_foldl_lookup (prices : Rates) (feed : String) (assets : List Symbol) (m : Merge) :
    (assets.foldl (Merge.lookup prices feed) m).updated =
      m.updated + assets.countP fun asset => (validPrice? prices asset).isSome := by
  induction assets generalizing m with
  | nil => rfl
  | cons asset assets ih =>
    rw [List.foldl_cons, ih, Merge.lookup]
    cases hprice : validPrice? prices asset with
    | none => simp [hprice]
    | some price => simp [hprice, Nat.add_comm 1, Nat.add_assoc]

theorem missing_foldl_lookup (prices : Rates) (feed : String) (assets : List Symbol) (m : Merge) :
    (assets.foldl (Merge.lookup prices feed) m).missing = m.missing ++
      (assets.filter fun asset => !(validPrice? prices asset).isSome).map (⟨·, feed⟩) := by
  induction assets generalizing m with
  | nil => simp
  | cons asset assets ih =>
    rw [List.foldl_cons, ih, Merge.lookup]
    cases hprice : validPrice? prices asset with
    | none => simp [hprice]
    | some price => simp [hprice]

theorem updated_feed (hprices : book.prices? feed = some prices) (m : Merge) :
    (m.feed book config feed).updated = m.updated + (book.priced config feed).length := by
  rw [Merge.feed, hprices]
  refine (updated_foldl_lookup ..).trans (congrArg (m.updated + ·) ?_)
  rw [priced, ← List.countP_eq_length_filter]
  exact List.countP_congr fun asset hasset => by rw [priceFrom?_of_prices? hprices hasset]

theorem missing_feed (hprices : book.prices? feed = some prices) (m : Merge) :
    (m.feed book config feed).missing =
      m.missing ++ (book.unpriced config feed).map (⟨·, feed⟩) := by
  rw [Merge.feed, hprices]
  refine (missing_foldl_lookup ..).trans (congrArg (m.missing ++ List.map _ ·) ?_)
  exact List.filter_congr fun asset hasset => by rw [priceFrom?_of_prices? hprices hasset]

theorem updated_foldl_feed {feeds : List String} (m : Merge)
    (hfeeds : ∀ feed ∈ feeds, ∃ prices, book.prices? feed = some prices) :
    (feeds.foldl (Merge.feed book config) m).updated =
      m.updated + (feeds.map fun feed => (book.priced config feed).length).sum := by
  induction feeds generalizing m with
  | nil => rfl
  | cons feed feeds ih =>
    obtain ⟨⟨prices, hprices⟩, hrest⟩ := List.forall_mem_cons.mp hfeeds
    rw [List.foldl_cons, ih _ hrest, updated_feed hprices, List.map_cons, List.sum_cons,
      Nat.add_assoc]

theorem missing_foldl_feed {feeds : List String} (m : Merge)
    (hfeeds : ∀ feed ∈ feeds, ∃ prices, book.prices? feed = some prices) :
    (feeds.foldl (Merge.feed book config) m).missing = m.missing ++ book.misses config feeds := by
  induction feeds generalizing m with
  | nil => exact (List.append_nil _).symm
  | cons feed feeds ih =>
    obtain ⟨⟨prices, hprices⟩, hrest⟩ := List.forall_mem_cons.mp hfeeds
    rw [List.foldl_cons, ih _ hrest, missing_feed hprices, List.append_assoc]
    rfl

theorem length_misses (book : RateBook) (config : RateConfig) (feeds : List String) :
    (book.misses config feeds).length =
      (feeds.map fun feed => (book.unpriced config feed).length).sum := by
  simp [misses, List.length_flatMap]

theorem mem_misses {feeds : List String} :
    ⟨asset, feed⟩ ∈ book.misses config feeds ↔ feed ∈ feeds ∧ book.Lacks config feed asset := by
  simp [misses, mem_unpriced]

/-- A miss counts as often as its feed stands in the list. -/
theorem count_misses (h : book.Lacks config feed asset) (feeds : List String) :
    (book.misses config feeds).count ⟨asset, feed⟩ = feeds.count feed := by
  induction feeds with
  | nil => rfl
  | cons other feeds ih =>
    rw [misses, List.flatMap_cons, List.count_append, ← misses, ih, List.count_cons, Nat.add_comm]
    congr 1
    by_cases hother : other = feed
    · subst hother
      have hone : (book.unpriced config other).count asset = 1 :=
        List.count_eq_one_of_mem ((nodup_sourcedFrom config other).filter _) (mem_unpriced.mpr h)
      have hinjective : Function.Injective fun a : Symbol => (⟨a, other⟩ : Miss) :=
        fun a b heq => (Miss.mk.inj heq).1
      rw [List.count_map_of_injective _ _ hinjective, hone, beq_self_eq_true, if_pos rfl]
    · rw [if_neg (by simpa using hother), List.count_eq_zero]
      simp [hother]

end

section

variable (now : Instant) (book : RateBook) (config : RateConfig)
  (answers : List (String × Answer))

/-- A refresh counts the rates it writes, one for each usable price that it looks up. -/
theorem updated_refreshed : (book.refreshed now config answers).2.updated =
    ((answered answers).map fun feed =>
      ((book.capture now answers).priced config feed).length).sum :=
  (updated_foldl_feed _ fun _ => exists_prices?_capture now book).trans (Nat.zero_add _)

/-- A refresh lists the lookups that found no usable price, as often as they were made. -/
theorem missing_refreshed : (book.refreshed now config answers).2.missing =
    (book.capture now answers).misses config (answered answers) :=
  missing_foldl_feed _ fun _ => exists_prices?_capture now book

theorem lookups_refreshed : (book.refreshed now config answers).2.updated +
      (book.refreshed now config answers).2.missing.length =
    ((answered answers).map fun feed => (sourcedFrom config feed).length).sum := by
  rw [updated_refreshed, missing_refreshed, length_misses, ← List.sum_map_add]
  simp only [length_priced_add_length_unpriced]

end

theorem accounts_refreshed (now : Instant) (book : RateBook) (config : RateConfig)
    (answers : List (String × Answer)) :
    Accounts config answers (book.refreshed now config answers).1
      (book.refreshed now config answers).2 := by
  have hmissing := missing_refreshed now book config answers
  constructor
  case failed => exact failures_eq answers
  case lookups =>
    rw [lookups_refreshed, answered_eq, List.map_map]
    simp only [Function.comp_def, length_sourcedFrom]
  case missing =>
    intro feed asset hlacks
    rw [hmissing, ← count_answered]
    exact count_misses hlacks _
  case found =>
    intro feed asset hfound hmem
    rw [hmissing] at hmem
    exact hfound (mem_misses.mp hmem).2
  case hasMisses =>
    rw [RefreshResult.hasMisses, Bool.not_eq_true', List.isEmpty_eq_false_iff_exists_mem, hmissing]
    constructor
    · rintro ⟨⟨asset, feed⟩, hmem⟩
      obtain ⟨hfeed, hlacks⟩ := mem_misses.mp hmem
      obtain ⟨prices, hprices⟩ := mem_answered.mp hfeed
      exact ⟨feed, prices, asset, hprices, hlacks⟩
    · rintro ⟨feed, prices, asset, hprices, hlacks⟩
      exact ⟨⟨asset, feed⟩, mem_misses.mpr ⟨mem_answered.mpr ⟨prices, hprices⟩, hlacks⟩⟩

/-- A refresh in which a feed answered, or without feeds, succeeds. It names the feeds that failed
in their order. Each feed that answered is looked up in once for every asset that it is the source
of, and the lookup is either counted as an update or listed as a miss: it is a miss if the prices
that are now kept of the feed have no usable one for the asset. So a refresh has misses only by
feeds that answered. -/
theorem refresh_accounts (now : Instant) (book : RateBook) (config : RateConfig)
    (answers : List (String × Answer))
    (h : answers = [] ∨ ∃ feed prices, (feed, .ok prices) ∈ answers) :
    ∃ later result, book.refresh now config answers = .ok (later, result) ∧
      Accounts config answers later result :=
  ⟨_, _, (refresh_eq ..).trans (if_pos (anyAnswer_iff.mpr h)), accounts_refreshed ..⟩

/-- Two assets with one source, which is spelled in two ways. -/
def pairConfig : RateConfig :=
  ⟨.empty, .ofList [(.ofText "BTC", ⟨noRate, "feedX"⟩), (.ofText "USDC", ⟨1.0, "feedx"⟩)]⟩

/-- The answers of a feed that stands in the list twice and of one whose name differs in case only,
and a failure. -/
def repeatedFeed : List (String × Answer) :=
  [("feedX", .ok (.ofList [(.ofText "BTC", 1.0)])), ("down", .error .noAnswer),
    ("FEEDX", .ok (.ofList [(.ofText "BTC", 2.0), (.ofText "USDC", 0.0)])),
    ("feedX", .ok (.ofList [(.ofText "USDC", 5.0)]))]

/-- The feed is looked up in twice, and both times in its later answer, which lacks one of the two
assets. -/
theorem refresh_accounts_repeatedFeed :
    ∃ later result, RateBook.empty.refresh 0 pairConfig repeatedFeed = .ok (later, result) ∧
      Accounts pairConfig repeatedFeed later result ∧ result.failed = ["down"] ∧
      result.updated + result.missing.length = 6 ∧
      result.missing.count ⟨.ofText "BTC", "feedX"⟩ = 2 ∧
      ⟨.ofText "BTC", "FEEDX"⟩ ∉ result.missing ∧ result.hasMisses = true := by
  obtain ⟨later, result, hrefresh, h⟩ :=
    refresh_accounts 0 .empty pairConfig repeatedFeed (.inr ⟨"feedX", _, List.mem_cons_self⟩)
  have hlacks : later.Lacks pairConfig "feedX" (.ofText "BTC") := by
    cases hrefresh
    exact mem_unpriced.mp (by decide)
  have hfound : ¬ later.Lacks pairConfig "FEEDX" (.ofText "BTC") := by
    cases hrefresh
    exact fun hlacks => absurd (mem_unpriced.mpr hlacks) (by decide)
  refine ⟨later, result, hrefresh, h, ?_, ?_, ?_, h.found _ _ hfound, ?_⟩
  · exact h.failed.trans (by rfl)
  · exact h.lookups.trans (by decide)
  · exact (h.missing _ _ hlacks).trans (by decide)
  · exact h.hasMisses.mpr ⟨"feedX", _, _, List.mem_cons_self, hlacks⟩

end ExchangeRates.RateBook

import ExchangeRates.Proofs.Spelling
import ExchangeRates.RateBook

namespace ExchangeRates

/-- A price can be used as a rate: it is a finite number greater than zero. -/
def Usable (price : Float) : Prop := price.isFinite = true ∧ 0.0 < price

instance (price : Float) : Decidable (Usable price) := inferInstanceAs (Decidable (_ ∧ _))

theorem isValidPrice_iff {price : Float} : isValidPrice price = true ↔ Usable price := by
  simp [isValidPrice, Usable]

namespace RateBook

/-- Whether one of the feeds answered, if there are any. -/
def anyAnswer (answers : List (String × Answer)) : Bool :=
  answers.isEmpty || !(answered answers).isEmpty

/-- The prices in the last answer of a feed. -/
def latest? (answers : List (String × Answer)) (feed : String) : Option Rates :=
  answers.reverse.findSome? fun a => if a.1 = feed then a.2.toOption else none

/-- The price that an asset is given by a feed, if the feed is its source. -/
def priceFrom? (book : RateBook) (config : RateConfig) (asset : Symbol) (feed : String) :
    Option Float :=
  (book.prices? feed).bind fun prices =>
    if asset ∈ sourcedFrom config feed then validPrice? prices asset else none

def written? (now : Instant) (book : RateBook) (config : RateConfig)
    (answers : List (String × Answer)) (asset : Symbol) : Option Float :=
  (answered answers).reverse.findSome? ((book.capture now answers).priceFrom? config asset)

/-- What a refresh comes to when it succeeds. -/
def refreshed (now : Instant) (book : RateBook) (config : RateConfig)
    (answers : List (String × Answer)) : RateBook × RefreshResult :=
  let captured := book.capture now answers
  let m := (answered answers).foldl (Merge.feed captured config) ⟨captured.merged, 0, []⟩
  ({ captured with merged := m.merged },
    ⟨m.updated, m.missing, (failures answers).map Prod.fst⟩)

theorem refresh_eq (now : Instant) (book : RateBook) (config : RateConfig)
    (answers : List (String × Answer)) :
    book.refresh now config answers =
      if anyAnswer answers then .ok (book.refreshed now config answers) else .error .noAnswer := by
  unfold refresh anyAnswer
  dsimp only
  cases answers.isEmpty <;> cases (answered answers).isEmpty <;> rfl

theorem mem_sourcedFrom {config : RateConfig} {feed : String} {asset : Symbol} :
    asset ∈ sourcedFrom config feed ↔
      ∃ source, config.global.get? asset = some source ∧ EqIgnoringCase source.feed feed := by
  simp only [sourcedFrom, List.mem_map, List.mem_filter, Prod.exists, exists_and_right,
    exists_eq_right, Table.mem_entries_iff, RateSource.isFrom_iff]

theorem mem_of_latest? {answers : List (String × Answer)} {feed : String} {prices : Rates}
    (h : latest? answers feed = some prices) : (feed, .ok prices) ∈ answers := by
  obtain ⟨⟨name, answer⟩, hmem, heq⟩ := List.exists_of_findSome?_eq_some h
  simp only [Option.ite_none_right_eq_some] at heq
  obtain ⟨rfl, hanswer⟩ := heq
  cases answer with
  | ok given =>
    obtain rfl := Option.some.inj hanswer
    exact List.mem_reverse.mp hmem
  | error error => simp [Except.toOption] at hanswer

theorem exists_latest?_of_mem_answered {answers : List (String × Answer)} {feed : String}
    (h : feed ∈ answered answers) : ∃ prices, latest? answers feed = some prices := by
  obtain ⟨⟨name, answer⟩, hmem, heq⟩ := List.mem_filterMap.mp h
  cases answer with
  | error error => simp at heq
  | ok prices =>
    obtain rfl := Option.some.inj heq
    rw [← Option.isSome_iff_exists, latest?, List.findSome?_isSome_iff]
    exact ⟨_, List.mem_reverse.mpr hmem, by simp [Except.toOption]⟩

/-- A refresh keeps the last answer of every feed, and what it had of the others. -/
theorem get?_snapshots_capture (now : Instant) (book : RateBook)
    (answers : List (String × Answer)) (feed : String) :
    (book.capture now answers).snapshots.get? feed =
      ((latest? answers feed).map (⟨·, now⟩)).or (book.snapshots.get? feed) := by
  induction answers generalizing book with
  | nil => rfl
  | cons a answers ih =>
    obtain ⟨name, answer⟩ := a
    have hcons : book.capture now ((name, answer) :: answers) =
        (book.capture now [(name, answer)]).capture now answers := rfl
    have hone : (book.capture now [(name, answer)]).snapshots.get? feed =
        ((if name = feed then answer.toOption else none).map (⟨·, now⟩)).or
          (book.snapshots.get? feed) := by
      cases answer <;> by_cases hname : name = feed <;>
        simp [capture, hname, Except.toOption]
    rw [hcons, ih, hone, ← Option.or_assoc, ← Option.map_or, latest?, latest?, List.reverse_cons,
      List.findSome?_append]
    simp

theorem prices?_capture (now : Instant) (book : RateBook) (answers : List (String × Answer))
    (feed : String) :
    (book.capture now answers).prices? feed =
      (latest? answers feed).or (book.prices? feed) := by
  rw [prices?, get?_snapshots_capture, Option.map_or, Option.map_map]
  simp [Function.comp_def, prices?]

theorem merged_foldl_lookup (prices : Rates) (feed : String) (assets : List Symbol) (m : Merge)
    (asset : Symbol) :
    (assets.foldl (Merge.lookup prices feed) m).merged.get? asset =
      (if asset ∈ assets then validPrice? prices asset else none).or (m.merged.get? asset) := by
  induction assets generalizing m with
  | nil => simp
  | cons a assets ih =>
    rw [List.foldl_cons, ih, Merge.lookup]
    by_cases ha : a = asset
    · subst ha
      cases hprice : validPrice? prices a with
      | none => simp
      | some price => by_cases hlater : a ∈ assets <;> simp [hlater]
    · cases validPrice? prices a <;> simp [ha, Ne.symm ha]

theorem merged_feed (book : RateBook) (config : RateConfig) (m : Merge) (feed : String)
    (asset : Symbol) :
    (m.feed book config feed).merged.get? asset =
      (book.priceFrom? config asset feed).or (m.merged.get? asset) := by
  unfold Merge.feed priceFrom?
  cases book.prices? feed with
  | none => rfl
  | some prices => exact merged_foldl_lookup ..

theorem merged_foldl_feed (book : RateBook) (config : RateConfig) (feeds : List String) (m : Merge)
    (asset : Symbol) :
    (feeds.foldl (Merge.feed book config) m).merged.get? asset =
      (feeds.reverse.findSome? (book.priceFrom? config asset)).or (m.merged.get? asset) := by
  induction feeds generalizing m with
  | nil => rfl
  | cons feed feeds ih =>
    rw [List.foldl_cons, ih, merged_feed, List.reverse_cons, List.findSome?_append,
      Option.or_assoc]
    simp

theorem get?_merged_refreshed (now : Instant) (book : RateBook) (config : RateConfig)
    (answers : List (String × Answer)) (asset : Symbol) :
    (book.refreshed now config answers).1.merged.get? asset =
      (book.written? now config answers asset).or (book.merged.get? asset) :=
  merged_foldl_feed ..

/-- A rate that is written is a usable price that the source of its asset answered with. -/
theorem exists_answer_of_written? {now : Instant} {book : RateBook} {config : RateConfig}
    {answers : List (String × Answer)} {asset : Symbol} {price : Float}
    (h : book.written? now config answers asset = some price) :
    ∃ source feed prices, config.global.get? asset = some source ∧
      EqIgnoringCase source.feed feed ∧ (feed, .ok prices) ∈ answers ∧
      prices.get? asset = some price ∧ Usable price := by
  obtain ⟨feed, hfeed, hprice⟩ := List.exists_of_findSome?_eq_some h
  obtain ⟨kept, hkept, hprice⟩ := Option.bind_eq_some_iff.mp hprice
  simp only [Option.ite_none_right_eq_some] at hprice
  obtain ⟨hsourced, hvalid⟩ := hprice
  obtain ⟨source, hsource, hfrom⟩ := mem_sourcedFrom.mp hsourced
  obtain ⟨prices, hlatest⟩ := exists_latest?_of_mem_answered (List.mem_reverse.mp hfeed)
  obtain rfl : kept = prices := by
    rw [prices?_capture, hlatest, Option.some_or] at hkept
    exact (Option.some.inj hkept).symm
  obtain ⟨hget, hprice⟩ := Option.filter_eq_some_iff.mp hvalid
  exact ⟨source, feed, kept, hsource, hfrom, mem_of_latest? hlatest, hget,
    isValidPrice_iff.mp hprice⟩

end RateBook

end ExchangeRates

import ExchangeRates.Fetch
import ExchangeRates.Proofs.Except
import Mathlib.Data.List.Forall2

namespace ExchangeRates.Fetch

/-- The feed that answers next, if an answer is due. -/
def asked? (now : Instant) (requests : List Fetch) : Option FeedId :=
  (requests.find? fun r => r.answer.isNone && r.dueAt ≤ now).map Fetch.feed

theorem exists_dueAt_le (now : Instant) (requests : List Fetch) :
    ∃ t, now ≤ t ∧ ∀ request ∈ requests, request.dueAt ≤ t := by
  induction requests with
  | nil => exact ⟨now, Nat.le_refl _, by simp⟩
  | cons request rest ih =>
    obtain ⟨t, hnow, hrest⟩ := ih
    refine ⟨t + request.dueAt, Nat.le_trans hnow (Nat.le_add_right ..), ?_⟩
    intro r hr
    rcases List.mem_cons.mp hr with rfl | hr
    · exact Nat.le_add_left ..
    · exact Nat.le_trans (hrest r hr) (Nat.le_add_right ..)

theorem forall₂_of_answers? {requests : List Fetch} {answers : List (String × Answer)}
    (h : answers? requests = some answers) :
    List.Forall₂ (fun request answer => request.answer = some answer) requests answers := by
  induction requests generalizing answers with
  | nil =>
    obtain rfl : answers = [] := by simpa [answers?] using h.symm
    exact .nil
  | cons request rest ih =>
    simp only [answers?, List.mapM_cons, Option.pure_def, Option.bind_eq_bind,
      Option.bind_eq_some_iff, Option.some.injEq] at h
    obtain ⟨first, hfirst, others, hothers, rfl⟩ := h
    exact .cons hfirst (ih hothers)

variable {φ : Type} [PriceFeed φ]

theorem map_feed_begin (now : Instant) (feeds : List φ) (ids : List FeedId) :
    (begin now feeds ids).map Fetch.feed = ids.filter (· < feeds.length) := by
  induction ids with
  | nil => rfl
  | cons id ids ih =>
    unfold begin at ih ⊢
    by_cases hid : id < feeds.length
    · rw [List.filterMap_cons, List.getElem?_eq_getElem hid]
      simpa [hid] using ih
    · rw [List.filterMap_cons, List.getElem?_eq_none (Nat.le_of_not_lt hid)]
      simpa [hid] using ih

theorem answer_of_mem_begin {now : Instant} {feeds : List φ} {ids : List FeedId} {request : Fetch}
    (h : request ∈ begin now feeds ids) : request.answer = none := by
  obtain ⟨id, -, hid⟩ := List.mem_filterMap.mp h
  obtain ⟨feed, -, rfl⟩ := Option.map_eq_some_iff.mp hid
  rfl

theorem step_of_answers? {feeds : List φ} {now : Instant} {requests : List Fetch}
    {answers : List (String × Answer)} (h : answers? requests = some answers) :
    step feeds now requests = none := by
  have hanswered := forall₂_of_answers? h
  clear h
  induction hanswered with
  | nil => rfl
  | cons hfirst _ ih => simp [step, hfirst, ih]

/-- A step asks one feed, the next of those whose answer is due. -/
theorem step_eq_some {feeds later : List φ} {now : Instant} {requests : List Fetch}
    {result : Except Fault (List Fetch)} (h : step feeds now requests = some (later, result)) :
    ∃ before request after feed,
      requests = before ++ request :: after ∧ asked? now requests = some request.feed ∧
      feeds[request.feed]? = some feed ∧ later = feeds.set request.feed (PriceFeed.fetch feed).1 ∧
      (result = (PriceFeed.fetch feed).2.map fun answer =>
        before ++ { request with answer := some (PriceFeed.name feed, answer) } :: after) ∧
      request.answer = none ∧ request.dueAt ≤ now := by
  induction requests generalizing result with
  | nil => simp [step] at h
  | cons request rest ih =>
    unfold step at h
    split at h
    · next hdue =>
      have hasked : asked? now (request :: rest) = some request.feed := by
        simp only [asked?, List.find?_cons, hdue, Option.map_some]
      obtain ⟨feed, hfeed, heq⟩ := Option.map_eq_some_iff.mp h
      cases hfetch : PriceFeed.fetch feed with
      | mk next answer =>
        rw [hfetch] at heq
        obtain ⟨rfl, rfl⟩ := Prod.mk.inj heq
        obtain ⟨hnone, hdue⟩ := Bool.and_eq_true_iff.mp hdue
        refine ⟨[], request, rest, feed, rfl, hasked, hfeed, by rw [hfetch], ?_,
          Option.isNone_iff_eq_none.mp hnone, of_decide_eq_true hdue⟩
        rw [hfetch]
        rfl
    · next hdue =>
      have hasked : asked? now (request :: rest) = asked? now rest := by
        simp only [asked?, List.find?_cons, hdue]
      obtain ⟨⟨others, answered⟩, hrest, heq⟩ := Option.map_eq_some_iff.mp h
      obtain ⟨rfl, rfl⟩ := Prod.mk.inj heq
      obtain ⟨before, next, after, feed, rfl, hnext, hfeed, rfl, rfl, hwaits⟩ := ih hrest
      refine ⟨request :: before, next, after, feed, rfl, hasked.trans hnext, hfeed, rfl, ?_, hwaits⟩
      cases (PriceFeed.fetch feed).2 <;> rfl

theorem answers?_of_step {feeds later : List φ} {now : Instant} {requests : List Fetch}
    {result : Except Fault (List Fetch)} (h : step feeds now requests = some (later, result)) :
    answers? requests = none := by
  cases hanswers : answers? requests with
  | none => rfl
  | some answers => simp [step_of_answers? hanswers] at h

theorem length_feeds_of_step {feeds later : List φ} {now : Instant} {requests : List Fetch}
    {result : Except Fault (List Fetch)} (h : step feeds now requests = some (later, result)) :
    later.length = feeds.length := by
  obtain ⟨_, _, _, _, _, _, _, rfl, _⟩ := step_eq_some h
  exact List.length_set

/-- A step that does not break down adds the answer of the feed that it asks. -/
theorem step_eq_ok {feeds later : List φ} {now : Instant} {requests next : List Fetch}
    (h : step feeds now requests = some (later, .ok next)) :
    ∃ before request after feed answer, requests = before ++ request :: after ∧
      next = before ++ { request with answer := some (PriceFeed.name feed, answer) } :: after ∧
      asked? now requests = some request.feed ∧ feeds[request.feed]? = some feed ∧
      (PriceFeed.fetch feed).2 = .ok answer ∧ request.answer = none ∧ request.dueAt ≤ now := by
  obtain ⟨before, request, after, feed, heq, hasked, hfeed, -, hresult, hwaits⟩ := step_eq_some h
  cases hanswer : (PriceFeed.fetch feed).2 with
  | error fault => simp [hanswer, Except.map] at hresult
  | ok answer =>
    rw [hanswer] at hresult
    exact ⟨before, request, after, feed, answer, heq, Except.ok.inj hresult, hasked, hfeed, hanswer,
      hwaits⟩

/-- A step asks the same feeds as before, and what it adds is the answer of a feed as it is. -/
theorem step_ok {feeds later : List φ} {now : Instant} {requests next : List Fetch}
    (h : step feeds now requests = some (later, .ok next)) :
    next.map Fetch.feed = requests.map Fetch.feed ∧
      ∀ request ∈ next, request ∈ requests ∨
        asked? now requests = some request.feed ∧
          ∃ feed answer, feeds[request.feed]? = some feed ∧
            (PriceFeed.fetch feed).2 = .ok answer ∧
            request.answer = some (PriceFeed.name feed, answer) := by
  obtain ⟨before, asked, after, feed, answer, rfl, rfl, hasked, hfeed, hanswer, -⟩ := step_eq_ok h
  refine ⟨by simp, ?_⟩
  intro request hrequest
  rcases List.mem_append.mp hrequest with hbefore | hrequest
  · exact .inl (List.mem_append_left _ hbefore)
  rcases List.mem_cons.mp hrequest with rfl | hafter
  · exact .inr ⟨hasked, feed, answer, hfeed, hanswer, rfl⟩
  · exact .inl (List.mem_append_right _ (List.mem_cons_of_mem _ hafter))

theorem countP_of_step {feeds later : List φ} {now : Instant} {requests next : List Fetch}
    (h : step feeds now requests = some (later, .ok next)) :
    (next.countP fun r => r.answer.isNone) + 1 = requests.countP fun r => r.answer.isNone := by
  obtain ⟨before, request, after, feed, answer, rfl, rfl, -, -, -, hnone, -⟩ := step_eq_ok h
  simp [List.countP_append, hnone, Nat.add_assoc]

/-- If no step can be taken, every answer that is due is there. -/
theorem isSome_answer_of_step_eq_none {feeds : List φ} {now : Instant} {requests : List Fetch}
    (hfeeds : ∀ request ∈ requests, request.feed < feeds.length)
    (h : step feeds now requests = none) :
    ∀ request ∈ requests, request.dueAt ≤ now → request.answer.isSome = true := by
  induction requests with
  | nil => simp
  | cons request rest ih =>
    obtain ⟨hfeed, hrest⟩ := List.forall_mem_cons.mp hfeeds
    unfold step at h
    split at h
    · simp [List.getElem?_eq_getElem hfeed] at h
    · next hwaits =>
      refine List.forall_mem_cons.mpr ⟨fun hdue => ?_, ih hrest (Option.map_eq_none_iff.mp h)⟩
      simpa [hdue, Option.isSome_iff_ne_none] using hwaits

theorem exists_answers?_of_isSome {requests : List Fetch}
    (h : ∀ request ∈ requests, request.answer.isSome = true) :
    ∃ answers, answers? requests = some answers := by
  induction requests with
  | nil => exact ⟨[], rfl⟩
  | cons request rest ih =>
    obtain ⟨hfirst, hrest⟩ := List.forall_mem_cons.mp h
    obtain ⟨answer, hanswer⟩ := Option.isSome_iff_exists.mp hfirst
    obtain ⟨answers, hanswers⟩ := ih hrest
    refine ⟨answer :: answers, ?_⟩
    rw [answers?] at hanswers ⊢
    simp [hanswer, hanswers]

/-- Once all answers are due, a step can be taken until they are all there. -/
theorem exists_answers?_of_step_eq_none {feeds : List φ} {now : Instant} {requests : List Fetch}
    (hdue : ∀ request ∈ requests, request.dueAt ≤ now)
    (hfeeds : ∀ request ∈ requests, request.feed < feeds.length)
    (h : step feeds now requests = none) : ∃ answers, answers? requests = some answers :=
  exists_answers?_of_isSome fun request hrequest =>
    isSome_answer_of_step_eq_none hfeeds h request hrequest (hdue request hrequest)

/-- The answers to some requests have been waited for from one instant to another, that of the last
of them. -/
structure Collected (now : Instant) (requests : List Fetch) (later : Instant)
    (answered : List Fetch) : Prop where
  feeds : answered.map Fetch.feed = requests.map Fetch.feed
  complete : ∀ request ∈ answered, request.answer.isSome = true
  passed : now ≤ later
  due : ∀ request ∈ requests, request.answer = none → request.dueAt ≤ later
  last : later = now ∨ ∃ request ∈ requests, request.answer = none ∧ later = request.dueAt

section

variable {feeds others : List φ} {now later due : Instant} {requests answered next : List Fetch}

theorem nextDue?_eq_none_iff :
    nextDue? requests = none ↔ ∀ request ∈ requests, request.answer.isSome = true := by
  simp [nextDue?, Option.isSome_iff_ne_none]

theorem exists_of_nextDue?_eq_some (h : nextDue? requests = some due) :
    ∃ request ∈ requests, request.answer = none ∧ request.dueAt = due := by
  obtain ⟨request, hrequest, rfl⟩ := List.mem_map.mp (List.min?_mem h)
  obtain ⟨hmem, hnone⟩ := List.mem_filter.mp hrequest
  exact ⟨request, hmem, Option.isNone_iff_eq_none.mp hnone, rfl⟩

theorem Collected.refl (h : ∀ request ∈ requests, request.answer.isSome = true) :
    Collected now requests now requests where
  feeds := rfl
  complete := h
  passed := Nat.le_refl _
  due request hrequest hnone := by
    have hsome := h request hrequest
    rw [hnone] at hsome
    cases hsome
  last := .inl rfl

/-- The requests are waited for on after one of them has been answered. -/
theorem Collected.of_step {t : Instant} (hnow : now ≤ t)
    (ht : t = now ∨ ∃ request ∈ requests, request.answer = none ∧ t = request.dueAt)
    (hstep : step feeds t requests = some (others, .ok next))
    (h : Collected t next later answered) : Collected now requests later answered := by
  obtain ⟨before, request, after, feed, answer, rfl, rfl, -, -, -, -, hdue⟩ := step_eq_ok hstep
  have hkept {r : Fetch} (hr : r.answer = none) : r ∈ before ++
      { request with answer := some (PriceFeed.name feed, answer) } :: after ↔
        r ∈ before ∨ r ∈ after := by
    have hne : r ≠ { request with answer := some (PriceFeed.name feed, answer) } := by
      rintro rfl
      cases hr
    rw [List.mem_append, List.mem_cons, or_iff_right hne]
  refine ⟨?_, h.complete, Nat.le_trans hnow h.passed, ?_, ?_⟩
  · rw [h.feeds]
    simp
  · intro r hr hunanswered
    obtain hbefore | rfl | hafter := by simpa using hr
    · exact h.due r ((hkept hunanswered).mpr (.inl hbefore)) hunanswered
    · exact Nat.le_trans hdue h.passed
    · exact h.due r ((hkept hunanswered).mpr (.inr hafter)) hunanswered
  · obtain rfl | ⟨r, hr, hunanswered, hlast⟩ := h.last
    · exact ht
    · refine .inr ⟨r, ?_, hunanswered, hlast⟩
      rcases (hkept hunanswered).mp hr with hbefore | hafter
      · exact List.mem_append_left _ hbefore
      · exact List.mem_append_right _ (List.mem_cons_of_mem _ hafter)

/-- Waiting for as many answers as there are requests collects them all. -/
theorem collected_of_collectSome {count : Nat}
    (hcount : (requests.countP fun r => r.answer.isNone) ≤ count)
    (hfeeds : ∀ request ∈ requests, request.feed < feeds.length)
    (h : collectSome count now feeds requests = .ok (later, others, answered)) :
    Collected now requests later answered := by
  induction count generalizing now feeds requests with
  | zero =>
    obtain ⟨rfl, -, rfl⟩ := by simpa [collectSome] using h
    refine .refl fun request hrequest => ?_
    have hanswered := List.countP_eq_zero.mp (Nat.le_zero.mp hcount) request hrequest
    simpa [Option.isSome_iff_ne_none] using hanswered
  | succ count ih =>
    cases hnext : nextDue? requests with
    | none =>
      obtain ⟨rfl, -, rfl⟩ := by simpa [collectSome, hnext] using h
      exact .refl (nextDue?_eq_none_iff.mp hnext)
    | some due =>
      obtain ⟨first, hfirst, hnone, rfl⟩ := exists_of_nextDue?_eq_some hnext
      have hdue : first.dueAt ≤ max now first.dueAt := Nat.le_max_right ..
      unfold collectSome at h
      rw [hnext] at h
      dsimp only at h
      split at h
      · next later' next hstep =>
        have hlength := length_feeds_of_step hstep
        have hsame := (step_ok hstep).1
        have hvalid : ∀ request ∈ next, request.feed < later'.length := by
          intro request hrequest
          obtain ⟨asked, hasked, hfeed⟩ := List.mem_map.mp
            (hsame ▸ List.mem_map_of_mem (f := Fetch.feed) hrequest)
          rw [hlength, ← hfeed]
          exact hfeeds asked hasked
        have hfewer := countP_of_step hstep
        refine .of_step (Nat.le_max_left ..) ?_ hstep (ih (by omega) hvalid h)
        rcases Nat.le_total first.dueAt now with hle | hle
        · exact .inl (Nat.max_eq_left hle)
        · exact .inr ⟨first, hfirst, hnone, Nat.max_eq_right hle⟩
      · cases h
      · next hstep =>
        have hsome := isSome_answer_of_step_eq_none hfeeds hstep first hfirst hdue
        rw [hnone] at hsome
        cases hsome

end

/-- All feeds of a list have answered, each at the end of its delay, so it has taken as long as the
slowest of them. -/
structure AllAnswered (now : Instant) (feeds : List φ) (ids : List FeedId) (later : Instant)
    (answers : List (String × Answer)) : Prop where
  length : answers.length = (ids.filter (· < feeds.length)).length
  delayed : ∀ id ∈ ids, ∀ feed, feeds[id]? = some feed →
    now + (PriceFeed.delay feed).nanos ≤ later
  slowest : later = now ∨ ∃ id ∈ ids, ∃ feed, feeds[id]? = some feed ∧
    later = now + (PriceFeed.delay feed).nanos

theorem mem_begin {now : Instant} {feeds : List φ} {ids : List FeedId} {request : Fetch} :
    request ∈ begin now feeds ids ↔ ∃ id ∈ ids, ∃ feed, feeds[id]? = some feed ∧
      request = ⟨id, now + (PriceFeed.delay feed).nanos, none⟩ := by
  simp only [begin, List.mem_filterMap, Option.map_eq_some_iff, eq_comm (a := request)]

theorem allAnswered_of_collect {now later : Instant} {feeds others : List φ} {ids : List FeedId}
    {answers : List (String × Answer)} (h : collect now feeds ids = .ok (later, others, answers)) :
    AllAnswered now feeds ids later answers := by
  obtain ⟨⟨t, changed, answered⟩, hcollected, hresult⟩ := bind_eq_ok_iff.mp h
  obtain ⟨rfl, -, rfl⟩ := by simpa using pure_eq_ok_iff.mp hresult
  have hvalid : ∀ request ∈ begin now feeds ids, request.feed < feeds.length := by
    intro request hrequest
    obtain ⟨id, -, feed, hfeed, rfl⟩ := mem_begin.mp hrequest
    exact (List.getElem?_eq_some_iff.mp hfeed).1
  have hall := collected_of_collectSome List.countP_le_length hvalid hcollected
  refine ⟨?_, ?_, ?_⟩
  · have hlength := congrArg List.length hall.feeds
    rw [map_feed_begin, List.length_map] at hlength
    rw [← hlength, List.length_filterMap_eq_countP, List.countP_eq_length]
    exact hall.complete
  · intro id hid feed hfeed
    exact hall.due _ (mem_begin.mpr ⟨id, hid, feed, hfeed, rfl⟩) rfl
  · refine hall.last.imp_right ?_
    rintro ⟨request, hrequest, -, rfl⟩
    obtain ⟨id, hid, feed, hfeed, rfl⟩ := mem_begin.mp hrequest
    exact ⟨id, hid, feed, hfeed, rfl⟩

end ExchangeRates.Fetch

namespace ExchangeRates.RateBook

variable {φ : Type} [PriceFeed φ] {now later : Instant} {book : RateBook} {config : RateConfig}
  {feeds others : List φ} {ids : List FeedId} {events : List LogEvent}
  {outcome : Except RateError (RateBook × RefreshResult)}

/-- A refresh from feeds is one refresh with the answers of all of them, at the instant of the last
answer, also if some of them fail. -/
theorem exists_allAnswered_of_refreshFrom
    (h : book.refreshFrom now config feeds ids = .ok (later, others, events, outcome)) :
    ∃ answers, Fetch.AllAnswered now feeds ids later answers ∧
      outcome = book.refresh later config answers ∧ events = failureEvents answers := by
  obtain ⟨⟨t, changed, answers⟩, hcollected, hresult⟩ := bind_eq_ok_iff.mp h
  obtain ⟨rfl, -, rfl, rfl⟩ := by simpa using pure_eq_ok_iff.mp hresult
  exact ⟨answers, Fetch.allAnswered_of_collect hcollected, rfl, rfl⟩

end ExchangeRates.RateBook

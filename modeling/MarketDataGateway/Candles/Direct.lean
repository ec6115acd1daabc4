import MarketDataGateway.Candles.Bucket

/-!
# Candles directly from quotes

`minuteCandles` builds the minute candles of quotes as they arrive, by `from_quote` and
`with_quote`. `DirectSeries` says what the candles of a timeframe are in terms of the quotes alone:
those of the aligned intervals of the window in which a quote lies, each the aggregate of the quotes
that lie in it. `aggregateBaseCandles_direct` is that the two steps of aggregation, by minutes and
then by buckets, make this series, whatever the order in which the quotes arrive and the minute
candles are passed on.

Instants are unbounded here and timestamps exact: `Candles/Dated.lean` carries the result over to
datetimes.
-/

namespace MarketDataGateway

open Lib BaseMinuteCandle

/-- The minute candles with one more quote, which goes to the candle of its minute by `with_quote`,
or begins it by `from_quote`. -/
def takeQuote (ms : List BaseMinuteCandle) (q : QuoteEvent) :
    Except PyError (List BaseMinuteCandle) :=
  putOn BaseMinuteCandle.openTime ms <$>
    match ms.find? fun m => m.openTime = minuteOf q with
    | none => .ok (fromQuote q)
    | some m => m.withQuote q

/-- The minute candles of quotes that arrive in the order of the list. -/
def minuteCandles (qs : List QuoteEvent) : Except PyError (List BaseMinuteCandle) :=
  qs.foldlM takeQuote []

/-- The quotes that lie in the interval of a timeframe that starts at `start`. -/
def quotesIn (timeframe : CandleTimeframe) (start : Timestamp) (qs : List QuoteEvent) :
    List QuoteEvent :=
  qs.filter fun q => start ≤ q.providerTimestamp ∧
    q.providerTimestamp < start + timeframeSeconds timeframe * second

/-- `cs` are the candles of the quotes `qs`, for a limit and an end of the window. -/
structure DirectSeries (symbol : Symbol) (timeframe : CandleTimeframe)
    (limit : ℤ) («end» : Timestamp)
    (qs : List QuoteEvent) (cs : List Candle) : Prop where
  /-- The candles are sorted. -/
  sorted : cs.Pairwise fun c c' => c.openTime < c'.openTime
  /-- There are no more than the limit. -/
  length_le : cs.length ≤ limit
  /-- There is a candle for each aligned interval with a quote that starts at most `limit` intervals
  before the one of the end of the window and ends by then, and for no other. -/
  intervals : ∀ start, (∃ c ∈ cs, c.openTime = start) ↔
    timeframeSeconds timeframe * second ∣ start ∧ quotesIn timeframe start qs ≠ [] ∧
      «end» / (timeframeSeconds timeframe * second) * (timeframeSeconds timeframe * second) -
        limit * (timeframeSeconds timeframe * second) ≤ start ∧
      start + timeframeSeconds timeframe * second ≤ «end»
  /-- Each candle is the aggregate of the quotes in its interval. -/
  candle : ∀ c ∈ cs, c.symbol = symbol ∧ c.timeframe = timeframe ∧
    c.closeTime = c.openTime + timeframeSeconds timeframe * second ∧ c.closed = true ∧
    c.AggregateOf (quotesIn timeframe c.openTime qs)

section Minutes

variable {ms ms' : List BaseMinuteCandle} {qs qs' : List QuoteEvent} {q : QuoteEvent}

/-- The quotes of a minute, with one more. -/
theorem minuteQuotes_cons (minute : Timestamp) (q : QuoteEvent) (qs : List QuoteEvent) :
    minuteQuotes minute (q :: qs) =
      if minuteOf q = minute then q :: minuteQuotes minute qs else minuteQuotes minute qs := by
  simp [minuteQuotes, List.filter_cons]

/-- The candle of a minute with its new quote takes the place of the one without it. -/
theorem MinutesOf.put (h : MinutesOf ms qs) {c : BaseMinuteCandle} (hopen : c.openTime = minuteOf q)
    (hc : c.Aggregates (q :: minuteQuotes (minuteOf q) qs)) :
    MinutesOf (putOn BaseMinuteCandle.openTime ms c) (q :: qs) := by
  constructor
  case nodup => exact putOn_keys_nodup h.nodup c
  case aggregates =>
    intro m hm
    rw [minuteQuotes_cons]
    rcases mem_putOn.1 hm with rfl | ⟨hm, hne⟩
    · rw [hopen, if_pos rfl]
      exact hc
    · rw [hopen] at hne
      rw [if_neg hne.symm]
      exact h.aggregates m hm
  case cover =>
    intro q' hq'
    by_cases hminute : minuteOf q' = minuteOf q
    · exact ⟨c, mem_putOn.2 (Or.inl rfl), hopen.trans hminute.symm⟩
    · rcases List.mem_cons.1 hq' with rfl | hq'
      · exact absurd rfl hminute
      · obtain ⟨m, hm, hm'⟩ := h.cover q' hq'
        exact ⟨m, mem_putOn.2 (Or.inr ⟨hm, by rwa [hm', hopen]⟩), hm'⟩

/-- One more quote of the symbol makes the minute candles of the quotes with it. -/
theorem takeQuote_spec {symbol : Symbol} (h : MinutesOf ms qs)
    (hone : ∀ q' ∈ q :: qs, q'.symbol = symbol) :
    ∃ ms', takeQuote ms q = .ok ms' ∧ MinutesOf ms' (q :: qs) := by
  unfold takeQuote
  cases hfind : ms.find? fun m => m.openTime = minuteOf q with
  | none =>
    -- The minute has no candle, so it has had no quote.
    have hnil : minuteQuotes (minuteOf q) qs = [] := by
      refine List.filter_eq_nil_iff.2 fun q' hq' hminute => ?_
      obtain ⟨m, hm, hopen⟩ := h.cover q' hq'
      have hno := List.find?_eq_none.1 hfind m hm
      exact hno (decide_eq_true (hopen.trans (of_decide_eq_true hminute)))
    refine ⟨_, rfl, h.put rfl ?_⟩
    rw [hnil]
    exact aggregates_fromQuote q
  | some m =>
    have hm : m ∈ ms := List.mem_of_find?_eq_some hfind
    have hopen : m.openTime = minuteOf q := by simpa using List.find?_some hfind
    have hagg := h.aggregates m hm
    -- The candle's quotes are of the same symbol.
    have hcovers : m.Covers q := by
      obtain ⟨q', hq'⟩ := List.exists_mem_of_ne_nil _ hagg.summary.ne_nil
      have hsymbol := (hagg.covers q' hq').1
      have hq' : q' ∈ qs := (List.mem_filter.1 hq').1
      refine ⟨?_, hopen.symm⟩
      rw [← hsymbol, hone q List.mem_cons_self, hone q' (List.mem_cons_of_mem _ hq')]
    rw [hopen] at hagg
    refine ⟨_, congrArg (Functor.map _) hcovers.withQuote_eq, h.put hopen (hagg.update hcovers)⟩

/-- The order of the quotes does not matter to their minute candles. -/
theorem MinutesOf.perm (h : MinutesOf ms qs) (hp : qs.Perm qs') : MinutesOf ms qs' where
  nodup := h.nodup
  aggregates m hm := (h.aggregates m hm).perm (hp.filter _)
  cover q hq := h.cover q (hp.mem_iff.2 hq)

/-- Quotes of one symbol have their minute candles, in whatever order they arrive. -/
theorem minuteCandles_spec {symbol : Symbol} (hone : ∀ q ∈ qs, q.symbol = symbol) :
    ∃ ms, minuteCandles qs = .ok ms ∧ MinutesOf ms qs := by
  induction qs using List.reverseRecOn with
  | nil => exact ⟨[], rfl, List.nodup_nil, by simp, by simp⟩
  | append_singleton qs q ih =>
    obtain ⟨ms, hms, hof⟩ := ih fun q' hq' => hone q' (List.mem_append_left _ hq')
    have hone' : ∀ q' ∈ q :: qs, q'.symbol = symbol := fun q' hq' => by
      rcases List.mem_cons.1 hq' with rfl | hq'
      · exact hone q' (by simp)
      · exact hone q' (List.mem_append_left _ hq')
    obtain ⟨ms', hms', hof'⟩ := takeQuote_spec hof hone'
    refine ⟨ms', ?_, hof'.perm (List.perm_append_singleton q qs).symm⟩
    unfold minuteCandles at hms ⊢
    rw [List.foldlM_append, hms]
    change [q].foldlM takeQuote ms = _
    rw [List.foldlM_cons, hms']
    rfl

/-- With distinct event ids, a minute candle of some quotes is in any list of their minute
candles. -/
theorem MinutesOf.mem_of_mem (h : MinutesOf ms qs) (h' : MinutesOf ms' qs)
    (hid : (qs.map QuoteEvent.eventId).Nodup) {m : BaseMinuteCandle} (hm : m ∈ ms) : m ∈ ms' := by
  have hagg := h.aggregates m hm
  obtain ⟨q, hq, hminute⟩ := exists_minuteOf hagg
  obtain ⟨m', hm', hopen⟩ := h'.cover q (List.mem_filter.1 hq).1
  have hagg' := h'.aggregates m' hm'
  rw [hopen, hminute] at hagg'
  have heq : m = m' := hagg.unique hagg' (hid.sublist (List.filter_sublist.map _))
  exact heq ▸ hm'

/-- With distinct event ids, the minute candles of quotes are determined, up to their order. -/
theorem MinutesOf.perm_of_nodup (h : MinutesOf ms qs) (h' : MinutesOf ms' qs)
    (hid : (qs.map QuoteEvent.eventId).Nodup) : ms.Perm ms' :=
  (List.perm_ext_iff_of_nodup (List.Nodup.of_map _ h.nodup) (List.Nodup.of_map _ h'.nodup)).2
    fun _ => ⟨h.mem_of_mem h' hid, h'.mem_of_mem h hid⟩

end Minutes

section Direct

variable {symbol : Symbol} {timeframe : CandleTimeframe}
  {start effectiveEnd «end» value : Timestamp}
  {limit retentionSeconds intervalSeconds : ℤ} {base base' : List BaseMinuteCandle}
  {qs : List QuoteEvent} {cs : List Candle}

/-- From 1970 on `floor_time` rounds down. -/
theorem floorTime_of_nonneg (h : 0 ≤ value) :
    floorTime value intervalSeconds =
      value / (intervalSeconds * second) * (intervalSeconds * second) := by
  have hepoch : value.tdiv second = value / second := Int.tdiv_eq_ediv_of_nonneg h
  have hmod : value / second - value / second % intervalSeconds =
      intervalSeconds * (value / second / intervalSeconds) :=
    sub_eq_of_eq_add (Int.mul_ediv_add_emod (value / second) intervalSeconds).symm
  have hdiv : value / second / intervalSeconds = value / (intervalSeconds * second) := by
    rw [mul_comm intervalSeconds, Int.ediv_ediv_of_nonneg (by decide)]
  rw [floorTime, hepoch, hmod, hdiv]
  ring

/-- From 1970 on an instant is rounded down to the aligned start of the interval that it lies in. -/
theorem floorTime_eq_iff (h : 0 ≤ value) (hi : 0 < intervalSeconds) :
    floorTime value intervalSeconds = start ↔
      intervalSeconds * second ∣ start ∧ start ≤ value ∧
      value < start + intervalSeconds * second := by
  have hwidth : 0 < intervalSeconds * second := Int.mul_pos hi (by decide)
  rw [floorTime_of_nonneg h]
  constructor
  · rintro rfl
    have hlt := Int.lt_ediv_add_one_mul_self value hwidth
    rw [add_mul, one_mul] at hlt
    exact ⟨Int.dvd_mul_left _ _, Int.ediv_mul_le _ hwidth.ne', hlt⟩
  · rintro ⟨⟨k, rfl⟩, hle, hlt⟩
    have hk : value / (intervalSeconds * second) = k := by
      apply le_antisymm
      · rw [← Int.lt_add_one_iff, Int.ediv_lt_iff_lt_mul hwidth]
        calc value < intervalSeconds * second * k + intervalSeconds * second := hlt
          _ = (k + 1) * (intervalSeconds * second) := by ring
      · rw [Int.le_ediv_iff_mul_le hwidth, mul_comm]
        exact hle
    rw [hk, mul_comm]

/-- The quotes of a bucket are those that lie in its interval, if they are from 1970 on. -/
theorem bucketQuotes_eq_quotesIn (hts : ∀ q ∈ qs, 0 ≤ q.providerTimestamp)
    (hstart : timeframeSeconds timeframe * second ∣ start) :
    bucketQuotes timeframe start qs = quotesIn timeframe start qs := by
  refine List.filter_congr fun q hq => ?_
  have hiff : floorTime q.providerTimestamp (timeframeSeconds timeframe) = start ↔ _ :=
    floorTime_eq_iff (hts q hq) (timeframeSeconds_pos timeframe)
  simp only [hiff, hstart, true_and]

/-- The window of a limit. -/
theorem historyWindow_eq (timeframe : CandleTimeframe) («end» : Timestamp) (hlimit : 1 ≤ limit) :
    historyWindow timeframe limit «end» =
    .ok (floorTime «end» (timeframeSeconds timeframe) -
      limit * (timeframeSeconds timeframe * second), «end») := by
  have hstart : floorTime «end» (timeframeSeconds timeframe) - timeframeSeconds timeframe * second -
      timeframeSeconds timeframe * (limit - 1) * second =
      floorTime «end» (timeframeSeconds timeframe) - limit *
      (timeframeSeconds timeframe * second) := by
    ring
  unfold historyWindow
  rw [if_neg (by omega)]
  dsimp only
  rw [hstart]

/-- The order in which minute candles of distinct minutes are passed does not matter. -/
theorem aggregateBaseCandles_perm (hnodup : (base.map BaseMinuteCandle.openTime).Nodup)
    (hp : base.Perm base') :
    aggregateBaseCandles symbol timeframe limit «end» retentionSeconds base' =
      aggregateBaseCandles symbol timeframe limit «end» retentionSeconds base := by
  have hsorted (l : List BaseMinuteCandle) (hl : (l.map BaseMinuteCandle.openTime).Nodup) :
      (l.insertionSort fun a b => a.openTime ≤ b.openTime).Pairwise
        fun a b => a.openTime < b.openTime :=
    pairwise_lt_of_nodup (pairwise_sortOn BaseMinuteCandle.openTime l)
      (((List.perm_insertionSort _ l).map _).nodup_iff.2 hl)
  have hsort : base'.insertionSort (fun a b => a.openTime ≤ b.openTime) =
      base.insertionSort fun a b => a.openTime ≤ b.openTime := by
    refine eq_of_pairwise_lt_of_mem_iff (hsorted base' ((hp.map _).nodup_iff.1 hnodup))
      (hsorted base hnodup) fun m => ?_
    rw [List.mem_insertionSort, List.mem_insertionSort, hp.mem_iff]
  unfold aggregateBaseCandles groupedCandles
  rw [hsort]

/-- A series of the minute candles of quotes from 1970 on is the series of the quotes. -/
theorem SeriesOf.direct (h : SeriesOf symbol timeframe start effectiveEnd base cs)
    (hof : MinutesOf base qs) (hts : ∀ q ∈ qs, 0 ≤ q.providerTimestamp) (hlimit : 1 ≤ limit)
    (hwindow : historyWindow timeframe limit «end» = .ok (start, effectiveEnd)) :
    DirectSeries symbol timeframe limit «end» qs cs := by
  have hi := timeframeSeconds_pos timeframe
  have hwidth : 0 < timeframeSeconds timeframe * second := Int.mul_pos hi (by decide)
  have hlength := length_le_of_window hwindow h.sorted fun c hc => h.room hc
  rw [historyWindow_eq timeframe «end» hlimit] at hwindow
  obtain ⟨rfl, rfl⟩ := Prod.mk.inj (Except.ok.inj hwindow)
  -- The minutes of a bucket are those of the quotes in its interval.
  have hbucket (bucket : Timestamp) (hdvd : timeframeSeconds timeframe * second ∣ bucket) :
      MinutesOf (bucketMinutes timeframe bucket base) (quotesIn timeframe bucket qs) := by
    rw [← bucketQuotes_eq_quotesIn hts hdvd]
    exact minutesOf_bucketMinutes hof.nodup (fun m hm => hof.aggregates m (List.mem_filter.1 hm).1)
      fun q hq => hof.cover q (List.mem_filter.1 hq).1
  have haligned (c : Candle) (hc : c ∈ cs) : timeframeSeconds timeframe * second ∣ c.openTime := by
    rw [mul_comm]
    exact (h.room hc).1
  -- An interval with a quote starts in 1970 or later, and so does one that ends after it.
  have hfloor (bucket : Timestamp) (hdvd : timeframeSeconds timeframe * second ∣ bucket)
      (hne : quotesIn timeframe bucket qs ≠ [])
      (hend : bucket + timeframeSeconds timeframe * second ≤ «end») :
      floorTime «end» (timeframeSeconds timeframe) =
        «end» / (timeframeSeconds timeframe * second) * (timeframeSeconds timeframe * second) := by
    obtain ⟨q, hq⟩ := List.exists_mem_of_ne_nil _ hne
    obtain ⟨hq, hin⟩ := List.mem_filter.1 hq
    have hlt := (of_decide_eq_true hin).2
    exact floorTime_of_nonneg (((hts q hq).trans hlt.le).trans hend)
  constructor
  case sorted => exact h.sorted
  case length_le => exact hlength
  case intervals =>
    intro bucket
    constructor
    · rintro ⟨c, hc, rfl⟩
      have hdvd := haligned c hc
      obtain ⟨-, hlo, hend⟩ := h.room hc
      have hne : quotesIn timeframe c.openTime qs ≠ [] := by
        obtain ⟨q, hq, -⟩ := ((hbucket c.openTime hdvd).aggregateOf (h.bucket c hc)).opening
        exact List.ne_nil_of_mem hq
      refine ⟨hdvd, hne, ?_, hend⟩
      rwa [← hfloor c.openTime hdvd hne hend]
    · rintro ⟨hdvd, hne, hlo, hend⟩
      rw [← hfloor bucket hdvd hne hend] at hlo
      obtain ⟨q, hq⟩ := List.exists_mem_of_ne_nil _ hne
      rw [← bucketQuotes_eq_quotesIn hts hdvd] at hq
      obtain ⟨hq, hin⟩ := List.mem_filter.1 hq
      obtain ⟨m, hm, hopen⟩ := hof.cover q hq
      have hm' : floorTime m.openTime (timeframeSeconds timeframe) = bucket := by
        rw [hopen, floorTime_minuteOf]
        exact of_decide_eq_true hin
      obtain ⟨c, hc, ho⟩ := h.complete m hm (by rwa [hm']) (by rwa [hm'])
      exact ⟨c, hc, ho.trans hm'⟩
  case candle =>
    intro c hc
    have hb := h.bucket c hc
    exact ⟨hb.symbol_eq, hb.timeframe_eq, hb.closeTime_eq, hb.closed_eq,
      (hbucket c.openTime (haligned c hc)).aggregateOf hb⟩

/-- `from_quote`, `with_quote` and `aggregate_base_candles` together aggregate quotes directly: over
the minute candles of quotes from 1970 on, in any order, that arrive in any order, the series has
the candles of the quotes. -/
theorem aggregateBaseCandles_direct (hsymbol : symbolOk symbol = true)
    (hone : ∀ q ∈ qs, q.symbol = symbol) (hid : (qs.map QuoteEvent.eventId).Nodup)
    (hts : ∀ q ∈ qs, 0 ≤ q.providerTimestamp) (timeframe : CandleTimeframe) (hlimit : 1 ≤ limit)
    (hroom : limit ≤ 1000) («end» : Timestamp) (hretention : 0 < retentionSeconds) :
    ∃ series, DirectSeries symbol timeframe limit «end» qs series.data ∧
      ∀ arrival, arrival.Perm qs → ∃ ms, minuteCandles arrival = .ok ms ∧
        ∀ base, base.Perm ms →
          aggregateBaseCandles symbol timeframe limit «end» retentionSeconds base = .ok series := by
  obtain ⟨ms₀, -, hof₀⟩ := minuteCandles_spec hone
  have hwindow := historyWindow_eq timeframe «end» hlimit
  obtain ⟨cs, hseries, hresult⟩ := aggregateBaseCandles_spec symbol retentionSeconds hwindow
    fun m hm => placed_of_aggregates (hof₀.aggregates m hm)
  have hdirect := hseries.direct hof₀ hts hlimit hwindow
  rw [takeLast_eq_self hdirect.length_le] at hresult
  unfold CandleSeries.validate at hresult
  rw [if_neg (by simp [hsymbol]), if_neg (by dsimp only; omega), if_neg (by dsimp only; omega)]
    at hresult
  obtain ⟨series, hok, rfl⟩ : ∃ series : CandleSeries,
      aggregateBaseCandles symbol timeframe limit «end» retentionSeconds ms₀ = .ok series ∧
        series.data = cs := ⟨_, hresult, rfl⟩
  refine ⟨series, hdirect, fun arrival harrival => ?_⟩
  obtain ⟨ms, hms, hof⟩ := minuteCandles_spec fun q hq => hone q (harrival.mem_iff.1 hq)
  refine ⟨ms, hms, fun base hbase => ?_⟩
  -- Both lists of minute candles are the same, up to their order.
  have hperm : ms₀.Perm ms := hof₀.perm_of_nodup (hof.perm harrival) hid
  rw [aggregateBaseCandles_perm hof₀.nodup (hperm.trans hbase.symm)]
  exact hok

end Direct

end MarketDataGateway

import MarketDataGateway.Candles.Series

/-!
# Candles of buckets of quotes

What the candle of a bucket is in terms of quotes. `WholeBucket ms qs` says that `ms` are the minute
candles of all the quotes `qs`, each folded from the quotes of its minute. The candle of a bucket
whose minute candles are such is the aggregate of the quotes (`BucketOf.aggregateOf`), and there is
only one (`WholeBucket.unique`).
-/

namespace MarketDataGateway

open Lib

/-- The minute of a quote. -/
def minuteOf (event : QuoteEvent) : Timestamp := floorTime event.providerTimestamp 60

/-- The quotes of a bucket. -/
def bucketQuotes (timeframe : CandleTimeframe) (bucket : Timestamp) (qs : List QuoteEvent) :
    List QuoteEvent :=
  qs.filter fun q => floorTime q.providerTimestamp (timeframeSeconds timeframe) = bucket

/-- `c` is the aggregate of the quotes `qs`. -/
structure Candle.AggregateOf (c : Candle) (qs : List QuoteEvent) : Prop where
  /-- The open is the price of the first quote. -/
  opening : ∃ q ∈ qs, (∀ q' ∈ qs, q.key ≤ q'.key) ∧ c.open = q.price
  /-- The close is the price of the last quote. -/
  closing : ∃ q ∈ qs, (∀ q' ∈ qs, q'.key ≤ q.key) ∧ c.close = q.price
  high : IsGreatest (QuoteEvent.price '' {q | q ∈ qs}) c.high
  low : IsLeast (QuoteEvent.price '' {q | q ∈ qs}) c.low
  activityCount_eq : c.activityCount = qs.length
  firstObservation : IsLeast (QuoteEvent.providerTimestamp '' {q | q ∈ qs}) c.firstObservation
  lastObservation : IsGreatest (QuoteEvent.providerTimestamp '' {q | q ∈ qs}) c.lastObservation

/-- The quotes of a minute. -/
def minuteQuotes (minute : Timestamp) (qs : List QuoteEvent) : List QuoteEvent :=
  qs.filter fun q => minuteOf q = minute

/-- `ms` are candles of the minutes of the quotes `qs`. -/
structure MinutesOf (ms : List BaseMinuteCandle) (qs : List QuoteEvent) : Prop where
  /-- There is one candle a minute. -/
  nodup : (ms.map BaseMinuteCandle.openTime).Nodup
  /-- Each candle is the candle of the quotes of its minute. -/
  aggregates : ∀ m ∈ ms, m.Aggregates (minuteQuotes m.openTime qs)
  /-- No minute is missing. -/
  cover : ∀ q ∈ qs, ∃ m ∈ ms, m.openTime = minuteOf q

/-- `ms` are the minute candles of the quotes `qs`, of which the last one comes first. -/
structure WholeBucket (ms : List BaseMinuteCandle) (qs : List QuoteEvent) : Prop where
  /-- There is one candle a minute. -/
  nodup : (ms.map BaseMinuteCandle.openTime).Nodup
  /-- Each candle is folded from the quotes of its minute. -/
  folds : ∀ m ∈ ms, foldQuotes (minuteQuotes m.openTime qs).reverse = .ok (some m)
  /-- No minute is missing. -/
  cover : ∀ q ∈ qs, ∃ m ∈ ms, m.openTime = minuteOf q

section Bucket

variable {symbol : Symbol} {timeframe : CandleTimeframe} {bucket : Timestamp}
  {ms ms' : List BaseMinuteCandle} {m : BaseMinuteCandle} {c c' : Candle} {qs : List QuoteEvent}

/-- The bucket of a quote is that of its minute. -/
theorem floorTime_minuteOf (timeframe : CandleTimeframe) (q : QuoteEvent) :
    floorTime (minuteOf q) (timeframeSeconds timeframe) =
      floorTime q.providerTimestamp (timeframeSeconds timeframe) :=
  floorTime_floorTime (by decide) (sixty_dvd_timeframeSeconds timeframe) _

/-- A quote of an earlier minute has the lower key. -/
theorem key_lt_of_minuteOf_lt {q q' : QuoteEvent} (h : minuteOf q < minuteOf q') :
    q.key < q'.key := by
  apply QuoteEvent.key_lt_of_timestamp_lt
  by_contra hle
  exact absurd h (not_lt.2 (floorTime_mono (by decide) (not_lt.1 hle)))

/-- The first observation of a minute candle is the least of its quotes' timestamps. -/
theorem BaseMinuteCandle.Aggregates.isLeast_first (h : m.Aggregates qs) :
    IsLeast (QuoteEvent.providerTimestamp '' {q | q ∈ qs}) m.firstProviderTimestamp := by
  obtain ⟨q, hq, hkey, -⟩ := h.summary.opening
  have hts : q.providerTimestamp = m.firstProviderTimestamp :=
    congrArg (fun k => (ofLex k).1) hkey
  refine ⟨⟨q, hq, hts⟩, ?_⟩
  rintro _ ⟨q', hq', rfl⟩
  rw [← hts]
  exact QuoteEvent.timestamp_le_of_key_le (hkey.trans_le (h.summary.first.2 ⟨q', hq', rfl⟩))

/-- The last observation of a minute candle is the greatest of its quotes' timestamps. -/
theorem BaseMinuteCandle.Aggregates.isGreatest_last (h : m.Aggregates qs) :
    IsGreatest (QuoteEvent.providerTimestamp '' {q | q ∈ qs}) m.lastProviderTimestamp := by
  obtain ⟨q, hq, hkey, -⟩ := h.summary.closing
  have hts : q.providerTimestamp = m.lastProviderTimestamp :=
    congrArg (fun k => (ofLex k).1) hkey
  refine ⟨⟨q, hq, hts⟩, ?_⟩
  rintro _ ⟨q', hq', rfl⟩
  rw [← hts]
  exact QuoteEvent.timestamp_le_of_key_le
    ((h.summary.last.2 ⟨q', hq', rfl⟩).trans_eq hkey.symm)

/-- The quotes are those of the minutes. -/
theorem MinutesOf.exists_mem_minuteQuotes (h : MinutesOf ms qs) {q : QuoteEvent} (hq : q ∈ qs) :
    ∃ m ∈ ms, q ∈ minuteQuotes m.openTime qs := by
  obtain ⟨m, hm, hopen⟩ := h.cover q hq
  exact ⟨m, hm, List.mem_filter.2 ⟨hq, by simp [hopen]⟩⟩

namespace WholeBucket

/-- Each minute candle is the candle of its minute's quotes. -/
theorem aggregates (h : WholeBucket ms qs) (hm : m ∈ ms) :
    m.Aggregates (minuteQuotes m.openTime qs) :=
  (aggregates_of_foldQuotes (h.folds m hm)).perm (List.reverse_perm _)

/-- The minute candles of a whole bucket are candles of its minutes. -/
theorem minutesOf (h : WholeBucket ms qs) : MinutesOf ms qs :=
  ⟨h.nodup, fun _ hm => h.aggregates hm, h.cover⟩

/-- A minute candle of a whole bucket is in any other list of its minute candles. -/
theorem mem_of_mem (h : WholeBucket ms qs) (h' : WholeBucket ms' qs) (hm : m ∈ ms) : m ∈ ms' := by
  obtain ⟨q, hq⟩ := List.exists_mem_of_ne_nil _ (h.aggregates hm).summary.ne_nil
  obtain ⟨hq, hminute⟩ := List.mem_filter.1 hq
  obtain ⟨m', hm', hopen⟩ := h'.cover q hq
  have hopen : m'.openTime = m.openTime := hopen.trans (of_decide_eq_true hminute)
  have hfold := h'.folds m' hm'
  rw [hopen, h.folds m hm] at hfold
  obtain rfl : m = m' := Option.some.inj (Except.ok.inj hfold)
  exact hm'

/-- The minute candles of a bucket's quotes are determined, up to their order. -/
theorem perm (h : WholeBucket ms qs) (h' : WholeBucket ms' qs) : ms.Perm ms' :=
  (List.perm_ext_iff_of_nodup (List.Nodup.of_map _ h.nodup) (List.Nodup.of_map _ h'.nodup)).2
    fun _ => ⟨h.mem_of_mem h', h'.mem_of_mem h⟩

/-- So is the candle of the bucket. -/
theorem unique (h : WholeBucket ms qs) (h' : WholeBucket ms' qs)
    (hc : BucketOf symbol timeframe bucket ms c) (hc' : BucketOf symbol timeframe bucket ms' c') :
    c = c' := by
  have hinj : Set.InjOn BaseMinuteCandle.openTime {m | m ∈ ms'} := fun m hm m' hm' heq =>
    List.inj_on_of_nodup_map h'.nodup hm hm' heq
  exact (hc.perm (h.perm h')).unique hc' hinj

end WholeBucket

/-- The candle of a bucket whose minutes are all there is the aggregate of the quotes. -/
theorem MinutesOf.aggregateOf (h : MinutesOf ms qs)
    (hc : BucketOf symbol timeframe bucket ms c) : c.AggregateOf qs := by
  have hsub : ∀ m ∈ ms, ∀ q ∈ minuteQuotes m.openTime qs, q ∈ qs :=
    fun m _ q hq => (List.mem_filter.1 hq).1
  have hcover : ∀ q ∈ qs, ∃ m ∈ ms, q ∈ minuteQuotes m.openTime qs :=
    fun q hq => h.exists_mem_minuteQuotes hq
  have hminute : ∀ m ∈ ms, ∀ q ∈ minuteQuotes m.openTime qs, minuteOf q = m.openTime :=
    fun m _ q hq => of_decide_eq_true (List.mem_filter.1 hq).2
  constructor
  case opening =>
    -- The first quote of the first minute is the first quote.
    obtain ⟨m, hm, hleast, hopen⟩ := hc.opening
    obtain ⟨q, hq, hkey, hprice⟩ := (h.aggregates _ hm).summary.opening
    refine ⟨q, hsub m hm q hq, fun q' hq' => ?_, hopen.trans hprice.symm⟩
    obtain ⟨m', hm', hq'⟩ := hcover q' hq'
    rcases (hleast m' hm').lt_or_eq with hlt | heq
    · rw [← hminute m hm q hq, ← hminute m' hm' q' hq'] at hlt
      exact (key_lt_of_minuteOf_lt hlt).le
    · rw [← heq] at hq'
      exact hkey.trans_le ((h.aggregates _ hm).summary.first.2 ⟨q', hq', rfl⟩)
  case closing =>
    -- The last quote of the last minute is the last quote.
    obtain ⟨m, hm, hgreatest, hclose⟩ := hc.closing
    obtain ⟨q, hq, hkey, hprice⟩ := (h.aggregates _ hm).summary.closing
    refine ⟨q, hsub m hm q hq, fun q' hq' => ?_, hclose.trans hprice.symm⟩
    obtain ⟨m', hm', hq'⟩ := hcover q' hq'
    rcases (hgreatest m' hm').lt_or_eq with hlt | heq
    · rw [← hminute m hm q hq, ← hminute m' hm' q' hq'] at hlt
      exact (key_lt_of_minuteOf_lt hlt).le
    · rw [heq] at hq'
      exact ((h.aggregates _ hm).summary.last.2 ⟨q', hq', rfl⟩).trans_eq hkey.symm
  case high =>
    exact isGreatest_of_parts (fun m hm => (h.aggregates _ hm).summary.high) hc.high hsub hcover
  case low =>
    exact isLeast_of_parts (fun m hm => (h.aggregates _ hm).summary.low) hc.low hsub hcover
  case activityCount_eq =>
    -- The quotes are counted minute by minute.
    have hkeys : ∀ q ∈ qs, minuteOf q ∈ ms.map BaseMinuteCandle.openTime := fun q hq => by
      obtain ⟨m, hm, hopen⟩ := h.cover q hq
      exact List.mem_map.2 ⟨m, hm, hopen⟩
    rw [hc.activityCount_eq, ← sum_length_filter minuteOf h.nodup hkeys, List.map_map]
    congr 1
    exact List.map_congr_left fun m hm => (h.aggregates _ hm).summary.count
  case firstObservation =>
    exact isLeast_of_parts (fun m hm => (h.aggregates _ hm).isLeast_first) hc.firstObservation hsub
      hcover
  case lastObservation =>
    exact isGreatest_of_parts (fun m hm => (h.aggregates _ hm).isGreatest_last) hc.lastObservation
      hsub hcover

/-- So is the candle of a whole bucket. -/
theorem BucketOf.aggregateOf (hc : BucketOf symbol timeframe bucket ms c)
    (h : WholeBucket ms qs) : c.AggregateOf qs :=
  h.minutesOf.aggregateOf hc

/-- The quotes of a minute are quotes of its bucket. -/
theorem minuteQuotes_bucketQuotes (timeframe : CandleTimeframe) (m : Timestamp)
    (qs : List QuoteEvent) :
    minuteQuotes m (bucketQuotes timeframe (floorTime m (timeframeSeconds timeframe)) qs) =
      minuteQuotes m qs := by
  unfold minuteQuotes bucketQuotes
  rw [List.filter_filter]
  refine List.filter_congr fun q _ => ?_
  by_cases hq : minuteOf q = m
  · simp [← hq, floorTime_minuteOf]
  · simp [hq]

/-- The minute candles of a bucket are those of its quotes if each is the candle of its minute and
none is missing. -/
theorem minutesOf_bucketMinutes (hnodup : (ms.map BaseMinuteCandle.openTime).Nodup)
    (haggregates : ∀ m ∈ bucketMinutes timeframe bucket ms,
      m.Aggregates (minuteQuotes m.openTime qs))
    (hcover : ∀ q ∈ bucketQuotes timeframe bucket qs, ∃ m ∈ ms, m.openTime = minuteOf q) :
    MinutesOf (bucketMinutes timeframe bucket ms) (bucketQuotes timeframe bucket qs) := by
  constructor
  case nodup => exact hnodup.sublist (List.filter_sublist.map _)
  case aggregates =>
    intro m hm
    have hbucket : floorTime m.openTime (timeframeSeconds timeframe) = bucket :=
      of_decide_eq_true (List.mem_filter.1 hm).2
    rw [← hbucket, minuteQuotes_bucketQuotes]
    exact haggregates m hm
  case cover =>
    intro q hq
    obtain ⟨m, hm, hopen⟩ := hcover q hq
    have hbucket : floorTime q.providerTimestamp (timeframeSeconds timeframe) = bucket :=
      of_decide_eq_true (List.mem_filter.1 hq).2
    refine ⟨m, List.mem_filter.2 ⟨hm, decide_eq_true ?_⟩, hopen⟩
    rw [hopen, floorTime_minuteOf, hbucket]

/-- A candle that is the candle of quotes has one, in its minute. -/
theorem exists_minuteOf (h : m.Aggregates qs) : ∃ q ∈ qs, minuteOf q = m.openTime := by
  obtain ⟨q, hq⟩ := List.exists_mem_of_ne_nil _ h.summary.ne_nil
  exact ⟨q, hq, (h.covers q hq).2⟩

/-- The candle of quotes is in its place. -/
theorem placed_of_aggregates (h : m.Aggregates qs) : m.Placed := by
  have hprice : ∀ {x : ℚ}, (∃ q ∈ qs, q.price = x) → 0 < x := by
    rintro x ⟨q, -, rfl⟩
    exact q.price_pos
  obtain ⟨q, hq, hminute⟩ := exists_minuteOf h
  obtain ⟨qo, hqo, -, hopen⟩ := h.summary.opening
  obtain ⟨qc, hqc, -, hclose⟩ := h.summary.closing
  constructor
  case aligned =>
    rw [← hminute]
    exact dvd_floorTime _ _
  case last_lt =>
    obtain ⟨ql, hql, hlast⟩ := h.isGreatest_last.1
    rw [← hlast, ← (h.covers ql hql).2]
    exact lt_floorTime_add ql.providerTimestamp (by decide)
  case open_pos => exact hprice ⟨qo, hqo, hopen⟩
  case close_pos => exact hprice ⟨qc, hqc, hclose⟩
  case high_pos =>
    obtain ⟨qh, hqh, hhigh⟩ := h.summary.high.1
    exact hprice ⟨qh, hqh, hhigh⟩
  case low_pos =>
    obtain ⟨qw, hqw, hlow⟩ := h.summary.low.1
    exact hprice ⟨qw, hqw, hlow⟩
  case activityCount_pos =>
    have hcount : m.activityCount = qs.length := h.summary.count
    rw [hcount]
    exact List.length_pos_of_mem hq

end Bucket

end MarketDataGateway

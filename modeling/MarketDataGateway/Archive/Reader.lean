import MarketDataGateway.Archive.Persist
import MarketDataGateway.Candles.Series

/-!
# The archive reads candles as the hot store does

`PostgresCandleArchive.get_candles` of `candle_archive.py`, which runs the query `_SELECT_CANDLES`:
it selects the minutes of a range, groups them by the quotient of their epoch and the interval,
keeps the buckets that end in the range, and returns the latest ones, which `get_candles` reverses.

Its candles are the series of the table's minute candles (`seriesOf_selectCandles`), as are those of
`aggregate_base_candles`, so that the two readers agree. Instants are exact and unbounded here, for
both; what `OverflowError` at `datetime.min` and `datetime.max` changes for the hot reader is in
`Candles/Dated.lean`.
-/

namespace MarketDataGateway.Archive

open Lib

/-- A row of the query's result. -/
structure AggregatedRow where
  /-- `bucket_start`. -/
  bucketStart : Timestamp
  /-- `bucket_end`. -/
  bucketEnd : Timestamp
  /-- `open`. -/
  «open» : ℚ
  /-- `high`. -/
  high : ℚ
  /-- `low`. -/
  low : ℚ
  /-- `close`. -/
  close : ℚ
  /-- `activity_count`. -/
  activityCount : ℕ
  /-- `first_observation`. -/
  firstObservation : Timestamp
  /-- `last_observation`. -/
  lastObservation : Timestamp

/-- `to_timestamp(floor(extract(epoch FROM open_time) / $4) * $4)`. The integer quotient is the
floor of the exact one. -/
def bucketStart (openTime : Timestamp) (intervalSeconds : ℤ) : Timestamp :=
  openTime / (second * intervalSeconds) * intervalSeconds * second

/-- The row of `aggregated` for a group of minutes. The open is the first element of `array_agg`
by increasing `open_time`, the close the first by decreasing `open_time`. -/
def aggregatedRow (intervalSeconds : ℤ) (bucket : Timestamp) (x : CandleRow)
    (xs : List CandleRow) : AggregatedRow where
  bucketStart := bucket
  bucketEnd := bucket + intervalSeconds * second
  «open» := (((x :: xs).insertionSort fun a b => a.openTime ≤ b.openTime).headD x).open
  high := maxOf BaseMinuteCandle.high x xs
  low := minOf BaseMinuteCandle.low x xs
  close := (((x :: xs).insertionSort fun a b => b.openTime ≤ a.openTime).headD x).close
  activityCount := ((x :: xs).map BaseMinuteCandle.activityCount).sum
  firstObservation := minOf BaseMinuteCandle.firstProviderTimestamp x xs
  lastObservation := maxOf BaseMinuteCandle.lastProviderTimestamp x xs

/-- The rows of `aggregated`: one for each bucket with a minute of the range. -/
def aggregatedRows (t : CandleTable) (symbol : Symbol) (start effectiveEnd : Timestamp)
    (intervalSeconds : ℤ) : List AggregatedRow :=
  let bucketed := t.rows.filter fun r =>
    r.symbol = symbol ∧ r.openTime ≥ start ∧ r.openTime < effectiveEnd
  (groupOn (fun r => bucketStart r.openTime intervalSeconds) bucketed).filterMap fun
    | (_, []) => none
    | (bucket, x :: xs) => some (aggregatedRow intervalSeconds bucket x xs)

/-- The query `_SELECT_CANDLES`, before its `LIMIT`. -/
def orderedRows (t : CandleTable) (symbol : Symbol) (start effectiveEnd : Timestamp)
    (intervalSeconds : ℤ) : List AggregatedRow :=
  ((aggregatedRows t symbol start effectiveEnd intervalSeconds).filter fun a =>
    a.bucketEnd ≤ effectiveEnd).insertionSort fun a b => b.bucketStart ≤ a.bucketStart

/-- The query `_SELECT_CANDLES`. -/
def selectCandles (t : CandleTable) (symbol : Symbol) (start effectiveEnd : Timestamp)
    (intervalSeconds limit : ℤ) : List AggregatedRow :=
  (orderedRows t symbol start effectiveEnd intervalSeconds).take limit.toNat

/-- The candle that `get_candles` makes of a row. -/
def AggregatedRow.toCandle (symbol : Symbol) (timeframe : CandleTimeframe) (row : AggregatedRow) :
    Candle where
  symbol := symbol
  timeframe := timeframe
  openTime := row.bucketStart
  closeTime := row.bucketEnd
  «open» := row.open
  high := row.high
  low := row.low
  close := row.close
  activityCount := row.activityCount
  firstObservation := row.firstObservation
  lastObservation := row.lastObservation
  closed := true

/-- The `warnings` of a series from the archive. -/
def archiveWarnings : List String :=
  ["Candles are aggregated from observed quote prices; trade volume is unavailable.",
    "Intervals with no accepted quote observations are omitted.",
    "Durable history is stored as canonical one-minute candles and aggregated on read."]

/-- `PostgresCandleArchive.get_candles`, on a started archive. `upper` is `str.upper`. -/
def getCandles (upper : String → String) (cfg : Settings) (t : CandleTable) (symbol : String)
    (timeframe : CandleTimeframe) (limit : ℤ) («end» : Timestamp) :
    Except PyError CandleSeries := do
  let normalized := upper symbol
  let (start, effectiveEnd) ← historyWindow timeframe limit «end»
  let intervalSeconds := timeframeSeconds timeframe
  let rows := selectCandles t normalized start effectiveEnd intervalSeconds limit
  let data ← (rows.reverse.map (AggregatedRow.toCandle normalized timeframe)).mapM Candle.validate
  CandleSeries.validate {
    symbol := normalized
    timeframe := timeframe
    requestedLimit := limit
    returnedCount := data.length
    retentionSeconds := cfg.candleArchiveRetentionSeconds
    periodStart := start
    periodEnd := effectiveEnd
    data := data
    warnings := archiveWarnings }

/-! ## The query computes the series -/

section Query

variable {symbol : Symbol} {timeframe : CandleTimeframe} {bucket start effectiveEnd : Timestamp}
  {t : CandleTable} {row : AggregatedRow} {ms : List CandleRow}

/-- The table's minute candles of a symbol. -/
def symbolRows (t : CandleTable) (symbol : Symbol) : List BaseMinuteCandle :=
  t.rows.filter fun r => r.symbol = symbol

/-- A symbol's minute candles have distinct minutes, by the primary key. -/
theorem openTime_injOn_symbolRows (t : CandleTable) (symbol : Symbol) :
    Set.InjOn BaseMinuteCandle.openTime {m | m ∈ symbolRows t symbol} := by
  intro m hm m' hm' ho
  obtain ⟨hrow, hs⟩ := List.mem_filter.1 hm
  obtain ⟨hrow', hs'⟩ := List.mem_filter.1 hm'
  have hs : m.symbol = symbol := by simpa using hs
  have hs' : m'.symbol = symbol := by simpa using hs'
  exact List.inj_on_of_nodup_map t.pk hrow hrow' (by rw [rowKey, rowKey, hs, hs', ho])

/-- The query's buckets of whole seconds are those of `floor_time`. -/
theorem bucketStart_eq_floorTime {openTime : Timestamp} (h : second ∣ openTime)
    (intervalSeconds : ℤ) :
    bucketStart openTime intervalSeconds = floorTime openTime intervalSeconds := by
  rw [floorTime_of_dvd h, bucketStart]
  ring

/-- The first element of an insertion sort by a key has the least key. -/
theorem headD_sortOn {β : Type*} [LinearOrder β] (f : CandleRow → β) (x : CandleRow)
    (xs : List CandleRow) :
    ∃ m ∈ x :: xs, (∀ m' ∈ x :: xs, f m ≤ f m') ∧
      ((x :: xs).insertionSort fun a b => f a ≤ f b).headD x = m := by
  have hsorted := pairwise_sortOn f (x :: xs)
  have hperm := List.perm_insertionSort (fun a b => f a ≤ f b) (x :: xs)
  cases hl : (x :: xs).insertionSort fun a b => f a ≤ f b with
  | nil =>
    rw [hl] at hperm
    exact absurd hperm.symm.eq_nil (List.cons_ne_nil x xs)
  | cons y ys =>
    rw [hl] at hsorted hperm
    refine ⟨y, hperm.mem_iff.1 List.mem_cons_self, fun m' hm' => ?_, rfl⟩
    rcases List.mem_cons.1 (hperm.mem_iff.2 hm') with rfl | hm'
    · exact le_refl _
    · exact (List.pairwise_cons.1 hsorted).1 m' hm'

/-- A row's candle is that of its bucket. -/
theorem aggregatedRow_spec (symbol : Symbol) (timeframe : CandleTimeframe) (bucket : Timestamp)
    (x : CandleRow) (xs : List CandleRow) :
    BucketOf symbol timeframe bucket (x :: xs)
      ((aggregatedRow (timeframeSeconds timeframe) bucket x xs).toCandle symbol timeframe) where
  symbol_eq := rfl
  timeframe_eq := rfl
  openTime_eq := rfl
  closeTime_eq := rfl
  opening := by
    obtain ⟨m, hm, hle, hhead⟩ := headD_sortOn BaseMinuteCandle.openTime x xs
    exact ⟨m, hm, hle, congrArg BaseMinuteCandle.open hhead⟩
  closing := by
    obtain ⟨m, hm, hle, hhead⟩ := headD_sortOn (β := ℤᵒᵈ) BaseMinuteCandle.openTime x xs
    exact ⟨m, hm, hle, congrArg BaseMinuteCandle.close hhead⟩
  high := isGreatest_maxOf BaseMinuteCandle.high x xs
  low := isLeast_minOf BaseMinuteCandle.low x xs
  activityCount_eq := rfl
  firstObservation := isLeast_minOf BaseMinuteCandle.firstProviderTimestamp x xs
  lastObservation := isGreatest_maxOf BaseMinuteCandle.lastProviderTimestamp x xs
  closed_eq := rfl

/-- The minutes of a bucket of the window are those that the query groups under it. -/
theorem bucketed_eq_bucketMinutes (hwf : ∀ m ∈ symbolRows t symbol, m.Placed)
    (hstart : start ≤ bucket)
    (hend : bucket + timeframeSeconds timeframe * second ≤ effectiveEnd) :
    (t.rows.filter fun r =>
      r.symbol = symbol ∧ r.openTime ≥ start ∧ r.openTime < effectiveEnd).filter
        (fun r => bucketStart r.openTime (timeframeSeconds timeframe) = bucket) =
      bucketMinutes timeframe bucket (symbolRows t symbol) := by
  have hi := timeframeSeconds_pos timeframe
  rw [bucketMinutes, symbolRows, List.filter_filter, List.filter_filter]
  refine List.filter_congr fun r hr => ?_
  by_cases hs : r.symbol = symbol
  · have hwf := hwf r (List.mem_filter.2 ⟨hr, by simpa using hs⟩)
    rw [bucketStart_eq_floorTime hwf.second_dvd]
    by_cases hb : floorTime r.openTime (timeframeSeconds timeframe) = bucket
    · have hle := floorTime_le hwf.second_dvd hi
      have hlt := lt_floorTime_add r.openTime hi
      rw [hb] at hle hlt
      have hge : r.openTime ≥ start := hstart.trans hle
      have hlt' : r.openTime < effectiveEnd := by
        rw [mul_comm] at hend
        exact hlt.trans_le hend
      simp [hs, hb, hge, hlt']
    · simp [hs, hb]
  · simp [hs]

/-- The rows of the query's result are those of the window's buckets that have a minute. -/
theorem mem_orderedRows (hwf : ∀ m ∈ symbolRows t symbol, m.Placed)
    (haligned : second * timeframeSeconds timeframe ∣ start) :
    row ∈ orderedRows t symbol start effectiveEnd (timeframeSeconds timeframe) ↔
      ∃ bucket x xs, x :: xs = bucketMinutes timeframe bucket (symbolRows t symbol) ∧
        start ≤ bucket ∧ bucket + timeframeSeconds timeframe * second ≤ effectiveEnd ∧
        aggregatedRow (timeframeSeconds timeframe) bucket x xs = row := by
  rw [orderedRows, List.mem_insertionSort, List.mem_filter, aggregatedRows, List.mem_filterMap]
  constructor
  · rintro ⟨⟨⟨bucket, _ | ⟨x, xs⟩⟩, hmem, heq⟩, hend⟩
    · cases heq
    · obtain rfl := Option.some.inj heq
      have hend : bucket + timeframeSeconds timeframe * second ≤ effectiveEnd :=
        of_decide_eq_true hend
      obtain ⟨hms, -⟩ := (mem_groupOn _ _ _ _).1 hmem
      -- The bucket starts in the window since its minute `x` does.
      have hx : x ∈ x :: xs := List.mem_cons_self
      rw [hms] at hx
      obtain ⟨hx, hbucket⟩ := List.mem_filter.1 hx
      obtain ⟨hxrow, hxwin⟩ := List.mem_filter.1 hx
      simp only [decide_eq_true_eq] at hbucket hxwin
      have hxwf := hwf x (List.mem_filter.2 ⟨hxrow, by simpa using hxwin.1⟩)
      rw [bucketStart_eq_floorTime hxwf.second_dvd] at hbucket
      have hstart : start ≤ bucket := by
        rw [← hbucket, le_floorTime_iff hxwf.second_dvd (timeframeSeconds_pos timeframe) haligned]
        exact hxwin.2.1
      exact ⟨bucket, x, xs, hms.trans (bucketed_eq_bucketMinutes hwf hstart hend), hstart, hend,
        rfl⟩
  · rintro ⟨bucket, x, xs, hms, hstart, hend, rfl⟩
    refine ⟨⟨(bucket, x :: xs), (mem_groupOn _ _ _ _).2 ⟨?_, List.cons_ne_nil _ _⟩, rfl⟩, ?_⟩
    · rw [hms, bucketed_eq_bucketMinutes hwf hstart hend]
    · exact decide_eq_true hend

/-- The query's rows have distinct buckets. -/
theorem orderedRows_sorted : (orderedRows t symbol start effectiveEnd
    (timeframeSeconds timeframe)).Pairwise fun a b => b.bucketStart < a.bucketStart := by
  refine pairwise_lt_of_nodup (β := ℤᵒᵈ) (f := AggregatedRow.bucketStart)
    (pairwise_sortOn (β := ℤᵒᵈ) _ _) ?_
  refine ((List.perm_insertionSort _ _).map _).nodup_iff.2 ?_
  refine List.Nodup.sublist (List.filter_sublist.map _) ?_
  -- A row's `bucket_start` is its group's key.
  have hkeys : ∀ groups : List (Timestamp × List CandleRow), (groups.map Prod.fst).Nodup →
      ((groups.filterMap fun
        | (_, []) => none
        | (bucket, x :: xs) => some (aggregatedRow (timeframeSeconds timeframe) bucket x xs)).map
          AggregatedRow.bucketStart).Nodup := by
    intro groups hnodup
    refine hnodup.sublist ?_
    clear hnodup
    induction groups with
    | nil => exact List.Sublist.refl _
    | cons g groups ih =>
      obtain ⟨bucket, _ | ⟨x, xs⟩⟩ := g
      · exact ih.cons _
      · exact ih.cons_cons _
  exact hkeys _ (groupOn_keys_nodup _ _)

/-- The candles of the query's rows, reversed, are the series of the table's minute candles. -/
theorem seriesOf_orderedRows (effectiveEnd : Timestamp)
    (hwf : ∀ m ∈ symbolRows t symbol, m.Placed)
    (haligned : second * timeframeSeconds timeframe ∣ start) :
    SeriesOf symbol timeframe start effectiveEnd (symbolRows t symbol)
      ((orderedRows t symbol start effectiveEnd (timeframeSeconds timeframe)).reverse.map
        (AggregatedRow.toCandle symbol timeframe)) where
  sorted := by
    rw [List.pairwise_map, List.pairwise_reverse]
    exact orderedRows_sorted
  bucket c hc := by
    obtain ⟨row, hrow, rfl⟩ := List.mem_map.1 hc
    obtain ⟨bucket, x, xs, hms, -, -, rfl⟩ :=
      (mem_orderedRows hwf haligned).1 (List.mem_reverse.1 hrow)
    have hspec := aggregatedRow_spec symbol timeframe bucket x xs
    rw [hms] at hspec
    exact hspec
  window c hc := by
    obtain ⟨row, hrow, rfl⟩ := List.mem_map.1 hc
    obtain ⟨bucket, x, xs, -, hstart, hend, rfl⟩ :=
      (mem_orderedRows hwf haligned).1 (List.mem_reverse.1 hrow)
    exact ⟨hstart, hend⟩
  complete m hm hstart hend := by
    -- The minute is in the bucket of its time, so that this one has a row.
    set bucket := floorTime m.openTime (timeframeSeconds timeframe) with hbucket
    have hin : m ∈ bucketMinutes timeframe bucket (symbolRows t symbol) :=
      List.mem_filter.2 ⟨hm, by simp [hbucket]⟩
    cases hms : bucketMinutes timeframe bucket (symbolRows t symbol) with
    | nil =>
      rw [hms] at hin
      exact absurd hin List.not_mem_nil
    | cons x xs =>
      have hrow : aggregatedRow (timeframeSeconds timeframe) bucket x xs ∈
          orderedRows t symbol start effectiveEnd (timeframeSeconds timeframe) :=
        (mem_orderedRows hwf haligned).2 ⟨bucket, x, xs, hms.symm, hstart, hend, rfl⟩
      exact ⟨_, List.mem_map_of_mem (List.mem_reverse.2 hrow), rfl⟩

/-- What `get_candles` returns from a table of minute candles in their places: the last candles of
their series, when they go into a valid series. -/
theorem getCandles_spec {upper : String → String} (cfg : Settings) {symbol : String} {limit : ℤ}
    {«end» : Timestamp} (hwindow : historyWindow timeframe limit «end» = .ok (start, effectiveEnd))
    (hwf : ∀ m ∈ symbolRows t (upper symbol), m.Placed) :
    ∃ cs, SeriesOf (upper symbol) timeframe start effectiveEnd
        (symbolRows t (upper symbol)) cs ∧
      getCandles upper cfg t symbol timeframe limit «end» =
        CandleSeries.validate {
          symbol := upper symbol
          timeframe := timeframe
          requestedLimit := limit
          returnedCount := (takeLast limit.toNat cs).length
          retentionSeconds := cfg.candleArchiveRetentionSeconds
          periodStart := start
          periodEnd := effectiveEnd
          data := takeLast limit.toNat cs
          warnings := archiveWarnings } := by
  obtain ⟨haligned, -⟩ := historyWindow_aligned hwindow
  have hseries := seriesOf_orderedRows effectiveEnd hwf haligned
  refine ⟨_, hseries, ?_⟩
  -- The query takes the newest rows first, and their reverse is the end of the series.
  have hlast : (selectCandles t (upper symbol) start effectiveEnd (timeframeSeconds timeframe)
      limit).reverse.map (AggregatedRow.toCandle (upper symbol) timeframe) =
      takeLast limit.toNat ((orderedRows t (upper symbol) start effectiveEnd
        (timeframeSeconds timeframe)).reverse.map
          (AggregatedRow.toCandle (upper symbol) timeframe)) := by
    rw [selectCandles, List.reverse_take, takeLast, List.length_map, List.length_reverse,
      List.map_drop]
  rw [getCandles, hwindow]
  dsimp only [bind, Except.bind]
  rw [hlast]
  refine mapM_validate_bind (upper symbol) (fun c hc => ?_) (fun hs c hc => ?_) fun hs => ?_
  · exact (hseries.bucket c (List.mem_of_mem_drop hc)).symbol_eq
  · exact (hseries.bucket c (List.mem_of_mem_drop hc)).validate_eq
      (fun m hm => hwf m (List.mem_filter.1 hm).1) hs
  · simp [CandleSeries.validate, hs]

end Query

/-- Two valid series have the same data if they are valid alike. -/
theorem validate_map_data {s s' : CandleSeries} (hsymbol : s.symbol = s'.symbol)
    (hlimit : s.requestedLimit = s'.requestedLimit) (hdata : s.data = s'.data)
    (hret : 0 < s.retentionSeconds) (hret' : 0 < s'.retentionSeconds) :
    s.validate.map CandleSeries.data = s'.validate.map CandleSeries.data := by
  unfold CandleSeries.validate
  rw [hsymbol, hlimit, if_neg hret.not_ge, if_neg hret'.not_ge]
  split_ifs
  · rfl
  · rfl
  · exact congrArg Except.ok hdata

/-- For every table whose minute candles of a symbol are well formed, and for every list `base` of
these minute candles, every timeframe, limit and end: `get_candles` of the archive and
`aggregate_base_candles` over `base` return the same candles, or fail alike. When the symbol and the
limit are valid, they do not fail. -/
theorem getCandles_eq_aggregateBaseCandles (upper : String → String) (cfg : Settings)
    (t : CandleTable) (base : List BaseMinuteCandle) (symbol : String)
    (timeframe : CandleTimeframe) (limit : ℤ) («end» : Timestamp) (retentionSeconds : ℤ)
    (hbase : base.Perm (symbolRows t (upper symbol))) (hwf : ∀ m ∈ base, m.WellFormed)
    (hret : 0 < retentionSeconds) :
    (getCandles upper cfg t symbol timeframe limit «end»).map CandleSeries.data =
        (aggregateBaseCandles (upper symbol) timeframe limit «end» retentionSeconds base).map
          CandleSeries.data ∧
      (symbolOk (upper symbol) = true → 1 ≤ limit → limit ≤ 1000 →
        ∃ cs, (getCandles upper cfg t symbol timeframe limit «end»).map CandleSeries.data =
          .ok cs) := by
  have hplaced : ∀ m ∈ base, m.Placed := fun m hm => (hwf m hm).placed
  have hwf' : ∀ m ∈ symbolRows t (upper symbol), m.Placed := fun m hm =>
    hplaced m (hbase.mem_iff.2 hm)
  have hcfg : (0 : ℤ) < cfg.candleArchiveRetentionSeconds := by
    exact_mod_cast cfg.candleArchiveRetention_pos
  cases hwindow : historyWindow timeframe limit «end» with
  -- The window is asked for first by both, and its errors are the same.
  | error err =>
    refine ⟨?_, fun _ hpos _ => ?_⟩
    · rw [getCandles, aggregateBaseCandles, hwindow]
      rfl
    · unfold historyWindow at hwindow
      rw [if_neg (by omega)] at hwindow
      cases hwindow
  | ok window =>
    obtain ⟨start, effectiveEnd⟩ := window
    obtain ⟨cs, hcs, hget⟩ := getCandles_spec cfg hwindow hwf'
    obtain ⟨cs', hcs', hagg⟩ :=
      aggregateBaseCandles_spec (upper symbol) retentionSeconds hwindow hplaced
    -- There is but one series of the window, whatever the order of the minutes.
    obtain rfl : cs = cs' :=
      hcs.unique (hcs'.perm hbase) (openTime_injOn_symbolRows t (upper symbol))
    rw [hget, hagg]
    refine ⟨validate_map_data rfl rfl rfl hcfg hret, fun hs hpos hle => ?_⟩
    refine ⟨takeLast limit.toNat cs, ?_⟩
    unfold CandleSeries.validate
    rw [if_neg (by simp [hs]), if_neg (by dsimp only; omega), if_neg hcfg.not_ge]
    rfl

/-- A table with two minutes of one bucket of five, and one minute of the next bucket. -/
def sampleTable : CandleTable :=
  (((CandleTable.empty.put (.fromQuote (.sample 1 (360 * second) 4))).put
    (.fromQuote (.sample 2 (430 * second) 6))).put (.fromQuote (.sample 3 (601 * second) 5)))

/-- The candles of the sample table are those of its rows. -/
theorem getCandles_eq_aggregateBaseCandles_sampleTable :
    (∀ m ∈ sampleTable.rows, m.WellFormed) ∧
      (getCandles id {} sampleTable "AAPL" .fiveMinutes 2 (750 * second)).map CandleSeries.data =
        (aggregateBaseCandles "AAPL" .fiveMinutes 2 (750 * second) 1 sampleTable.rows).map
          CandleSeries.data := by
  have hwf : ∀ m ∈ sampleTable.rows, m.WellFormed := by
    intro m hm
    have hm : m ∈ [BaseMinuteCandle.fromQuote (.sample 3 (601 * second) 5),
        .fromQuote (.sample 2 (430 * second) 6), .fromQuote (.sample 1 (360 * second) 4)] := hm
    simp only [List.mem_cons, List.not_mem_nil, or_false] at hm
    obtain rfl | rfl | rfl := hm <;> constructor <;> decide
  have hbase : sampleTable.rows.Perm (symbolRows sampleTable (id "AAPL")) := List.Perm.refl _
  exact ⟨hwf, (getCandles_eq_aggregateBaseCandles id {} sampleTable sampleTable.rows "AAPL"
    .fiveMinutes 2 (750 * second) 1 hbase hwf (by decide)).1⟩

end MarketDataGateway.Archive

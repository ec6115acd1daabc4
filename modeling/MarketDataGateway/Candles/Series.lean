import MarketDataGateway.Candles.Minute
import MarketDataGateway.Lib.Grouping
import Mathlib.Algebra.Order.BigOperators.Group.List

/-!
# Candle series

`history_window`, `Candle`, `CandleSeries` and `aggregate_base_candles` of `candles.py`: the closed
candles of a timeframe, built from one-minute candles.

`BucketOf timeframe bucket ms c` says what a closed candle is for: `c` is the candle of the bucket
that starts at `bucket`, made of the minute candles `ms`. `SeriesOf timeframe window ms cs` says the
same of a whole list: its candles are those of the buckets of the window that have a minute candle,
by increasing time. Both determine what they describe (`BucketOf.unique`, `SeriesOf.unique`), which
is how two readers that compute a series differently are compared.

Instants are exact and unbounded here. What `OverflowError` at `datetime.min` and `datetime.max` and
the rounding of `timestamp()` change is in `Candles/Dated.lean`.
-/

namespace MarketDataGateway

open Lib

/-- `CandleTimeframe`. -/
inductive CandleTimeframe
  /-- `"1m"`. -/
  | oneMinute
  /-- `"5m"`. -/
  | fiveMinutes
  /-- `"15m"`. -/
  | fifteenMinutes
  /-- `"1h"`. -/
  | oneHour
  /-- `"4h"`. -/
  | fourHours
  /-- `"1d"`. -/
  | oneDay
  deriving DecidableEq, Repr

/-- `timeframe_seconds`: the table `TIMEFRAME_SECONDS`. -/
def timeframeSeconds : CandleTimeframe → ℤ
  | .oneMinute => 60
  | .fiveMinutes => 300
  | .fifteenMinutes => 900
  | .oneHour => 3600
  | .fourHours => 14400
  | .oneDay => 86400

/-- `history_window`, for a timezone-aware `end`: the start of the window and its effective end. -/
def historyWindow (timeframe : CandleTimeframe) (limit : ℤ) («end» : Timestamp) :
    Except PyError (Timestamp × Timestamp) :=
  if limit < 1 then
    .error (.valueError "limit must be positive")
  else
    let intervalSeconds := timeframeSeconds timeframe
    let lastClosedBucket := floorTime «end» intervalSeconds - intervalSeconds * second
    .ok (lastClosedBucket - intervalSeconds * (limit - 1) * second, «end»)

/-- `Candle`. -/
@[ext]
structure Candle where
  /-- `symbol`. -/
  symbol : Symbol
  /-- `timeframe`. -/
  timeframe : CandleTimeframe
  /-- `open_time`. -/
  openTime : Timestamp
  /-- `close_time`. -/
  closeTime : Timestamp
  /-- `open`. -/
  «open» : ℚ
  /-- `high`. -/
  high : ℚ
  /-- `low`. -/
  low : ℚ
  /-- `close`. -/
  close : ℚ
  /-- `activity_count`. -/
  activityCount : ℕ
  /-- `first_observation`. -/
  firstObservation : Timestamp
  /-- `last_observation`. -/
  lastObservation : Timestamp
  /-- `closed`. -/
  closed : Bool
  deriving DecidableEq

/-- The constraints of the type `Symbol`: one to 32 characters, each of them of `[A-Z0-9._:-]`. -/
def symbolOk (symbol : Symbol) : Bool :=
  1 ≤ symbol.length && symbol.length ≤ 32 && symbol.toList.all fun ch =>
    ch.isUpper || ch.isDigit || ch == '.' || ch == '_' || ch == ':' || ch == '-'

/-- The validation of `Candle`, which reports the first field that fails. -/
def Candle.validate (c : Candle) : Except PyError Candle :=
  if symbolOk c.symbol = false then .error (.validationError "symbol")
  else if c.open ≤ 0 then .error (.validationError "open")
  else if c.high ≤ 0 then .error (.validationError "high")
  else if c.low ≤ 0 then .error (.validationError "low")
  else if c.close ≤ 0 then .error (.validationError "close")
  else if c.activityCount < 1 then .error (.validationError "activity_count")
  else .ok c

/-- `CandleSeries`. -/
structure CandleSeries where
  /-- `schema_version`. -/
  schemaVersion : String := "1.0"
  /-- `symbol`. -/
  symbol : Symbol
  /-- `timeframe`. -/
  timeframe : CandleTimeframe
  /-- `source`. -/
  source : String := "observed_quote_aggregation"
  /-- `requested_limit`. -/
  requestedLimit : ℤ
  /-- `returned_count`. -/
  returnedCount : ℕ
  /-- `retention_seconds`. -/
  retentionSeconds : ℤ
  /-- `period_start`. -/
  periodStart : Timestamp
  /-- `period_end`. -/
  periodEnd : Timestamp
  /-- `data`. -/
  data : List Candle
  /-- `warnings`. -/
  warnings : List String :=
    ["Candles are aggregated from observed quote prices; trade volume is unavailable.",
      "Intervals with no accepted quote observations are omitted.",
      "Only fully closed intervals at or before period_end are returned."]
  deriving DecidableEq

/-- The validation of `CandleSeries`, which reports the first field that fails. -/
def CandleSeries.validate (s : CandleSeries) : Except PyError CandleSeries :=
  if symbolOk s.symbol = false then .error (.validationError "symbol")
  else if s.requestedLimit < 1 ∨ 1000 < s.requestedLimit then
    .error (.validationError "requested_limit")
  else if s.retentionSeconds ≤ 0 then .error (.validationError "retention_seconds")
  else .ok s

/-- `l[-n:]`, for a positive `n`. -/
def takeLast {α : Type*} (n : ℕ) (l : List α) : List α := l.drop (l.length - n)

/-- The candle of a bucket whose minute candles, by increasing `open_time`, are `x` and then
`xs`. -/
def bucketCandle (symbol : Symbol) (timeframe : CandleTimeframe) (bucket : Timestamp)
    (x : BaseMinuteCandle) (xs : List BaseMinuteCandle) : Candle where
  symbol := symbol
  timeframe := timeframe
  openTime := bucket
  closeTime := bucket + timeframeSeconds timeframe * second
  «open» := x.open
  high := maxOf BaseMinuteCandle.high x xs
  low := minOf BaseMinuteCandle.low x xs
  close := ((x :: xs).getLast (List.cons_ne_nil x xs)).close
  activityCount := ((x :: xs).map BaseMinuteCandle.activityCount).sum
  firstObservation := minOf BaseMinuteCandle.firstProviderTimestamp x xs
  lastObservation := maxOf BaseMinuteCandle.lastProviderTimestamp x xs
  closed := true

/-- The first loop of `aggregate_base_candles`: the minute candles of the buckets that lie in the
window, under their buckets and by increasing `open_time`. -/
def groupedCandles (timeframe : CandleTimeframe) (start effectiveEnd : Timestamp)
    (baseCandles : List BaseMinuteCandle) : List (Timestamp × List BaseMinuteCandle) :=
  let intervalSeconds := timeframeSeconds timeframe
  groupOn (fun candle => floorTime candle.openTime intervalSeconds)
    ((baseCandles.insertionSort fun a b => a.openTime ≤ b.openTime).filter fun candle =>
      let bucket := floorTime candle.openTime intervalSeconds
      let bucketEnd := bucket + intervalSeconds * second
      ¬ (bucket < start ∨ bucketEnd > effectiveEnd))

/-- The second loop of `aggregate_base_candles`: the candles of the buckets by increasing time, less
those with an observation after the window. -/
def closedCandles (symbol : Symbol) (timeframe : CandleTimeframe) (effectiveEnd : Timestamp)
    (grouped : List (Timestamp × List BaseMinuteCandle)) : List Candle :=
  (grouped.insertionSort fun g g' => g.1 ≤ g'.1).filterMap fun
    | (_, []) => none
    | (bucket, x :: xs) =>
      if maxOf BaseMinuteCandle.lastProviderTimestamp x xs > effectiveEnd then none
      else some (bucketCandle symbol timeframe bucket x xs)

/-- `aggregate_base_candles`. -/
def aggregateBaseCandles (symbol : Symbol) (timeframe : CandleTimeframe) (limit : ℤ)
    («end» : Timestamp) (retentionSeconds : ℤ) (baseCandles : List BaseMinuteCandle) :
    Except PyError CandleSeries := do
  let (start, effectiveEnd) ← historyWindow timeframe limit «end»
  let data ← (closedCandles symbol timeframe effectiveEnd
    (groupedCandles timeframe start effectiveEnd baseCandles)).mapM Candle.validate
  let result := takeLast limit.toNat data
  CandleSeries.validate {
    symbol := symbol
    timeframe := timeframe
    requestedLimit := limit
    returnedCount := result.length
    retentionSeconds := retentionSeconds
    periodStart := start
    periodEnd := effectiveEnd
    data := result }

/-! ## What a series is -/

/-- A timeframe's interval is positive. -/
theorem timeframeSeconds_pos (timeframe : CandleTimeframe) : 0 < timeframeSeconds timeframe := by
  cases timeframe <;> decide

/-- A timeframe's interval is a number of minutes. -/
theorem sixty_dvd_timeframeSeconds (timeframe : CandleTimeframe) :
    60 ∣ timeframeSeconds timeframe := by
  cases timeframe <;> decide

/-- The minute candles of a bucket. -/
def bucketMinutes (timeframe : CandleTimeframe) (bucket : Timestamp)
    (baseCandles : List BaseMinuteCandle) : List BaseMinuteCandle :=
  baseCandles.filter fun m => floorTime m.openTime (timeframeSeconds timeframe) = bucket

/-- `c` is the closed candle of the bucket at `bucket`, made of the minute candles `ms`. -/
structure BucketOf (symbol : Symbol) (timeframe : CandleTimeframe) (bucket : Timestamp)
    (ms : List BaseMinuteCandle) (c : Candle) : Prop where
  symbol_eq : c.symbol = symbol
  timeframe_eq : c.timeframe = timeframe
  openTime_eq : c.openTime = bucket
  closeTime_eq : c.closeTime = bucket + timeframeSeconds timeframe * second
  /-- The open is that of the earliest minute. -/
  opening : ∃ m ∈ ms, (∀ m' ∈ ms, m.openTime ≤ m'.openTime) ∧ c.open = m.open
  /-- The close is that of the latest minute. -/
  closing : ∃ m ∈ ms, (∀ m' ∈ ms, m'.openTime ≤ m.openTime) ∧ c.close = m.close
  high : IsGreatest (BaseMinuteCandle.high '' {m | m ∈ ms}) c.high
  low : IsLeast (BaseMinuteCandle.low '' {m | m ∈ ms}) c.low
  activityCount_eq : c.activityCount = (ms.map BaseMinuteCandle.activityCount).sum
  firstObservation :
    IsLeast (BaseMinuteCandle.firstProviderTimestamp '' {m | m ∈ ms}) c.firstObservation
  lastObservation :
    IsGreatest (BaseMinuteCandle.lastProviderTimestamp '' {m | m ∈ ms}) c.lastObservation
  closed_eq : c.closed = true

/-- `cs` are the candles of the buckets from `start` to `effectiveEnd` that have a minute candle,
by increasing time. -/
structure SeriesOf (symbol : Symbol) (timeframe : CandleTimeframe) (start effectiveEnd : Timestamp)
    (baseCandles : List BaseMinuteCandle) (cs : List Candle) : Prop where
  /-- The candles are sorted. -/
  sorted : cs.Pairwise fun c c' => c.openTime < c'.openTime
  /-- Each candle is that of its bucket. -/
  bucket : ∀ c ∈ cs, BucketOf symbol timeframe c.openTime
    (bucketMinutes timeframe c.openTime baseCandles) c
  /-- Each candle lies in the window. -/
  window : ∀ c ∈ cs, start ≤ c.openTime ∧ c.closeTime ≤ effectiveEnd
  /-- No bucket of the window with a minute candle is left out. -/
  complete : ∀ m ∈ baseCandles,
    start ≤ floorTime m.openTime (timeframeSeconds timeframe) →
    floorTime m.openTime (timeframeSeconds timeframe) + timeframeSeconds timeframe * second ≤
      effectiveEnd →
    ∃ c ∈ cs, c.openTime = floorTime m.openTime (timeframeSeconds timeframe)

section Spec

variable {symbol : Symbol} {timeframe : CandleTimeframe} {bucket start effectiveEnd : Timestamp}
  {ms ms' base base' : List BaseMinuteCandle} {c c' : Candle} {cs cs' : List Candle}

/-- The order of the minute candles does not matter. -/
theorem BucketOf.perm (h : BucketOf symbol timeframe bucket ms c) (hp : ms.Perm ms') :
    BucketOf symbol timeframe bucket ms' c := by
  have hset : {m | m ∈ ms} = {m | m ∈ ms'} := by
    ext m
    exact hp.mem_iff
  obtain ⟨mo, hmo, hole, ho⟩ := h.opening
  obtain ⟨mc, hmc, hcle, hc⟩ := h.closing
  exact {
    symbol_eq := h.symbol_eq
    timeframe_eq := h.timeframe_eq
    openTime_eq := h.openTime_eq
    closeTime_eq := h.closeTime_eq
    opening := ⟨mo, hp.mem_iff.1 hmo, fun m' hm' => hole m' (hp.mem_iff.2 hm'), ho⟩
    closing := ⟨mc, hp.mem_iff.1 hmc, fun m' hm' => hcle m' (hp.mem_iff.2 hm'), hc⟩
    high := hset ▸ h.high
    low := hset ▸ h.low
    activityCount_eq := h.activityCount_eq.trans (hp.map _).sum_eq
    firstObservation := hset ▸ h.firstObservation
    lastObservation := hset ▸ h.lastObservation
    closed_eq := h.closed_eq }

/-- Minute candles of distinct minutes make one candle. -/
theorem BucketOf.unique (h : BucketOf symbol timeframe bucket ms c)
    (h' : BucketOf symbol timeframe bucket ms c')
    (hinj : Set.InjOn BaseMinuteCandle.openTime {m | m ∈ ms}) : c = c' := by
  obtain ⟨mo, hmo, hole, ho⟩ := h.opening
  obtain ⟨mo', hmo', hole', ho'⟩ := h'.opening
  obtain ⟨mc, hmc, hcle, hc⟩ := h.closing
  obtain ⟨mc', hmc', hcle', hc'⟩ := h'.closing
  have hopen : mo = mo' := hinj hmo hmo' (le_antisymm (hole mo' hmo') (hole' mo hmo))
  have hclose : mc = mc' := hinj hmc hmc' (le_antisymm (hcle' mc hmc) (hcle mc' hmc'))
  ext1
  · rw [h.symbol_eq, h'.symbol_eq]
  · rw [h.timeframe_eq, h'.timeframe_eq]
  · rw [h.openTime_eq, h'.openTime_eq]
  · rw [h.closeTime_eq, h'.closeTime_eq]
  · rw [ho, ho', hopen]
  · exact h.high.unique h'.high
  · exact h.low.unique h'.low
  · rw [hc, hc', hclose]
  · rw [h.activityCount_eq, h'.activityCount_eq]
  · exact h.firstObservation.unique h'.firstObservation
  · exact h.lastObservation.unique h'.lastObservation
  · rw [h.closed_eq, h'.closed_eq]

/-- A bucket with a candle has a minute candle. -/
theorem BucketOf.exists_mem (h : BucketOf symbol timeframe bucket ms c) : ∃ m, m ∈ ms := by
  obtain ⟨m, hm, -⟩ := h.opening
  exact ⟨m, hm⟩

/-- The order of the minute candles does not matter to a series. -/
theorem SeriesOf.perm (h : SeriesOf symbol timeframe start effectiveEnd base cs)
    (hp : base.Perm base') : SeriesOf symbol timeframe start effectiveEnd base' cs where
  sorted := h.sorted
  bucket c hc := (h.bucket c hc).perm (hp.filter _)
  window := h.window
  complete m hm := h.complete m (hp.mem_iff.2 hm)

/-- A candle of one series over some minute candles is in any other. -/
theorem SeriesOf.mem_of_mem (h : SeriesOf symbol timeframe start effectiveEnd base cs)
    (h' : SeriesOf symbol timeframe start effectiveEnd base cs')
    (hinj : Set.InjOn BaseMinuteCandle.openTime {m | m ∈ base}) (hc : c ∈ cs) : c ∈ cs' := by
  have hb := h.bucket c hc
  obtain ⟨hstart, hend⟩ := h.window c hc
  rw [hb.closeTime_eq] at hend
  -- A minute of the candle's bucket leads to the other series' candle of that bucket.
  obtain ⟨m, hm⟩ := hb.exists_mem
  obtain ⟨hmem, hfloor⟩ := List.mem_filter.1 hm
  have hfloor : floorTime m.openTime (timeframeSeconds timeframe) = c.openTime := by
    simpa using hfloor
  obtain ⟨c', hc', ho⟩ := h'.complete m hmem (hfloor ▸ hstart) (hfloor ▸ hend)
  rw [hfloor] at ho
  have hb' := h'.bucket c' hc'
  rw [ho] at hb'
  have heq : c = c' := hb.unique hb'
    (hinj.mono fun m hm => (List.mem_filter.1 hm).1)
  exact heq ▸ hc'

/-- Minute candles of distinct minutes have one series. -/
theorem SeriesOf.unique (h : SeriesOf symbol timeframe start effectiveEnd base cs)
    (h' : SeriesOf symbol timeframe start effectiveEnd base cs')
    (hinj : Set.InjOn BaseMinuteCandle.openTime {m | m ∈ base}) : cs = cs' :=
  eq_of_pairwise_lt_of_mem_iff h.sorted h'.sorted
    fun _ => ⟨h.mem_of_mem h' hinj, h'.mem_of_mem h hinj⟩

end Spec

/-! ## What `aggregate_base_candles` returns -/

/-- What a series needs of a minute candle: it starts at a whole minute, its last observation is
before the end of the minute, and it passes the validation of `BaseMinuteCandle`. -/
structure BaseMinuteCandle.Placed (c : BaseMinuteCandle) : Prop where
  aligned : second * 60 ∣ c.openTime
  last_lt : c.lastProviderTimestamp < c.openTime + second * 60
  open_pos : 0 < c.open
  high_pos : 0 < c.high
  low_pos : 0 < c.low
  close_pos : 0 < c.close
  activityCount_pos : 1 ≤ c.activityCount

/-- What holds of a stored minute candle: it starts at a whole minute from 1970 on, its first and
last observations are inside the minute, and it passes the validation of `BaseMinuteCandle`. -/
structure BaseMinuteCandle.WellFormed (c : BaseMinuteCandle) : Prop where
  nonneg : 0 ≤ c.openTime
  aligned : second * 60 ∣ c.openTime
  le_first : c.openTime ≤ c.firstProviderTimestamp
  first_lt : c.firstProviderTimestamp < c.openTime + second * 60
  le_last : c.openTime ≤ c.lastProviderTimestamp
  last_lt : c.lastProviderTimestamp < c.openTime + second * 60
  open_pos : 0 < c.open
  high_pos : 0 < c.high
  low_pos : 0 < c.low
  close_pos : 0 < c.close
  activityCount_pos : 1 ≤ c.activityCount

section Aggregate

variable {symbol : Symbol} {timeframe : CandleTimeframe} {bucket start effectiveEnd : Timestamp}
  {ms base : List BaseMinuteCandle} {c : Candle} {cs : List Candle}

/-- A candle that is well formed is in its place. -/
theorem BaseMinuteCandle.WellFormed.placed {m : BaseMinuteCandle} (h : m.WellFormed) : m.Placed :=
  ⟨h.aligned, h.last_lt, h.open_pos, h.high_pos, h.low_pos, h.close_pos, h.activityCount_pos⟩

/-- A minute starts at a whole second. -/
theorem BaseMinuteCandle.Placed.second_dvd {m : BaseMinuteCandle} (h : m.Placed) :
    second ∣ m.openTime :=
  (Dvd.intro _ rfl).trans h.aligned

/-- A minute ends no later than its bucket does. -/
theorem minuteEnd_le_bucketEnd {openTime : Timestamp} (haligned : second * 60 ∣ openTime)
    (timeframe : CandleTimeframe) :
    openTime + second * 60 ≤
      floorTime openTime (timeframeSeconds timeframe) + second * timeframeSeconds timeframe := by
  obtain ⟨k, hk⟩ := sixty_dvd_timeframeSeconds timeframe
  obtain ⟨a, ha⟩ := haligned
  obtain ⟨b, hb⟩ := dvd_floorTime openTime (timeframeSeconds timeframe)
  have hlt := lt_floorTime_add openTime (timeframeSeconds_pos timeframe)
  -- All four instants are whole minutes.
  have hfloor : floorTime openTime (timeframeSeconds timeframe) = second * 60 * (k * b) := by
    rw [hb, hk]
    ring
  have hinterval : second * timeframeSeconds timeframe = second * 60 * k := by
    rw [hk]
    ring
  rw [hfloor, hinterval, ha] at hlt ⊢
  unfold second at hlt ⊢
  lia

/-- The candle that the second loop builds is the candle of its bucket. -/
theorem bucketCandle_spec {x : BaseMinuteCandle} {xs : List BaseMinuteCandle}
    (h : (x :: xs).Pairwise fun m m' => m.openTime ≤ m'.openTime) :
    BucketOf symbol timeframe bucket (x :: xs) (bucketCandle symbol timeframe bucket x xs) where
  symbol_eq := rfl
  timeframe_eq := rfl
  openTime_eq := rfl
  closeTime_eq := rfl
  opening := by
    refine ⟨x, List.mem_cons_self, fun m' hm' => ?_, rfl⟩
    rcases List.mem_cons.1 hm' with rfl | hm'
    · exact le_refl _
    · exact (List.pairwise_cons.1 h).1 m' hm'
  closing := by
    have hne : x :: xs ≠ [] := List.cons_ne_nil x xs
    refine ⟨(x :: xs).getLast hne, List.getLast_mem hne, fun m' hm' => ?_, rfl⟩
    rw [← List.dropLast_append_getLast hne] at h hm'
    rcases List.mem_append.1 hm' with hm' | hm'
    · exact (List.pairwise_append.1 h).2.2 m' hm' _ (List.mem_singleton_self _)
    · rw [List.mem_singleton.1 hm']
  high := isGreatest_maxOf BaseMinuteCandle.high x xs
  low := isLeast_minOf BaseMinuteCandle.low x xs
  activityCount_eq := rfl
  firstObservation := isLeast_minOf BaseMinuteCandle.firstProviderTimestamp x xs
  lastObservation := isGreatest_maxOf BaseMinuteCandle.lastProviderTimestamp x xs
  closed_eq := rfl

/-- The groups of the first loop: those of the window's buckets that have a minute candle. -/
theorem mem_groupedCandles :
    (bucket, ms) ∈ groupedCandles timeframe start effectiveEnd base ↔
      ms = bucketMinutes timeframe bucket (base.insertionSort fun a b => a.openTime ≤ b.openTime) ∧
        ms ≠ [] ∧ start ≤ bucket ∧
        bucket + timeframeSeconds timeframe * second ≤ effectiveEnd := by
  rw [groupedCandles, mem_groupOn, List.filter_filter, bucketMinutes]
  generalize (base.insertionSort fun a b => a.openTime ≤ b.openTime) = sorted
  by_cases hw : start ≤ bucket ∧ bucket + timeframeSeconds timeframe * second ≤ effectiveEnd
  · have hfilter : (fun m : BaseMinuteCandle =>
        decide (floorTime m.openTime (timeframeSeconds timeframe) = bucket) &&
        decide (¬ (floorTime m.openTime (timeframeSeconds timeframe) < start ∨
          floorTime m.openTime (timeframeSeconds timeframe) +
            timeframeSeconds timeframe * second > effectiveEnd))) =
        fun m => decide (floorTime m.openTime (timeframeSeconds timeframe) = bucket) := by
      funext m
      by_cases hm : floorTime m.openTime (timeframeSeconds timeframe) = bucket
      · simp [hm, hw]
      · simp [hm]
    rw [hfilter]
    tauto
  · -- The bucket is not in the window, so the loop has skipped its minutes.
    have hnil : sorted.filter (fun m : BaseMinuteCandle =>
        decide (floorTime m.openTime (timeframeSeconds timeframe) = bucket) &&
        decide (¬ (floorTime m.openTime (timeframeSeconds timeframe) < start ∨
          floorTime m.openTime (timeframeSeconds timeframe) +
            timeframeSeconds timeframe * second > effectiveEnd))) = [] := by
      rw [List.filter_eq_nil_iff]
      intro m _ hm
      simp only [Bool.and_eq_true, decide_eq_true_eq] at hm
      obtain ⟨rfl, hm⟩ := hm
      push Not at hm
      exact hw hm
    rw [hnil]
    tauto

/-- The candles of the second loop. -/
theorem mem_closedCandles {grouped : List (Timestamp × List BaseMinuteCandle)} :
    c ∈ closedCandles symbol timeframe effectiveEnd grouped ↔
      ∃ bucket x xs, (bucket, x :: xs) ∈ grouped ∧
        maxOf BaseMinuteCandle.lastProviderTimestamp x xs ≤ effectiveEnd ∧
        bucketCandle symbol timeframe bucket x xs = c := by
  rw [closedCandles, List.mem_filterMap]
  constructor
  · rintro ⟨⟨bucket, _ | ⟨x, xs⟩⟩, hmem, heq⟩
    · cases heq
    · dsimp only at heq
      split_ifs at heq with hlast
      exact ⟨bucket, x, xs, (List.mem_insertionSort _).1 hmem, not_lt.1 hlast,
        Option.some.inj heq⟩
  · rintro ⟨bucket, x, xs, hmem, hlast, rfl⟩
    refine ⟨(bucket, x :: xs), (List.mem_insertionSort _).2 hmem, ?_⟩
    dsimp only
    rw [if_neg (not_lt.2 hlast)]

/-- Each candle that `aggregate_base_candles` computes is that of its bucket in the window. -/
theorem bucketOf_of_mem_closedCandles (h : c ∈ closedCandles symbol timeframe effectiveEnd
    (groupedCandles timeframe start effectiveEnd base)) :
    BucketOf symbol timeframe c.openTime (bucketMinutes timeframe c.openTime base) c ∧
      start ≤ c.openTime ∧ c.closeTime ≤ effectiveEnd := by
  obtain ⟨bucket, x, xs, hmem, -, rfl⟩ := mem_closedCandles.1 h
  obtain ⟨hms, -, hstart, hend⟩ := mem_groupedCandles.1 hmem
  refine ⟨?_, hstart, hend⟩
  have hsorted : (x :: xs).Pairwise fun m m' => m.openTime ≤ m'.openTime := by
    rw [hms, bucketMinutes]
    exact (pairwise_sortOn BaseMinuteCandle.openTime base).sublist List.filter_sublist
  have hperm : (x :: xs).Perm (bucketMinutes timeframe bucket base) := by
    rw [hms]
    exact (List.perm_insertionSort _ base).filter _
  exact (bucketCandle_spec hsorted).perm hperm

/-- The candles that `aggregate_base_candles` computes are sorted. -/
theorem closedCandles_sorted : (closedCandles symbol timeframe effectiveEnd
    (groupedCandles timeframe start effectiveEnd base)).Pairwise
      fun c c' => c.openTime < c'.openTime := by
  have hkeys : ((groupedCandles timeframe start effectiveEnd base).map Prod.fst).Nodup :=
    groupOn_keys_nodup _ _
  generalize groupedCandles timeframe start effectiveEnd base = grouped at hkeys
  have hperm := List.perm_insertionSort (fun g g' : Timestamp × List BaseMinuteCandle =>
    g.1 ≤ g'.1) grouped
  have hsorted := pairwise_lt_of_nodup (pairwise_sortOn Prod.fst grouped)
    ((hperm.map Prod.fst).nodup_iff.2 hkeys)
  rw [closedCandles, List.pairwise_filterMap]
  refine hsorted.imp fun {g g'} hlt b hb b' hb' => ?_
  -- A candle opens at its group's bucket.
  have hopen : ∀ (g : Timestamp × List BaseMinuteCandle) (b : Candle),
      (match g with
        | (_, []) => none
        | (bucket, x :: xs) =>
          if maxOf BaseMinuteCandle.lastProviderTimestamp x xs > effectiveEnd then none
          else some (bucketCandle symbol timeframe bucket x xs)) = some b → b.openTime = g.1 := by
    rintro ⟨bucket, _ | ⟨x, xs⟩⟩ b hb
    · cases hb
    · dsimp only at hb
      split_ifs at hb
      rw [← Option.some.inj hb]
      rfl
  rw [hopen g b hb, hopen g' b' hb']
  exact hlt

/-- On minute candles in their places, `aggregate_base_candles` computes their series: no bucket is
dropped for a late observation. -/
theorem seriesOf_closedCandles (symbol : Symbol) (timeframe : CandleTimeframe)
    (start effectiveEnd : Timestamp) (hwf : ∀ m ∈ base, m.Placed) :
    SeriesOf symbol timeframe start effectiveEnd base
      (closedCandles symbol timeframe effectiveEnd
        (groupedCandles timeframe start effectiveEnd base)) where
  sorted := closedCandles_sorted
  bucket c hc := (bucketOf_of_mem_closedCandles hc).1
  window c hc := (bucketOf_of_mem_closedCandles hc).2
  complete m hm hstart hend := by
    set bucket := floorTime m.openTime (timeframeSeconds timeframe) with hbucket
    have hin : m ∈ bucketMinutes timeframe bucket
        (base.insertionSort fun a b => a.openTime ≤ b.openTime) :=
      List.mem_filter.2 ⟨(List.mem_insertionSort _).2 hm, by simp [hbucket]⟩
    cases hms : bucketMinutes timeframe bucket
        (base.insertionSort fun a b => a.openTime ≤ b.openTime) with
    | nil =>
      rw [hms] at hin
      exact absurd hin List.not_mem_nil
    | cons x xs =>
      have hgroup : (bucket, x :: xs) ∈ groupedCandles timeframe start effectiveEnd base :=
        mem_groupedCandles.2 ⟨hms.symm, List.cons_ne_nil _ _, hstart, hend⟩
      refine ⟨_, mem_closedCandles.2 ⟨bucket, x, xs, hgroup, ?_, rfl⟩, rfl⟩
      -- The last observation is inside a minute of the bucket, which ends in the window.
      obtain ⟨y, hy, hlast⟩ :=
        (isGreatest_maxOf BaseMinuteCandle.lastProviderTimestamp x xs).1
      have hy' : y ∈ bucketMinutes timeframe bucket
          (base.insertionSort fun a b => a.openTime ≤ b.openTime) := by
        rw [hms]
        exact hy
      obtain ⟨hybase, hyfloor⟩ := List.mem_filter.1 hy'
      have hyfloor : floorTime y.openTime (timeframeSeconds timeframe) = bucket := by
        simpa using hyfloor
      have hywf := hwf y ((List.mem_insertionSort _).1 hybase)
      have hle := minuteEnd_le_bucketEnd hywf.aligned timeframe
      have hlt := hywf.last_lt
      rw [hyfloor, mul_comm second] at hle
      rw [← hlast]
      lia

/-- A candle of minute candles in their places is valid, if its symbol is. -/
theorem BucketOf.validate_eq (h : BucketOf symbol timeframe bucket ms c)
    (hwf : ∀ m ∈ ms, m.Placed) (hsym : symbolOk symbol = true) : c.validate = .ok c := by
  obtain ⟨mo, hmo, -, ho⟩ := h.opening
  obtain ⟨mc, hmc, -, hc⟩ := h.closing
  obtain ⟨mh, hmh, hh⟩ := h.high.1
  obtain ⟨ml, hml, hl⟩ := h.low.1
  have hopen : 0 < c.open := ho ▸ (hwf mo hmo).open_pos
  have hclose : 0 < c.close := hc ▸ (hwf mc hmc).close_pos
  have hhigh : 0 < c.high := hh ▸ (hwf mh hmh).high_pos
  have hlow : 0 < c.low := hl ▸ (hwf ml hml).low_pos
  have hcount : 1 ≤ c.activityCount := by
    rw [h.activityCount_eq]
    exact (hwf mo hmo).activityCount_pos.trans (List.le_sum_of_mem (List.mem_map_of_mem hmo))
  simp [Candle.validate, h.symbol_eq, hsym, hopen.not_ge, hclose.not_ge, hhigh.not_ge, hlow.not_ge,
    Nat.pos_iff_ne_zero.1 hcount]

/-- When the candles of a list are valid but for their symbol, validating them first and then the
series that they go into is validating the series. -/
theorem mapM_validate_bind {α : Type} {k : List Candle → Except PyError α} (symbol : Symbol)
    (hsym : ∀ c ∈ cs, c.symbol = symbol)
    (hok : symbolOk symbol = true → ∀ c ∈ cs, c.validate = .ok c)
    (hk : symbolOk symbol = false → k cs = .error (.validationError "symbol")) :
    (cs.mapM Candle.validate >>= k) = k cs := by
  by_cases hs : symbolOk symbol = true
  · have hall : cs.mapM Candle.validate = .ok cs := by
      replace hok := hok hs
      clear hsym hk
      induction cs with
      | nil => rfl
      | cons c cs ih =>
        rw [List.mapM_cons, hok c List.mem_cons_self,
          ih fun c' hc' => hok c' (List.mem_cons_of_mem _ hc')]
        rfl
    rw [hall]
    rfl
  · have hs : symbolOk symbol = false := by simpa using hs
    cases cs with
    | nil => rfl
    | cons c cs =>
      have hc : c.validate = .error (.validationError "symbol") := by
        simp [Candle.validate, hsym c List.mem_cons_self, hs]
      rw [List.mapM_cons, hc, hk hs]
      rfl

/-- A window starts at a multiple of its interval. -/
theorem historyWindow_aligned {limit : ℤ} {«end» : Timestamp}
    (h : historyWindow timeframe limit «end» = .ok (start, effectiveEnd)) :
    second * timeframeSeconds timeframe ∣ start ∧ effectiveEnd = «end» := by
  unfold historyWindow at h
  split_ifs at h
  obtain ⟨rfl, rfl⟩ := Prod.mk.inj (Except.ok.inj h)
  refine ⟨?_, rfl⟩
  obtain ⟨b, hb⟩ := dvd_floorTime «end» (timeframeSeconds timeframe)
  rw [hb]
  exact ⟨b - limit, by ring⟩

/-- Increasing multiples of `d` between two bounds are no more than the bounds leave room for. -/
theorem length_mul_le {d hi : ℤ} {xs : List ℤ} {lo : ℤ} (hlo : d ∣ lo)
    (hle : lo ≤ hi) (hsorted : xs.Pairwise (· < ·))
    (hxs : ∀ x ∈ xs, d ∣ x ∧ lo ≤ x ∧ x + d ≤ hi) : xs.length * d ≤ hi - lo := by
  induction xs generalizing lo with
  | nil => simpa using hle
  | cons x xs ih =>
    obtain ⟨hx, hsorted⟩ := List.pairwise_cons.1 hsorted
    obtain ⟨hdvd, hlox, hxhi⟩ := hxs x List.mem_cons_self
    -- The next multiple after `x` is `x + d`.
    have hrest : xs.length * d ≤ hi - (x + d) := by
      refine ih (Int.dvd_add hdvd (Int.dvd_refl d)) hxhi hsorted fun y hy => ?_
      obtain ⟨hdvd', -, hyhi⟩ := hxs y (List.mem_cons_of_mem _ hy)
      have hlt := hx y hy
      have hgap : d ≤ y - x := Int.le_of_dvd (by omega) (Int.dvd_sub hdvd' hdvd)
      exact ⟨hdvd', by omega, hyhi⟩
    have hlength : ((x :: xs).length : ℤ) * d = xs.length * d + d := by
      rw [List.length_cons]
      push_cast
      ring
    omega

/-- A window has room for `limit` candles. -/
theorem length_le_of_window {limit : ℤ} {«end» : Timestamp}
    (hwindow : historyWindow timeframe limit «end» = .ok (start, effectiveEnd))
    (hsorted : cs.Pairwise fun c c' => c.openTime < c'.openTime)
    (hcs : ∀ c ∈ cs, second * timeframeSeconds timeframe ∣ c.openTime ∧ start ≤ c.openTime ∧
      c.openTime + timeframeSeconds timeframe * second ≤ effectiveEnd) : cs.length ≤ limit := by
  have hi := timeframeSeconds_pos timeframe
  have hd : 0 < second * timeframeSeconds timeframe := by unfold second; omega
  obtain ⟨hstart, rfl⟩ := historyWindow_aligned hwindow
  unfold historyWindow at hwindow
  split_ifs at hwindow with hlimit
  have hroom : floorTime effectiveEnd (timeframeSeconds timeframe) - start =
      limit * (second * timeframeSeconds timeframe) := by
    rw [← (Prod.mk.inj (Except.ok.inj hwindow)).1]
    ring
  have hle : start ≤ floorTime effectiveEnd (timeframeSeconds timeframe) := by
    have : 0 ≤ limit * (second * timeframeSeconds timeframe) :=
      Int.mul_nonneg (by omega) hd.le
    lia
  have hlength := length_mul_le hstart hle (List.pairwise_map.2 hsorted) fun x hx => by
    obtain ⟨c, hc, rfl⟩ := List.mem_map.1 hx
    obtain ⟨hdvd, hlo, hhi⟩ := hcs c hc
    refine ⟨hdvd, hlo, le_floorTime hi (Int.dvd_add hdvd (Int.dvd_refl _)) ?_⟩
    rwa [mul_comm second]
  rw [hroom, List.length_map] at hlength
  exact Int.le_of_mul_le_mul_right hlength hd

/-- A bucket with a candle starts at a multiple of the interval. -/
theorem BucketOf.dvd_openTime
    (h : BucketOf symbol timeframe bucket (bucketMinutes timeframe bucket base) c) :
    second * timeframeSeconds timeframe ∣ bucket := by
  obtain ⟨m, hm⟩ := h.exists_mem
  rw [← of_decide_eq_true (List.mem_filter.1 hm).2]
  exact dvd_floorTime _ _

/-- The candles of a series lie in the window, each at a multiple of the interval. -/
theorem SeriesOf.room (h : SeriesOf symbol timeframe start effectiveEnd base cs) (hc : c ∈ cs) :
    second * timeframeSeconds timeframe ∣ c.openTime ∧ start ≤ c.openTime ∧
      c.openTime + timeframeSeconds timeframe * second ≤ effectiveEnd := by
  have hbucket := h.bucket c hc
  obtain ⟨hstart, hend⟩ := h.window c hc
  rw [hbucket.closeTime_eq] at hend
  exact ⟨hbucket.dvd_openTime, hstart, hend⟩

/-- The last `limit` candles of a list that has no more are all of it. -/
theorem takeLast_eq_self {α : Type*} {limit : ℤ} {l : List α} (h : l.length ≤ limit) :
    takeLast limit.toNat l = l := by
  unfold takeLast
  rw [Nat.sub_eq_zero_of_le (by omega), List.drop_zero]

/-- What `aggregate_base_candles` returns on minute candles in their places: the last candles of
their series, when they go into a valid series. -/
theorem aggregateBaseCandles_spec (symbol : Symbol) {limit : ℤ} {«end» : Timestamp}
    (retentionSeconds : ℤ)
    (hwindow : historyWindow timeframe limit «end» = .ok (start, effectiveEnd))
    (hwf : ∀ m ∈ base, m.Placed) :
    ∃ cs, SeriesOf symbol timeframe start effectiveEnd base cs ∧
      aggregateBaseCandles symbol timeframe limit «end» retentionSeconds base =
        CandleSeries.validate {
          symbol := symbol
          timeframe := timeframe
          requestedLimit := limit
          returnedCount := (takeLast limit.toNat cs).length
          retentionSeconds := retentionSeconds
          periodStart := start
          periodEnd := effectiveEnd
          data := takeLast limit.toNat cs } := by
  have hseries := seriesOf_closedCandles symbol timeframe start effectiveEnd hwf
  refine ⟨_, hseries, ?_⟩
  rw [aggregateBaseCandles, hwindow]
  refine mapM_validate_bind symbol (fun c hc => (hseries.bucket c hc).symbol_eq) (fun hs c hc => ?_)
    fun hs => ?_
  · exact (hseries.bucket c hc).validate_eq (fun m hm => hwf m (List.mem_filter.1 hm).1) hs
  · simp [CandleSeries.validate, hs]

/-- Validation does not change a candle. -/
theorem eq_of_validate_eq {c c' : Candle} (h : c.validate = .ok c') : c' = c := by
  unfold Candle.validate at h
  split_ifs at h
  exact (Except.ok.inj h).symm

/-- Validation does not change a list of candles. -/
theorem eq_of_mapM_validate {cs cs' : List Candle} (h : cs.mapM Candle.validate = .ok cs') :
    cs' = cs := by
  induction cs generalizing cs' with
  | nil => exact (Except.ok.inj h).symm
  | cons c cs ih =>
    rw [List.mapM_cons] at h
    cases hc : c.validate with
    | error err =>
      rw [hc] at h
      cases h
    | ok c' =>
      cases hcs : cs.mapM Candle.validate with
      | error err =>
        rw [hc, hcs] at h
        cases h
      | ok cs'' =>
        rw [hc, hcs] at h
        rw [← Except.ok.inj h, eq_of_validate_eq hc, ih hcs]

/-- The candles that `aggregate_base_candles` returns are among those that it computes. -/
theorem mem_closedCandles_of_aggregate {limit : ℤ} {«end» : Timestamp} {retentionSeconds : ℤ}
    {series : CandleSeries}
    (hwindow : historyWindow timeframe limit «end» = .ok (start, effectiveEnd))
    (h : aggregateBaseCandles symbol timeframe limit «end» retentionSeconds base = .ok series)
    (hc : c ∈ series.data) : c ∈ closedCandles symbol timeframe effectiveEnd
      (groupedCandles timeframe start effectiveEnd base) := by
  rw [aggregateBaseCandles, hwindow] at h
  change (List.mapM Candle.validate _ >>= fun data => CandleSeries.validate _) = _ at h
  cases hdata : (closedCandles symbol timeframe effectiveEnd
      (groupedCandles timeframe start effectiveEnd base)).mapM Candle.validate with
  | error err =>
    rw [hdata] at h
    cases h
  | ok data =>
    rw [hdata] at h
    change CandleSeries.validate _ = _ at h
    unfold CandleSeries.validate at h
    split_ifs at h
    have hseries := Except.ok.inj h
    rw [← hseries] at hc
    rw [← eq_of_mapM_validate hdata]
    exact List.mem_of_mem_drop hc

end Aggregate

end MarketDataGateway

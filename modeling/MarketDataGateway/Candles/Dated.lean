import Mathlib.Data.List.ReduceOption
import MarketDataGateway.Candles.Datetimes
import MarketDataGateway.Candles.Direct
import MarketDataGateway.Lib.Rounding

/-!
# Candles of quotes on datetimes

`from_quote`, `with_quote`, `history_window` and `aggregate_base_candles` on Python's datetimes,
with all that can go wrong there: a datetime has a first and a last value, and `timestamp()` is a
double. `Candles/Direct.lean` has the same functions on unbounded exact instants.

The double keeps the whole second of every time less than `2 ^ 33` seconds from 1970
(`exact_of_lt`). Where it does for the quotes and the end of the window, where the window starts
after `datetime.min` and the buckets of the quotes end before `datetime.max`, the functions here are
those there, so that the candles are those of the quotes (`aggregatesDirectly_of_dates`). Each
condition is needed (`not_aggregatesDirectly`).
-/

namespace MarketDataGateway.Dated

open Lib Models Datetimes

/-! ## The code -/

/-- `int(value.timestamp())`, for a datetime in UTC: the timestamp is the double nearest to the
number of seconds. -/
def epochSeconds (t : Timestamp) : ℤ := t.sign * truncNearest t.natAbs 1000000

/-- The double keeps the whole second. -/
def Exact (t : Timestamp) : Prop := epochSeconds t = t.tdiv second

instance : DecidablePred Exact := fun _ => inferInstanceAs (Decidable (_ = _))

/-- The datetime in UTC of an instant. -/
def dated (t : Timestamp) : Datetime := ⟨t, some 0⟩

/-- `floor_time`. -/
def floorTime (value : Datetime) (intervalSeconds : ℤ) : Except DatetimeError UtcDatetime :=
  match value.utcoffset with
  | none => .error (.valueError "timestamps must include timezone information")
  | some _ => do
    let utcValue ← astimezone value
    let epoch := epochSeconds utcValue.1
    fromtimestamp (epoch - epoch % intervalSeconds)

/-- `history_window`. -/
def historyWindow (timeframe : CandleTimeframe) (limit : ℤ) («end» : Datetime) :
    Except DatetimeError (UtcDatetime × UtcDatetime) :=
  if limit < 1 then
    .error (.valueError "limit must be positive")
  else
    match «end».utcoffset with
    | none => .error (.valueError "end must include timezone information")
    | some _ => do
      let intervalSeconds := timeframeSeconds timeframe
      let effectiveEnd ← astimezone «end»
      let bucket ← floorTime (toDatetime effectiveEnd) intervalSeconds
      let lastClosedBucket ← minusSeconds bucket intervalSeconds
      let start ← minusSeconds lastClosedBucket (intervalSeconds * (limit - 1))
      return (start, effectiveEnd)

/-- `value + timedelta(seconds=seconds)`. -/
def plusSeconds (value : Timestamp) (seconds : ℤ) : Except DatetimeError UtcDatetime :=
  inRange (value + seconds * second) .overflowError

/-- The exceptions of the operations on candles. -/
inductive CandleError
  /-- One of an operation on datetimes. -/
  | datetime (error : DatetimeError)
  /-- One of a model. -/
  | model (error : PyError)
  deriving DecidableEq, Repr

/-- `BaseMinuteCandle.from_quote`. -/
def fromQuote (event : QuoteEvent) : Except CandleError BaseMinuteCandle := do
  let openTime ← (floorTime (dated event.providerTimestamp) 60).mapError .datetime
  return { BaseMinuteCandle.fromQuote event with openTime := openTime.1 }

/-- `BaseMinuteCandle.with_quote`. -/
def withQuote (c : BaseMinuteCandle) (event : QuoteEvent) : Except CandleError BaseMinuteCandle :=
  if event.symbol ≠ c.symbol then
    .error (.model (.valueError "quote symbol does not match candle symbol"))
  else do
    let minute ← (floorTime (dated event.providerTimestamp) 60).mapError .datetime
    if minute.1 ≠ c.openTime then
      .error (.model (.valueError "quote does not belong to this minute candle"))
    else
      return c.update event

/-- The minute candles with one more quote, which goes to the candle of its minute by `with_quote`,
or begins it by `from_quote`. -/
def takeQuote (ms : List BaseMinuteCandle) (q : QuoteEvent) :
    Except CandleError (List BaseMinuteCandle) :=
  putOn BaseMinuteCandle.openTime ms <$>
    match ms.find? fun m => m.openTime = minuteOf q with
    | none => fromQuote q
    | some m => withQuote m q

/-- The minute candles of quotes that arrive in the order of the list. -/
def minuteCandles (qs : List QuoteEvent) : Except CandleError (List BaseMinuteCandle) :=
  qs.foldlM takeQuote []

/-- A round of the first loop of `aggregate_base_candles`: the candle with its bucket, if this lies
in the window. -/
def placeCandle (timeframe : CandleTimeframe) (start effectiveEnd : UtcDatetime)
    (candle : BaseMinuteCandle) :
    Except DatetimeError (Option (Timestamp × BaseMinuteCandle)) := do
  let bucket ← floorTime (dated candle.openTime) (timeframeSeconds timeframe)
  let bucketEnd ← plusSeconds bucket.1 (timeframeSeconds timeframe)
  return if bucket.1 < start.1 ∨ bucketEnd.1 > effectiveEnd.1 then none else some (bucket.1, candle)

/-- The first loop of `aggregate_base_candles`. -/
def groupedCandles (timeframe : CandleTimeframe) (start effectiveEnd : UtcDatetime)
    (baseCandles : List BaseMinuteCandle) :
    Except DatetimeError (List (Timestamp × List BaseMinuteCandle)) := do
  let placed ← (baseCandles.insertionSort fun a b => a.openTime ≤ b.openTime).mapM
    (placeCandle timeframe start effectiveEnd)
  return placed.reduceOption.foldl (fun groups p => pushGroup groups p.1 p.2) []

/-- The second loop of `aggregate_base_candles`. The ends of the buckets, which are the close times,
are computed for all the candles first. -/
def closedCandles (symbol : Symbol) (timeframe : CandleTimeframe) (effectiveEnd : UtcDatetime)
    (grouped : List (Timestamp × List BaseMinuteCandle)) : Except DatetimeError (List Candle) := do
  let _ ← grouped.mapM fun g => plusSeconds g.1 (timeframeSeconds timeframe)
  return MarketDataGateway.closedCandles symbol timeframe effectiveEnd.1 grouped

/-- `aggregate_base_candles`. -/
def aggregateBaseCandles (symbol : Symbol) (timeframe : CandleTimeframe) (limit : ℤ)
    («end» : Datetime) (retentionSeconds : ℤ) (baseCandles : List BaseMinuteCandle) :
    Except CandleError CandleSeries := do
  let (start, effectiveEnd) ← (historyWindow timeframe limit «end»).mapError .datetime
  let grouped ← (groupedCandles timeframe start effectiveEnd baseCandles).mapError .datetime
  let closed ← (closedCandles symbol timeframe effectiveEnd grouped).mapError .datetime
  let data ← (closed.mapM Candle.validate).mapError .model
  let result := takeLast limit.toNat data
  (CandleSeries.validate {
    symbol := symbol
    timeframe := timeframe
    requestedLimit := limit
    returnedCount := result.length
    retentionSeconds := retentionSeconds
    periodStart := start.1
    periodEnd := effectiveEnd.1
    data := result }).mapError .model

/-! ## Whole seconds -/

variable {t k limit : ℤ} {timeframe : CandleTimeframe} {value : Datetime}

/-- The whole second is that of the magnitude, with the sign. -/
theorem tdiv_second_eq (t : Timestamp) :
    t.tdiv second = t.sign * ((t.natAbs / 1000000 : ℕ) : ℤ) := by
  rcases Int.natAbs_eq t with ht | ht
  · rw [ht]
    generalize t.natAbs = n
    rw [Int.natAbs_natCast]
    rcases Nat.eq_zero_or_pos n with rfl | hn
    · rfl
    · rw [Int.sign_natCast_of_ne_zero hn.ne', one_mul]
      rfl
  · rw [ht]
    generalize t.natAbs = n
    rw [Int.natAbs_neg, Int.natAbs_natCast, Int.sign_neg, Int.neg_tdiv]
    rcases Nat.eq_zero_or_pos n with rfl | hn
    · rfl
    · rw [Int.sign_natCast_of_ne_zero hn.ne', neg_one_mul]
      rfl

/-- The double keeps the whole second of a time less than `2 ^ 33` seconds from 1970. -/
theorem exact_of_lt (h : t.natAbs < 2 ^ 33 * 1000000) : Exact t := by
  unfold Exact epochSeconds
  rw [truncNearest_eq (by decide) (by decide) h, tdiv_second_eq]

/-- It keeps a whole second that takes at most 53 bits. -/
theorem exact_of_dvd (hdvd : second ∣ t) (h : t.natAbs < 2 ^ 53 * 1000000) : Exact t := by
  obtain ⟨n, hn⟩ := Int.natAbs_dvd_natAbs.2 hdvd
  have hn' : t.natAbs = n * 1000000 := by rw [hn, mul_comm]; rfl
  unfold Exact epochSeconds
  rw [tdiv_second_eq, hn', truncNearest_mul (by omega) (by decide),
    Nat.mul_div_cancel _ (by decide)]

/-- Every datetime of a whole second is exact. -/
theorem exact_of_mem (hdvd : second ∣ t) (h : minInstant ≤ t ∧ t ≤ maxInstant) : Exact t := by
  have hmin : (-62135596800000000 : ℤ) ≤ t := h.1
  have hmax : (t : ℤ) ≤ 253402300799999999 := h.2
  exact exact_of_dvd hdvd (by omega)

/-! ## The functions on exact datetimes -/

/-- What follows a value is compared on that value only. -/
theorem bind_congr_ok {E A B : Type} {m : Except E A} {f g : A → Except E B}
    (h : ∀ a, m = .ok a → f a = g a) : m.bind f = m.bind g := by
  cases m with
  | error error => rfl
  | ok a => exact h a rfl

/-- On an exact time `floor_time` is that of exact timestamps. -/
theorem floorTime_eq_exact (h : Exact value.instant) (k : ℤ) :
    floorTime value k = Datetimes.floorTime value k := by
  unfold floorTime Datetimes.floorTime
  cases value.utcoffset with
  | none => rfl
  | some offset =>
    refine bind_congr_ok fun utcValue hutc => ?_
    rw [inRange_eq_ok_iff.1 hutc] at h
    dsimp only
    rw [h]

/-- On a datetime it is that of instants. -/
theorem floorTime_dated (ht : minInstant ≤ t ∧ t ≤ maxInstant) (h : Exact t) (hk : 0 < k)
    (hday : k ∣ 86400) :
    floorTime (dated t) k = .ok ⟨MarketDataGateway.floorTime t k, floorTime_mem ht hk hday⟩ := by
  have hinstant : (dated t).instant = t := sub_zero t
  rw [floorTime_eq_exact (by rw [hinstant]; exact h), floorTime_eq rfl (by rw [hinstant]; exact ht),
    hinstant, inRange_of_mem]

/-- The window of an exact end is that of exact timestamps. -/
theorem historyWindow_eq_exact {«end» : Datetime} (h : Exact «end».instant)
    (timeframe : CandleTimeframe) (limit : ℤ) :
    historyWindow timeframe limit «end» = Datetimes.historyWindow timeframe limit «end» := by
  unfold historyWindow Datetimes.historyWindow
  by_cases hlimit : limit < 1
  · rw [if_pos hlimit, if_pos hlimit]
  · rw [if_neg hlimit, if_neg hlimit]
    cases «end».utcoffset with
    | none => rfl
    | some offset =>
      refine bind_congr_ok fun effectiveEnd hutc => ?_
      have hinstant : (toDatetime effectiveEnd).instant = effectiveEnd.1 := sub_zero _
      rw [inRange_eq_ok_iff.1 hutc] at h
      rw [floorTime_eq_exact (by rw [hinstant]; exact h)]

/-! ## The minute candles -/

/-- The quote has an exact timestamp that is a datetime. -/
def ExactQuote (q : QuoteEvent) : Prop :=
  (minInstant ≤ q.providerTimestamp ∧ q.providerTimestamp ≤ maxInstant) ∧ Exact q.providerTimestamp

section Minutes

variable {c : BaseMinuteCandle} {q : QuoteEvent} {ms : List BaseMinuteCandle} {qs : List QuoteEvent}

/-- The minute of an exact quote. -/
theorem floorTime_quote (h : ExactQuote q) : ∃ minute : UtcDatetime,
    floorTime (dated q.providerTimestamp) 60 = .ok minute ∧ minute.1 = minuteOf q :=
  ⟨_, floorTime_dated h.1 h.2 (by decide) (by decide), rfl⟩

/-- `from_quote` of an exact quote. -/
theorem fromQuote_eq (h : ExactQuote q) : fromQuote q = .ok (BaseMinuteCandle.fromQuote q) := by
  obtain ⟨minute, hminute, heq⟩ := floorTime_quote h
  unfold fromQuote
  rw [hminute]
  show Except.ok { BaseMinuteCandle.fromQuote q with openTime := minute.1 } = _
  rw [heq]
  rfl

/-- `with_quote` of an exact quote. -/
theorem withQuote_eq (h : ExactQuote q) : withQuote c q = (c.withQuote q).mapError .model := by
  obtain ⟨minute, hminute, heq⟩ := floorTime_quote h
  unfold withQuote BaseMinuteCandle.withQuote
  split_ifs with hsymbol hother
  · rfl
  · rw [hminute]
    show (if minute.1 ≠ c.openTime then _ else _) = _
    rw [heq]
    exact if_pos hother
  · rw [hminute]
    show (if minute.1 ≠ c.openTime then _ else _) = _
    rw [heq]
    exact if_neg hother

/-- A quote is taken as on instants. -/
theorem takeQuote_eq (h : ExactQuote q) :
    takeQuote ms q = (MarketDataGateway.takeQuote ms q).mapError .model := by
  unfold takeQuote MarketDataGateway.takeQuote
  cases ms.find? fun m => m.openTime = minuteOf q with
  | none =>
    dsimp only
    rw [fromQuote_eq h]
    rfl
  | some m =>
    dsimp only
    rw [withQuote_eq h]
    cases m.withQuote q <;> rfl

/-- So are quotes one after the other. -/
theorem foldlM_takeQuote_eq (h : ∀ q ∈ qs, ExactQuote q) (ms : List BaseMinuteCandle) :
    qs.foldlM takeQuote ms = (qs.foldlM MarketDataGateway.takeQuote ms).mapError .model := by
  induction qs generalizing ms with
  | nil => rfl
  | cons q qs ih =>
    rw [List.foldlM_cons, List.foldlM_cons, takeQuote_eq (h q List.mem_cons_self)]
    cases MarketDataGateway.takeQuote ms q with
    | error error => rfl
    | ok ms' => exact ih (fun q' hq' => h q' (List.mem_cons_of_mem _ hq')) ms'

/-- The minute candles of quotes that are exact are those of unbounded times. -/
theorem minuteCandles_eq (h : ∀ q ∈ qs, ExactQuote q) :
    minuteCandles qs = (MarketDataGateway.minuteCandles qs).mapError .model :=
  foldlM_takeQuote_eq h []

end Minutes

/-! ## The series -/

section Series

variable {symbol : Symbol} {retentionSeconds : ℤ} {«end» : Datetime}
  {start effectiveEnd : UtcDatetime} {m : BaseMinuteCandle} {base : List BaseMinuteCandle}

/-- The bucket of the candle begins at a datetime and ends at one. -/
structure Fits (timeframe : CandleTimeframe) (openTime : Timestamp) : Prop where
  /-- The candle is of a whole second. -/
  whole : second ∣ openTime
  /-- It is no earlier than `datetime.min`. -/
  le : minInstant ≤ openTime
  /-- Its bucket ends no later than `datetime.max`. -/
  bucketEnd_le : MarketDataGateway.floorTime openTime (timeframeSeconds timeframe) +
    timeframeSeconds timeframe * second ≤ maxInstant

/-- The first loop places a candle whose bucket has an end. -/
theorem placeCandle_eq (h : Fits timeframe m.openTime) :
    placeCandle timeframe start effectiveEnd m =
      .ok (if MarketDataGateway.floorTime m.openTime (timeframeSeconds timeframe) < start.1 ∨
          MarketDataGateway.floorTime m.openTime (timeframeSeconds timeframe) +
            timeframeSeconds timeframe * second > effectiveEnd.1 then none
        else some (MarketDataGateway.floorTime m.openTime (timeframeSeconds timeframe), m)) := by
  have hpos := timeframeSeconds_pos timeframe
  have hafter := lt_floorTime_add m.openTime hpos
  rw [mul_comm] at hafter
  have hmem : minInstant ≤ m.openTime ∧ m.openTime ≤ maxInstant :=
    ⟨h.le, hafter.le.trans h.bucketEnd_le⟩
  have hfloor := floorTime_mem hmem hpos (timeframeSeconds_dvd_day timeframe)
  have hend : minInstant ≤ MarketDataGateway.floorTime m.openTime (timeframeSeconds timeframe) +
      timeframeSeconds timeframe * second := hmem.1.trans hafter.le
  unfold placeCandle plusSeconds
  rw [floorTime_dated hmem (exact_of_mem h.whole hmem) hpos (timeframeSeconds_dvd_day timeframe)]
  show (inRange (MarketDataGateway.floorTime m.openTime (timeframeSeconds timeframe) +
    timeframeSeconds timeframe * second) .overflowError).bind _ = _
  rw [inRange_of_mem ⟨hend, h.bucketEnd_le⟩]
  rfl

/-- A loop whose rounds do not raise. -/
theorem mapM_eq_ok {E A B : Type} {f : A → Except E B} {g : A → B} {l : List A}
    (h : ∀ a ∈ l, f a = .ok (g a)) : l.mapM f = .ok (l.map g) := by
  induction l with
  | nil => rfl
  | cons a l ih =>
    rw [List.mapM_cons, h a List.mem_cons_self, ih fun b hb => h b (List.mem_cons_of_mem _ hb)]
    rfl

/-- Grouping what a loop has placed. -/
theorem foldl_pushGroup_placed {κ ν : Type} [DecidableEq κ] (key : ν → κ) (skip : ν → Prop)
    [DecidablePred skip] (l : List ν) (groups : List (κ × List ν)) :
    (l.map fun v => if skip v then none else some (key v, v)).reduceOption.foldl
        (fun groups p => pushGroup groups p.1 p.2) groups =
      (l.filter fun v => ¬skip v).foldl (fun groups v => pushGroup groups (key v) v) groups := by
  induction l generalizing groups with
  | nil => rfl
  | cons v l ih =>
    by_cases hskip : skip v
    · simpa [hskip, List.reduceOption_cons_of_none] using ih groups
    · simpa [hskip, List.reduceOption_cons_of_some] using ih (pushGroup groups (key v) v)

/-- The first loop makes the groups of instants. -/
theorem groupedCandles_eq (h : ∀ m ∈ base, Fits timeframe m.openTime) :
    groupedCandles timeframe start effectiveEnd base =
      .ok (MarketDataGateway.groupedCandles timeframe start.1 effectiveEnd.1 base) := by
  unfold groupedCandles
  rw [mapM_eq_ok fun m hm => placeCandle_eq (h m ((List.mem_insertionSort _).1 hm))]
  exact congrArg Except.ok (foldl_pushGroup_placed _ _ _ _)

/-- The second loop computes the closed candles: the ends of the buckets in the window are
datetimes. -/
theorem closedCandles_eq : closedCandles symbol timeframe effectiveEnd
      (MarketDataGateway.groupedCandles timeframe start.1 effectiveEnd.1 base) =
    .ok (MarketDataGateway.closedCandles symbol timeframe effectiveEnd.1
      (MarketDataGateway.groupedCandles timeframe start.1 effectiveEnd.1 base)) := by
  have hend (g) (hg : g ∈ MarketDataGateway.groupedCandles timeframe start.1 effectiveEnd.1 base) :
      ∃ bucketEnd, plusSeconds g.1 (timeframeSeconds timeframe) = .ok bucketEnd := by
    obtain ⟨-, -, hlo, hhi⟩ := mem_groupedCandles.1 hg
    have hwidth : 0 ≤ timeframeSeconds timeframe * second :=
      Int.mul_nonneg (timeframeSeconds_pos timeframe).le (by decide)
    have hbefore : minInstant ≤ g.1 + timeframeSeconds timeframe * second :=
      (start.2.1.trans hlo).trans (Int.le_add_of_nonneg_right hwidth)
    exact ⟨_, inRange_of_mem ⟨hbefore, hhi.trans effectiveEnd.2.2⟩⟩
  generalize MarketDataGateway.groupedCandles timeframe start.1 effectiveEnd.1 base = grouped at *
  obtain ⟨ends, hends⟩ : ∃ ends,
      (grouped.mapM fun g => plusSeconds g.1 (timeframeSeconds timeframe)) = .ok ends := by
    induction grouped with
    | nil => exact ⟨[], rfl⟩
    | cons g grouped ih =>
      obtain ⟨bucketEnd, hbucket⟩ := hend g List.mem_cons_self
      obtain ⟨ends, hends⟩ := ih fun g' hg' => hend g' (List.mem_cons_of_mem _ hg')
      exact ⟨bucketEnd :: ends, by rw [List.mapM_cons, hbucket, hends]; rfl⟩
  unfold closedCandles
  rw [hends]
  rfl

/-- With a window and candles in range, `aggregate_base_candles` is that of instants. -/
theorem aggregateBaseCandles_eq {offset : ℤ} (haware : «end».utcoffset = some offset)
    (hlimit : 1 ≤ limit) (hwindow : historyWindow timeframe limit «end» = .ok (start, effectiveEnd))
    (hexact : Exact «end».instant) (hbase : ∀ m ∈ base, Fits timeframe m.openTime) :
    aggregateBaseCandles symbol timeframe limit «end» retentionSeconds base =
      (MarketDataGateway.aggregateBaseCandles symbol timeframe limit «end».instant retentionSeconds
        base).mapError .model := by
  -- Each step of the function is that of instants, one after the other.
  have hinstant := hwindow
  rw [historyWindow_eq_exact hexact] at hinstant
  have hinstant := historyWindow_instant haware hlimit hinstant
  unfold aggregateBaseCandles MarketDataGateway.aggregateBaseCandles
  rw [hwindow, hinstant]
  show ((groupedCandles timeframe start effectiveEnd base).mapError CandleError.datetime).bind _ = _
  rw [groupedCandles_eq hbase]
  show ((closedCandles symbol timeframe effectiveEnd
    (MarketDataGateway.groupedCandles timeframe start.1 effectiveEnd.1 base)).mapError
      CandleError.datetime).bind _ = _
  rw [closedCandles_eq]
  show (((MarketDataGateway.closedCandles symbol timeframe effectiveEnd.1
    (MarketDataGateway.groupedCandles timeframe start.1 effectiveEnd.1 base)).mapM
      Candle.validate).mapError CandleError.model).bind _ =
      Except.mapError _ (((MarketDataGateway.closedCandles
        symbol timeframe effectiveEnd.1 (MarketDataGateway.groupedCandles timeframe start.1
          effectiveEnd.1 base)).mapM Candle.validate).bind _)
  cases (MarketDataGateway.closedCandles symbol timeframe effectiveEnd.1
    (MarketDataGateway.groupedCandles timeframe start.1 effectiveEnd.1 base)).mapM
    Candle.validate with
  | error error => rfl
  | ok data => rfl

end Series

/-! ## The candles of quotes -/

section Direct

variable {symbol : Symbol} {retentionSeconds : ℤ} {«end» : Datetime} {qs : List QuoteEvent}

/-- The candles of the quotes, which arrive in any order, are those that the two steps of
aggregation make: by minutes, and then by buckets. -/
def AggregatesDirectly (symbol : Symbol) (timeframe : CandleTimeframe)
    (limit : ℤ) («end» : Datetime)
    (retentionSeconds : ℤ) (qs : List QuoteEvent) : Prop :=
  ∃ series, DirectSeries symbol timeframe limit «end».instant qs series.data ∧
    ∀ arrival, arrival.Perm qs → ∃ ms, minuteCandles arrival = .ok ms ∧ ∀ base, base.Perm ms →
      aggregateBaseCandles symbol timeframe limit «end» retentionSeconds base = .ok series

/-- The window of the limit starts at a datetime. -/
def WindowFits (timeframe : CandleTimeframe) (limit : ℤ) («end» : Datetime) : Prop :=
  minInstant + limit * (timeframeSeconds timeframe * second) ≤ «end».instant ∧
    «end».instant ≤ maxInstant

/-- The window that fits is found. -/
theorem WindowFits.historyWindow_eq {offset : ℤ} (h : WindowFits timeframe limit «end»)
    (haware : «end».utcoffset = some offset) (hlimit : 1 ≤ limit) (hexact : Exact «end».instant) :
    ∃ start effectiveEnd, historyWindow timeframe limit «end» = .ok (start, effectiveEnd) := by
  obtain ⟨hroom, hmax⟩ := h
  have hpos := timeframeSeconds_pos timeframe
  have hday := timeframeSeconds_dvd_day timeframe
  have hwidth : 0 ≤ limit * (timeframeSeconds timeframe * second) :=
    Int.mul_nonneg (by omega) (Int.mul_nonneg hpos.le (by decide))
  have hmem : minInstant ≤ «end».instant ∧ «end».instant ≤ maxInstant :=
    ⟨(Int.le_add_of_nonneg_right hwidth).trans hroom, hmax⟩
  -- The window starts as far before the floor of the end, which is a datetime too.
  have hdvd : second * timeframeSeconds timeframe ∣
      minInstant + limit * (timeframeSeconds timeframe * second) := by
    rw [mul_comm (timeframeSeconds timeframe)]
    exact Int.dvd_add (dvd_minInstant hday) (Dvd.intro_left _ rfl)
  have hfloor := le_floorTime hpos hdvd hroom
  have hle := (floorTime_mem hmem hpos hday).2
  have hstart : minInstant ≤
    MarketDataGateway.floorTime «end».instant (timeframeSeconds timeframe) -
        limit * (timeframeSeconds timeframe * second) ∧
      MarketDataGateway.floorTime «end».instant (timeframeSeconds timeframe) -
        limit * (timeframeSeconds timeframe * second) ≤ maxInstant :=
    ⟨le_sub_iff_add_le.2 hfloor, (Int.sub_le_self _ hwidth).trans hle⟩
  refine ⟨⟨_, hstart⟩, ⟨_, hmem⟩, ?_⟩
  rw [historyWindow_eq_exact hexact]
  exact (historyWindow_eq_ok_iff haware hlimit).2 ⟨rfl, rfl⟩

/-- The candles of quotes are those of the two steps, if the double keeps their whole seconds and
that of the end, the limit is one of a series, and neither the window nor the buckets of the quotes
reach beyond the range of datetimes. -/
theorem aggregatesDirectly_of_dates {offset : ℤ} (hsymbol : symbolOk symbol = true)
    (hone : ∀ q ∈ qs, q.symbol = symbol) (hid : (qs.map QuoteEvent.eventId).Nodup)
    (hts : ∀ q ∈ qs, 0 ≤ q.providerTimestamp ∧ Exact q.providerTimestamp ∧
      MarketDataGateway.floorTime q.providerTimestamp (timeframeSeconds timeframe) +
        timeframeSeconds timeframe * second ≤ maxInstant)
    (hlimit : 1 ≤ limit ∧ limit ≤ 1000) (haware : «end».utcoffset = some offset)
    (hexact : Exact «end».instant) (hwindow : WindowFits timeframe limit «end»)
    (hretention : 0 < retentionSeconds) :
    AggregatesDirectly symbol timeframe limit «end» retentionSeconds qs := by
  obtain ⟨series, hdirect, hall⟩ := aggregateBaseCandles_direct hsymbol hone hid
    (fun q hq => (hts q hq).1) timeframe hlimit.1 hlimit.2 «end».instant hretention
  obtain ⟨start, effectiveEnd, hfound⟩ := hwindow.historyWindow_eq haware hlimit.1 hexact
  have hpos := timeframeSeconds_pos timeframe
  have hquote : ∀ q ∈ qs, ExactQuote q := fun q hq => by
    obtain ⟨hnonneg, hdouble, hbucket⟩ := hts q hq
    have hafter := lt_floorTime_add q.providerTimestamp hpos
    rw [mul_comm] at hafter
    exact ⟨⟨(show minInstant ≤ 0 by decide).trans hnonneg, hafter.le.trans hbucket⟩, hdouble⟩
  refine ⟨series, hdirect, fun arrival harrival => ?_⟩
  obtain ⟨ms, hms, hbase⟩ := hall arrival harrival
  refine ⟨ms, ?_, fun base hperm => ?_⟩
  · rw [minuteCandles_eq fun q hq => hquote q (harrival.mem_iff.1 hq), hms]
    rfl
  · -- A minute candle is of the minute of a quote, and so in the quote's bucket.
    have hfits : ∀ m ∈ base, Fits timeframe m.openTime := by
      intro m hm
      obtain ⟨ms', hms', hof⟩ := minuteCandles_spec fun q hq => hone q (harrival.mem_iff.1 hq)
      obtain rfl := Except.ok.inj (hms.symm.trans hms')
      have hm := hperm.mem_iff.1 hm
      obtain ⟨q, hq, hminute⟩ := exists_minuteOf (hof.aggregates m hm)
      have hq : q ∈ qs := harrival.mem_iff.1 (List.mem_filter.1 hq).1
      rw [← hminute]
      exact {
        whole := (Dvd.intro _ rfl).trans (dvd_floorTime q.providerTimestamp 60)
        le := (floorTime_mem (hquote q hq).1 (by decide) (by decide)).1
        bucketEnd_le := by
          rw [floorTime_minuteOf]
          exact (hts q hq).2.2 }
    rw [aggregateBaseCandles_eq haware hlimit.1 hfound hexact hfits, hbase base hperm]
    rfl

/-- Two quotes of one minute, the later of which arrives first, and the candle of their five
minutes. -/
theorem aggregatesDirectly_of_dates_sample :
    AggregatesDirectly "AAPL" .fiveMinutes 2 (dated (301 * second)) 86400
      [.sample 2 (50 * second) 102, .sample 1 (5 * second) 100] :=
  aggregatesDirectly_of_dates (by decide) (by decide) (by decide)
    (fun q hq => by
      rcases List.mem_pair.1 hq with rfl | rfl
      · exact ⟨by decide, exact_of_lt (by decide), by decide⟩
      · exact ⟨by decide, exact_of_lt (by decide), by decide⟩)
    (by decide) rfl (exact_of_lt (by decide)) ⟨by decide, by decide⟩ (by decide)

/-- The candles that are returned for the minute candle of one quote. -/
def candlesOfOne (symbol : Symbol) (timeframe : CandleTimeframe) (limit : ℤ) («end» : Datetime)
    (retentionSeconds : ℤ) (q : QuoteEvent) : Except CandleError (List Candle) :=
  (fromQuote q).bind fun m =>
    (aggregateBaseCandles symbol timeframe limit «end» retentionSeconds [m]).map CandleSeries.data

/-- The candles of one quote are those that are returned. -/
theorem AggregatesDirectly.single {q : QuoteEvent}
    (h : AggregatesDirectly symbol timeframe limit «end» retentionSeconds [q]) :
    ∃ cs, candlesOfOne symbol timeframe limit «end» retentionSeconds q = .ok cs ∧
      DirectSeries symbol timeframe limit «end».instant [q] cs := by
  obtain ⟨series, hdirect, hall⟩ := h
  obtain ⟨ms, hms, hbase⟩ := hall [q] (List.Perm.refl _)
  have hfold : minuteCandles [q] = (fromQuote q).map fun m => [m] := by
    unfold minuteCandles
    rw [List.foldlM_cons]
    unfold takeQuote
    rw [List.find?_nil]
    cases fromQuote q <;> rfl
  rw [hfold] at hms
  unfold candlesOfOne
  cases hq : fromQuote q with
  | error error =>
    rw [hq] at hms
    cases hms
  | ok m =>
    rw [hq] at hms
    obtain rfl := Except.ok.inj hms
    refine ⟨series.data, ?_, hdirect⟩
    show (aggregateBaseCandles symbol timeframe limit «end» retentionSeconds [m]).map _ = _
    rw [hbase [m] (List.Perm.refl _)]
    rfl

/-- A limit of 1001, a window that would start before `datetime.min`, a quote of the last day, and a
quote whose timestamp the double rounds up to the next minute. -/
theorem not_aggregatesDirectly :
    ¬AggregatesDirectly "AAPL" .oneMinute 1001 (dated (120 * second)) 86400
        [.sample 1 (5 * second) 100] ∧
      ¬AggregatesDirectly "AAPL" .oneDay 1000 (dated (minInstant + 43200 * second)) 86400
        [.sample 1 (5 * second) 100] ∧
      ¬AggregatesDirectly "AAPL" .oneDay 1 (dated (172800 * second)) 86400
        [.sample 1 (maxInstant + 1 - second) 100] ∧
      ¬AggregatesDirectly "AAPL" .oneMinute 1 (dated (17179869240 * second)) 86400
        [.sample 1 (17179869240 * second - 1) 100] := by
  refine ⟨fun h => ?_, fun h => ?_, fun h => ?_, fun h => ?_⟩
  · obtain ⟨cs, hcs, -⟩ := h.single
    have hraises : candlesOfOne "AAPL" .oneMinute 1001 (dated (120 * second)) 86400
      (.sample 1 (5 * second) 100) = .error (.model (.validationError "requested_limit")) := by
        decide +kernel
    exact nomatch hraises.symm.trans hcs
  · obtain ⟨cs, hcs, -⟩ := h.single
    have hraises : candlesOfOne "AAPL" .oneDay 1000 (dated (minInstant + 43200 * second)) 86400
      (.sample 1 (5 * second) 100) = .error (.datetime .overflowError) := by decide +kernel
    exact nomatch hraises.symm.trans hcs
  · obtain ⟨cs, hcs, -⟩ := h.single
    have hraises : candlesOfOne "AAPL" .oneDay 1 (dated (172800 * second)) 86400
      (.sample 1 (maxInstant + 1 - second) 100) = .error (.datetime .overflowError) := by
        decide +kernel
    exact nomatch hraises.symm.trans hcs
  · obtain ⟨cs, hcs, hdirect⟩ := h.single
    have hempty : candlesOfOne "AAPL" .oneMinute 1 (dated (17179869240 * second)) 86400
      (.sample 1 (17179869240 * second - 1) 100) = .ok [] := by decide +kernel
    obtain rfl := Except.ok.inj (hempty.symm.trans hcs)
    -- The minute of the quote ends with the window, but has no candle.
    obtain ⟨c, hc, -⟩ := (hdirect.intervals (17179869180 * second)).2 (by decide)
    exact nomatch hc

end Direct

end MarketDataGateway.Dated

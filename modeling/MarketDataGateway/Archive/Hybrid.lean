import MarketDataGateway.Archive.Reader
import MarketDataGateway.Hot.GetCandles

/-!
# The overlay of the hot store on the archive

`HybridCandleHistoryStore.get_candles` of `candle_archive.py`: both layers are asked for the series,
and where both answer, the hot candles of the buckets that are still whole take the place of the
archive's.

`HotLayer` and `ArchiveLayer` say what the layers hold of the accepted quotes: the hot store all the
minutes within retention, at the times of the call's commands, and the archive all the buckets
before retention. A bucket is either before the start of the authoritative hot buckets, and then
whole in the archive, or all its minutes are within retention. So the candle that is taken is the
aggregate of all its quotes (`getCandles_spec`).
-/

namespace MarketDataGateway.Hot

/-- What a call of `get_candles` returns that takes its steps at the given times on the given
keys. -/
def getResult (cfg : Settings) (symbol : Symbol) (g : GetCall) :
    List (Timestamp × HotKeys) → Option (Except PyError CandleSeries)
  | [] =>
    match g.pc with
    | .returned result => some result
    | _ => none
  | (clock, keys) :: reads =>
    (getStep cfg symbol clock keys g).bind fun result =>
      getResult cfg symbol { g with pc := result.2 } reads

end MarketDataGateway.Hot

namespace MarketDataGateway.Hybrid

open Lib Hot Archive

/-- `_ceil_timeframe`. -/
def ceilTimeframe (value : Timestamp) (timeframe : CandleTimeframe) : Timestamp :=
  let intervalSeconds := timeframeSeconds timeframe
  let bucket := floorTime value intervalSeconds
  if bucket < value then bucket + intervalSeconds * second else bucket

/-- `_unique_warnings`. -/
def uniqueWarnings (groups : List (List String)) : List String := groups.flatten.eraseDups

/-- The start of the buckets for which the hot store is the authority. -/
def authoritativeHotStart (cfg : Settings) (clock : Timestamp) (timeframe : CandleTimeframe) :
    Timestamp :=
  ceilTimeframe (clock - cfg.retention) timeframe

/-- `get_candles` after both layers have answered, at the time `clock`. -/
def overlay (cfg : Settings) (clock : Timestamp) (timeframe : CandleTimeframe) (limit : ℤ)
    (hot archive : CandleSeries) : Except PyError CandleSeries :=
  let start := authoritativeHotStart cfg clock timeframe
  let merged := overlayOn Candle.openTime (fun c => start ≤ c.openTime)
    (archive.data.foldl (putOn Candle.openTime) []) hot.data
  let data := takeLast limit.toNat (merged.insertionSort fun a b => a.openTime ≤ b.openTime)
  CandleSeries.validate {
    symbol := archive.symbol
    timeframe := timeframe
    requestedLimit := limit
    returnedCount := data.length
    retentionSeconds := cfg.candleArchiveRetentionSeconds
    periodStart := archive.periodStart
    periodEnd := archive.periodEnd
    data := data
    warnings := uniqueWarnings [archive.warnings, hot.warnings,
      ["Complete recent buckets are overlaid from the Redis hot layer."]] }

/-- `get_candles`, given what the layers return or raise; there may be no archive. -/
def getCandles (cfg : Settings) (clock : Timestamp) (timeframe : CandleTimeframe) (limit : ℤ)
    (hot : Except PyError CandleSeries) :
    Option (Except PyError CandleSeries) → Except PyError CandleSeries
  | none => hot
  | some archive =>
    match hot, archive with
    | .error hotError, .error _ => .error hotError
    | .ok hotSeries, .error _ =>
      .ok { hotSeries with
        warnings := uniqueWarnings [hotSeries.warnings,
          ["Durable archive was unavailable; this response contains Redis hot history only."]] }
    | .error _, .ok archiveSeries =>
      .ok { archiveSeries with
        warnings := uniqueWarnings [archiveSeries.warnings,
          ["Redis hot history was unavailable; this response contains durable archive data only."]]
          }
    | .ok hotSeries, .ok archiveSeries => overlay cfg clock timeframe limit hotSeries archiveSeries

/-! ## What the layers hold -/

/-- The candle is the fold of the quotes `qs`, in some order. -/
def FoldOf (m : BaseMinuteCandle) (qs : List QuoteEvent) : Prop :=
  ∃ qs', qs'.Perm qs ∧ foldQuotes qs' = .ok (some m)

/-- The keys of the hot store at the time `clock`: for every minute with a quote whose retention
deadline is after it, the fold of the quotes of the minute, and for other minutes nothing or
that. -/
structure HotLayer (cfg : Settings) (accepted : List QuoteEvent) (clock : Timestamp)
    (keys : HotKeys) : Prop where
  scored : keys.index.ScoredBy fun m => m
  stored : ∀ m cell, keys.candles.value m = some cell →
    FoldOf cell.value.candle (minuteQuotes m accepted)
  present : ∀ m, minuteQuotes m accepted ≠ [] → clock < retentionDeadline cfg m →
    m ∈ keys.index ∧ (keys.candles.value m).isSome

/-- The rows of a symbol in the archive: each is the fold of some of the accepted quotes, and for
the buckets before `bound` there is the fold of all the quotes of each of their minutes. -/
structure ArchiveLayer (accepted : List QuoteEvent) (rows : List BaseMinuteCandle)
    (timeframe : CandleTimeframe) (bound : Timestamp) : Prop where
  stored : ∀ r ∈ rows, ∃ qs, qs ⊆ accepted ∧ foldQuotes qs = .ok (some r)
  complete : ∀ q ∈ accepted, floorTime q.providerTimestamp (timeframeSeconds timeframe) < bound →
    ∃ r ∈ rows, FoldOf r (minuteQuotes (minuteOf q) accepted)

section Layers

variable {cfg : Settings} {symbol : Symbol} {accepted qs : List QuoteEvent}
  {clock last start effectiveEnd bucket bound : Timestamp} {keys keys' : HotKeys}
  {base rows : List BaseMinuteCandle} {timeframe : CandleTimeframe} {limit : ℤ}
  {m r : BaseMinuteCandle} {c : Candle} {cs : List Candle} {series : CandleSeries}
  {reads : List (Timestamp × HotKeys)} {g : GetCall} {pc' : GetPc}

/-- The fold of quotes is their candle. -/
theorem FoldOf.aggregates (h : FoldOf m qs) : m.Aggregates qs := by
  obtain ⟨qs', hperm, hfold⟩ := h
  exact (aggregates_of_foldQuotes hfold).perm hperm

/-! ### The hot store's answer -/

/-- What a call has read by the time `last` of the minutes of its window. -/
structure HotRead (cfg : Settings) (accepted : List QuoteEvent)
    (last start effectiveEnd : Timestamp)
    (base : List BaseMinuteCandle) : Prop where
  nodup : (base.map BaseMinuteCandle.openTime).Nodup
  aggregates : ∀ m ∈ base, m.Aggregates (minuteQuotes m.openTime accepted)
  present : ∀ q ∈ accepted, last < retentionDeadline cfg (minuteOf q) → start ≤ minuteOf q →
    minuteOf q ≤ effectiveEnd → ∃ m ∈ base, m.openTime = minuteOf q

/-- What holds of a call between its steps. -/
def ReadOk (cfg : Settings) (symbol : Symbol) (accepted : List QuoteEvent) (last : Timestamp)
    (g : GetCall) : Prop :=
  match g.pc with
  | .start => True
  | .trim start effectiveEnd _ =>
    historyWindow g.timeframe g.limit g.end = .ok (start, effectiveEnd)
  | .range start effectiveEnd => historyWindow g.timeframe g.limit g.end = .ok (start, effectiveEnd)
  | .mget start effectiveEnd epochs =>
    historyWindow g.timeframe g.limit g.end = .ok (start, effectiveEnd) ∧ epochs.Nodup ∧
      ∀ q ∈ accepted, last < retentionDeadline cfg (minuteOf q) → start ≤ minuteOf q →
        minuteOf q ≤ effectiveEnd → minuteOf q ∈ epochs
  | .zrem effectiveEnd _ base =>
    ∃ start, historyWindow g.timeframe g.limit g.end = .ok (start, effectiveEnd) ∧
      HotRead cfg accepted last start effectiveEnd base
  | .returned result => ∀ series, result = .ok series → ∃ start effectiveEnd base,
      historyWindow g.timeframe g.limit g.end = .ok (start, effectiveEnd) ∧
        HotRead cfg accepted last start effectiveEnd base ∧
        aggregateBaseCandles symbol g.timeframe g.limit effectiveEnd
          cfg.candleHistoryRetentionSeconds base = .ok series

/-- A quote is in the quotes of its minute. -/
theorem mem_minuteQuotes_self {q : QuoteEvent} (hq : q ∈ accepted) :
    q ∈ minuteQuotes (minuteOf q) accepted :=
  List.mem_filter.2 ⟨hq, decide_eq_true rfl⟩

/-- What `MGET` reads of a layer. -/
theorem hotRead_mget (h : HotLayer cfg accepted clock keys) (hclock : clock ≤ last)
    {epochs : List Timestamp} (hnodup : epochs.Nodup)
    (hepochs : ∀ q ∈ accepted, last < retentionDeadline cfg (minuteOf q) → start ≤ minuteOf q →
      minuteOf q ≤ effectiveEnd → minuteOf q ∈ epochs) :
    HotRead cfg accepted last start effectiveEnd (keys.mget epochs) := by
  -- A key holds the candle of its own minute.
  have hopen : ∀ m cell, keys.candles.value m = some cell → cell.value.candle.openTime = m := by
    intro m cell hval
    obtain ⟨q, hq, hminute⟩ := exists_minuteOf (h.stored m cell hval).aggregates
    rw [← hminute]
    exact of_decide_eq_true (List.mem_filter.1 hq).2
  constructor
  case nodup => exact hnodup.sublist (sublist_mget hopen epochs)
  case aggregates =>
    intro b hb
    obtain ⟨m, -, cell, hval, rfl⟩ := mem_mget.1 hb
    rw [hopen m cell hval]
    exact (h.stored m cell hval).aggregates
  case present =>
    intro q hq hdeadline hstart hend
    have hne := List.ne_nil_of_mem (mem_minuteQuotes_self hq)
    obtain ⟨-, hsome⟩ := h.present _ hne (lt_of_le_of_lt hclock hdeadline)
    obtain ⟨cell, hval⟩ := Option.isSome_iff_exists.1 hsome
    exact ⟨_, mem_mget.2 ⟨_, hepochs q hq hdeadline hstart hend, cell, hval, rfl⟩,
      hopen _ cell hval⟩

/-- Each step of a call keeps what holds of it. -/
theorem readOk_step (h : ReadOk cfg symbol accepted last g)
    (hlayer : HotLayer cfg accepted clock keys) (hclock : clock ≤ last)
    (hstep : getStep cfg symbol clock keys g = some (keys', pc')) :
    ReadOk cfg symbol accepted last { g with pc := pc' } := by
  unfold getStep at hstep
  unfold ReadOk at h
  cases hpc : g.pc with
  | start =>
    simp only [hpc] at hstep
    split at hstep
    · obtain ⟨-, rfl⟩ := Prod.mk.inj (Option.some.inj hstep)
      intro series hseries
      cases hseries
    · next start effectiveEnd hwindow =>
      obtain ⟨-, rfl⟩ := Prod.mk.inj (Option.some.inj hstep)
      exact hwindow
  | trim start effectiveEnd now =>
    simp only [hpc] at hstep h
    obtain ⟨-, rfl⟩ := Prod.mk.inj (Option.some.inj hstep)
    exact h
  | range start effectiveEnd =>
    simp only [hpc] at hstep h
    -- The index lists all the minutes of the window that are within retention.
    have hepochs : ∀ q ∈ accepted, last < retentionDeadline cfg (minuteOf q) →
        start ≤ minuteOf q → minuteOf q ≤ effectiveEnd →
          minuteOf q ∈ keys.index.zrangebyscore start effectiveEnd := by
      intro q hq hdeadline hstart hend
      have hne := List.ne_nil_of_mem (mem_minuteQuotes_self hq)
      obtain ⟨hindex, -⟩ := hlayer.present _ hne (lt_of_le_of_lt hclock hdeadline)
      exact hlayer.scored.mem_zrangebyscore.2 ⟨hindex, hstart, hend⟩
    split_ifs at hstep with hnil
    · obtain ⟨-, rfl⟩ := Prod.mk.inj (Option.some.inj hstep)
      intro series hseries
      refine ⟨start, effectiveEnd, [], h, ⟨List.nodup_nil, ?_, ?_⟩, hseries⟩
      · exact fun m hm => absurd hm List.not_mem_nil
      · intro q hq hdeadline hstart hend
        have := hepochs q hq hdeadline hstart hend
        rw [hnil] at this
        exact absurd this List.not_mem_nil
    · obtain ⟨-, rfl⟩ := Prod.mk.inj (Option.some.inj hstep)
      exact ⟨h, SortedSet.zrangebyscore_nodup _ _ _, hepochs⟩
  | mget start effectiveEnd epochs =>
    simp only [hpc] at hstep h
    obtain ⟨hwindow, hnodup, hepochs⟩ := h
    have hread := hotRead_mget hlayer hclock hnodup hepochs
    split_ifs at hstep
    · obtain ⟨-, rfl⟩ := Prod.mk.inj (Option.some.inj hstep)
      exact fun series hseries => ⟨start, effectiveEnd, _, hwindow, hread, hseries⟩
    · obtain ⟨-, rfl⟩ := Prod.mk.inj (Option.some.inj hstep)
      exact ⟨start, hwindow, hread⟩
  | zrem effectiveEnd missing base =>
    simp only [hpc] at hstep h
    obtain ⟨start, hwindow, hread⟩ := h
    obtain ⟨-, rfl⟩ := Prod.mk.inj (Option.some.inj hstep)
    exact fun series hseries => ⟨start, effectiveEnd, base, hwindow, hread, hseries⟩
  | returned result =>
    simp only [hpc] at hstep
    cases hstep

/-- What a call returns that reads layers. -/
theorem readOk_getResult (h : ReadOk cfg symbol accepted last g)
    (hlayers : ∀ x ∈ reads, HotLayer cfg accepted x.1 x.2 ∧ x.1 ≤ last)
    (hrun : getResult cfg symbol g reads = some (.ok series)) :
    ∃ start effectiveEnd base, historyWindow g.timeframe g.limit g.end = .ok (start, effectiveEnd) ∧
      HotRead cfg accepted last start effectiveEnd base ∧
      aggregateBaseCandles symbol g.timeframe g.limit effectiveEnd
        cfg.candleHistoryRetentionSeconds base = .ok series := by
  induction reads generalizing g with
  | nil =>
    unfold getResult at hrun
    split at hrun
    · next result hpc =>
      unfold ReadOk at h
      simp only [hpc] at h
      exact h series (Option.some.inj hrun)
    · cases hrun
  | cons x reads ih =>
    obtain ⟨clock, keys⟩ := x
    obtain ⟨⟨keys', pc'⟩, hstep, hrest⟩ := Option.bind_eq_some_iff.1 hrun
    obtain ⟨hlayer, hclock⟩ := hlayers _ List.mem_cons_self
    have hok := readOk_step h hlayer hclock hstep
    exact ih (g := { g with pc := pc' }) hok (fun y hy => hlayers y (List.mem_cons_of_mem _ hy))
      hrest

/-! ### The buckets of a layer -/

/-- A bucket at or after the authoritative start is within retention, with all its minutes. -/
theorem lt_retentionDeadline {minute : Timestamp} (hminute : second ∣ minute)
    (h : authoritativeHotStart cfg clock timeframe ≤
      floorTime minute (timeframeSeconds timeframe)) :
    clock < retentionDeadline cfg minute := by
  have hle : clock - cfg.retention ≤ authoritativeHotStart cfg clock timeframe := by
    have hi := timeframeSeconds_pos timeframe
    have hlt := lt_floorTime_add (clock - cfg.retention) hi
    unfold authoritativeHotStart ceilTimeframe
    dsimp only
    split_ifs with hfloor
    · rw [mul_comm] at hlt
      exact hlt.le
    · exact not_lt.1 hfloor
  have hfloor := floorTime_le hminute (timeframeSeconds_pos timeframe)
  unfold retentionDeadline second
  lia

/-- A series has a candle for each bucket of its window with a minute candle. -/
theorem mem_openTimes (h : SeriesOf symbol timeframe start effectiveEnd base cs)
    (hm : m ∈ base) (hbucket : floorTime m.openTime (timeframeSeconds timeframe) = bucket)
    (hstart : start ≤ bucket)
    (hend : bucket + timeframeSeconds timeframe * second ≤ effectiveEnd) :
    bucket ∈ cs.map Candle.openTime := by
  obtain ⟨c, hc, hopen⟩ := h.complete m hm (hbucket ▸ hstart) (hbucket ▸ hend)
  exact List.mem_map.2 ⟨c, hc, hopen.trans hbucket⟩

/-- A candle of a series whose minute candles are candles of some of the quotes has a quote in its
bucket. -/
theorem exists_quote (h : SeriesOf symbol timeframe start effectiveEnd base cs)
    (hbase : ∀ m ∈ base, ∃ qs ⊆ accepted, m.Aggregates qs) (hc : c ∈ cs) :
    ∃ q ∈ accepted, floorTime q.providerTimestamp (timeframeSeconds timeframe) = c.openTime := by
  obtain ⟨m, hm⟩ := (h.bucket c hc).exists_mem
  obtain ⟨hm, hbucket⟩ := List.mem_filter.1 hm
  obtain ⟨qs, hqs, hagg⟩ := hbase m hm
  obtain ⟨q, hq, hminute⟩ := exists_minuteOf hagg
  refine ⟨q, hqs hq, ?_⟩
  rw [← floorTime_minuteOf, hminute]
  exact of_decide_eq_true hbucket

/-- The minute of a quote of a bucket of the window is in the window. -/
theorem minuteOf_mem_window {q : QuoteEvent}
    (hq : floorTime q.providerTimestamp (timeframeSeconds timeframe) = bucket)
    (hstart : start ≤ bucket)
    (hend : bucket + timeframeSeconds timeframe * second ≤ effectiveEnd) :
    start ≤ minuteOf q ∧ minuteOf q ≤ effectiveEnd := by
  have haligned : second * 60 ∣ minuteOf q := dvd_floorTime _ _
  have hle := floorTime_le ((Dvd.intro _ rfl : second ∣ second * 60).trans haligned)
    (timeframeSeconds_pos timeframe)
  have hminute := minuteEnd_le_bucketEnd haligned timeframe
  rw [floorTime_minuteOf, hq] at hle hminute
  refine ⟨hstart.trans hle, ?_⟩
  rw [mul_comm second (timeframeSeconds timeframe)] at hminute
  unfold second at *
  lia

/-- In a bucket of the window for which the hot store is the authority, no minute with a quote is
missing. -/
theorem HotRead.cover (h : HotRead cfg accepted clock start effectiveEnd base)
    (hbucket : authoritativeHotStart cfg clock timeframe ≤ bucket) (hstart : start ≤ bucket)
    (hend : bucket + timeframeSeconds timeframe * second ≤ effectiveEnd) :
    ∀ q ∈ bucketQuotes timeframe bucket accepted, ∃ m ∈ base, m.openTime = minuteOf q := by
  intro q hq
  obtain ⟨hq, hfloor⟩ := List.mem_filter.1 hq
  have hfloor : floorTime q.providerTimestamp (timeframeSeconds timeframe) = bucket :=
    of_decide_eq_true hfloor
  have hsecond : second ∣ minuteOf q := (Dvd.intro _ rfl).trans (dvd_floorTime _ 60)
  have hdeadline : clock < retentionDeadline cfg (minuteOf q) := by
    have hfrom : authoritativeHotStart cfg clock timeframe ≤
        floorTime (minuteOf q) (timeframeSeconds timeframe) := by
      rwa [floorTime_minuteOf, hfloor]
    exact lt_retentionDeadline hsecond hfrom
  obtain ⟨hlo, hhi⟩ := minuteOf_mem_window hfloor hstart hend
  exact h.present q hq hdeadline hlo hhi

/-- In a bucket before the bound of the archive, no minute with a quote is missing, and each row is
the candle of all the quotes of its minute. -/
theorem ArchiveLayer.minutesOf (h : ArchiveLayer accepted rows timeframe bound)
    (hnodup : (rows.map BaseMinuteCandle.openTime).Nodup) (hbucket : bucket < bound) :
    MinutesOf (bucketMinutes timeframe bucket rows) (bucketQuotes timeframe bucket accepted) := by
  have hcover : ∀ q ∈ accepted,
    floorTime q.providerTimestamp (timeframeSeconds timeframe) = bucket →
      ∃ r ∈ rows, r.openTime = minuteOf q ∧ r.Aggregates (minuteQuotes (minuteOf q) accepted) := by
    intro q hq hfloor
    obtain ⟨r, hr, hfold⟩ := h.complete q hq (hfloor ▸ hbucket)
    exact ⟨r, hr, (hfold.aggregates.covers q (mem_minuteQuotes_self hq)).2.symm, hfold.aggregates⟩
  refine minutesOf_bucketMinutes hnodup (fun r hr => ?_) fun q hq => ?_
  · -- The row of a minute with a quote is the one that is complete.
    obtain ⟨hr, hfloor⟩ := List.mem_filter.1 hr
    obtain ⟨qs, hqs, hfold⟩ := h.stored r hr
    obtain ⟨q, hq, hminute⟩ := exists_minuteOf (aggregates_of_foldQuotes hfold)
    have hbucket' : floorTime q.providerTimestamp (timeframeSeconds timeframe) = bucket := by
      rw [← floorTime_minuteOf, hminute]
      exact of_decide_eq_true hfloor
    obtain ⟨r', hr', hopen, hagg⟩ := hcover q (hqs hq) hbucket'
    obtain rfl : r' = r := List.inj_on_of_nodup_map hnodup hr' hr (hopen.trans hminute)
    rwa [hopen]
  · obtain ⟨hq, hfloor⟩ := List.mem_filter.1 hq
    obtain ⟨r, hr, hopen, -⟩ := hcover q hq (of_decide_eq_true hfloor)
    exact ⟨r, hr, hopen⟩

end Layers

/-! ## What the overlay returns -/

/-- `data` are the candles of the buckets of the window with an accepted quote, each the aggregate
of all the quotes of its bucket. -/
structure CandlesOf (accepted : List QuoteEvent) (symbol : Symbol) (timeframe : CandleTimeframe)
    (limit : ℤ) (start effectiveEnd : Timestamp) (data : List Candle) : Prop where
  sorted : data.Pairwise fun c c' => c.openTime < c'.openTime
  length_le : data.length ≤ limit
  /-- There is a candle for exactly the closed buckets of the window with a quote. -/
  buckets : ∀ bucket, bucket ∈ data.map Candle.openTime ↔
    start ≤ bucket ∧ bucket + timeframeSeconds timeframe * second ≤ effectiveEnd ∧
      bucketQuotes timeframe bucket accepted ≠ []
  closed : ∀ c ∈ data, c.symbol = symbol ∧ c.timeframe = timeframe ∧
    c.closeTime = c.openTime + timeframeSeconds timeframe * second ∧ c.closed = true
  aggregate : ∀ c ∈ data, c.AggregateOf (bucketQuotes timeframe c.openTime accepted)

section Overlay

variable {cfg : Settings} {symbol : Symbol} {accepted : List QuoteEvent}
  {clock start effectiveEnd : Timestamp} {base rows : List BaseMinuteCandle}
  {timeframe : CandleTimeframe} {limit : ℤ} {hot archive series : CandleSeries}

/-- When a series is valid. -/
theorem validate_eq_ok {s s' : CandleSeries} (h : s.validate = .ok s') :
    s' = s ∧ symbolOk s.symbol = true ∧ 1 ≤ s.requestedLimit ∧ s.requestedLimit ≤ 1000 := by
  unfold CandleSeries.validate at h
  split_ifs at h with hsymbol hlimit hret
  push Not at hlimit
  exact ⟨(Except.ok.inj h).symm, by simpa using hsymbol, hlimit.1, hlimit.2⟩

/-- The dict of values with distinct keys is the list of the values. -/
theorem foldl_putOn_eq {l d : List Candle} (h : ((d ++ l).map Candle.openTime).Nodup) :
    l.foldl (putOn Candle.openTime) d = d ++ l := by
  induction l generalizing d with
  | nil => simp
  | cons c l ih =>
    have hnew : c.openTime ∉ d.map Candle.openTime := by
      rw [List.map_append, List.nodup_append] at h
      exact fun hin => h.2.2 _ hin _ (by simp) rfl
    rw [List.foldl_cons, putOn, if_neg hnew, ih, List.append_assoc]
    · rfl
    · rwa [List.append_assoc]

/-- A hot candle from the authoritative start on is the aggregate of its bucket's quotes. -/
theorem HotRead.aggregateOf {c : Candle} {bucket : Timestamp}
    (h : HotRead cfg accepted clock start effectiveEnd base)
    (hc : BucketOf symbol timeframe bucket (bucketMinutes timeframe bucket base) c)
    (hbucket : authoritativeHotStart cfg clock timeframe ≤ bucket) (hstart : start ≤ bucket)
    (hend : bucket + timeframeSeconds timeframe * second ≤ effectiveEnd) :
    c.AggregateOf (bucketQuotes timeframe bucket accepted) :=
  (minutesOf_bucketMinutes h.nodup (fun m hm => h.aggregates m (List.mem_filter.1 hm).1)
    (h.cover hbucket hstart hend)).aggregateOf hc

/-- The candles of the two layers' series make the candles of all the quotes. -/
theorem candlesOf_overlay (hwindow : historyWindow timeframe limit effectiveEnd =
      .ok (start, effectiveEnd))
    (hread : HotRead cfg accepted clock start effectiveEnd base)
    (hhot : SeriesOf symbol timeframe start effectiveEnd base hot.data)
    (hlayer : ArchiveLayer accepted rows timeframe (authoritativeHotStart cfg clock timeframe))
    (hrows : (rows.map BaseMinuteCandle.openTime).Nodup)
    (harchive : SeriesOf symbol timeframe start effectiveEnd rows archive.data) :
    CandlesOf accepted symbol timeframe limit start effectiveEnd
      (takeLast limit.toNat ((overlayOn Candle.openTime
        (fun c => authoritativeHotStart cfg clock timeframe ≤ c.openTime)
        (archive.data.foldl (putOn Candle.openTime) []) hot.data).insertionSort
          fun a b => a.openTime ≤ b.openTime)) := by
  have hkeys : (archive.data.map Candle.openTime).Nodup :=
    (List.pairwise_map.2 harchive.sorted).imp ne_of_lt
  rw [foldl_putOn_eq (by simpa using hkeys), List.nil_append]
  obtain ⟨hnodup, hmemKeys, hmem⟩ := overlayOn_spec
    (fun c : Candle => decide (authoritativeHotStart cfg clock timeframe ≤
    c.openTime)) hot.data hkeys
  generalize overlayOn Candle.openTime _ archive.data hot.data = merged at hnodup hmemKeys hmem
  generalize hbound : authoritativeHotStart cfg clock timeframe = bound at hlayer hmem
  -- Both layers are made of quotes.
  have hbase : ∀ m ∈ base, ∃ qs ⊆ accepted, m.Aggregates qs := fun m hm =>
    ⟨_, List.filter_sublist.subset, hread.aggregates m hm⟩
  have hstored : ∀ r ∈ rows, ∃ qs ⊆ accepted, r.Aggregates qs := fun r hr => by
    obtain ⟨qs, hqs, hfold⟩ := hlayer.stored r hr
    exact ⟨qs, hqs, aggregates_of_foldQuotes hfold⟩
  -- A bucket with a quote has a candle of the layer that is the authority for it.
  have hhas : ∀ q ∈ accepted, ∀ bucket,
      floorTime q.providerTimestamp (timeframeSeconds timeframe) = bucket → start ≤ bucket →
      bucket + timeframeSeconds timeframe * second ≤ effectiveEnd →
        bucket < bound ∧ bucket ∈ archive.data.map Candle.openTime ∨
        bound ≤ bucket ∧ bucket ∈ hot.data.map Candle.openTime := by
    intro q hq bucket hfloor hstart hend
    have hin : q ∈ bucketQuotes timeframe bucket accepted :=
      List.mem_filter.2 ⟨hq, decide_eq_true hfloor⟩
    have hopen : floorTime (minuteOf q) (timeframeSeconds timeframe) = bucket := by
      rw [floorTime_minuteOf, hfloor]
    rcases lt_or_ge bucket bound with hlt | hge
    · obtain ⟨r, hr, hminute⟩ := (hlayer.minutesOf hrows hlt).cover q hin
      exact Or.inl ⟨hlt, mem_openTimes harchive (List.mem_filter.1 hr).1 (hminute ▸ hopen) hstart
        hend⟩
    · obtain ⟨m, hm, hminute⟩ := hread.cover (hbound ▸ hge) hstart hend q hin
      exact Or.inr ⟨hge, mem_openTimes hhot hm (hminute ▸ hopen) hstart hend⟩
  -- Each candle is the aggregate of the quotes of a bucket of the window.
  have hcandle : ∀ c ∈ merged, (∃ ms, BucketOf symbol timeframe c.openTime ms c) ∧
      (second * timeframeSeconds timeframe ∣ c.openTime ∧ start ≤ c.openTime ∧
        c.openTime + timeframeSeconds timeframe * second ≤ effectiveEnd) ∧
      (∃ q ∈ accepted, floorTime q.providerTimestamp (timeframeSeconds timeframe) = c.openTime) ∧
      c.AggregateOf (bucketQuotes timeframe c.openTime accepted) := by
    intro c hc
    rcases hmem c hc with ⟨hin, hplace⟩ | ⟨hin, hplace⟩
    · have hroom := hhot.room hin
      obtain ⟨q, hq, hfloor⟩ := exists_quote hhot hbase hin
      refine ⟨⟨_, hhot.bucket c hin⟩, hroom, ⟨q, hq, hfloor⟩, ?_⟩
      rcases hhas q hq _ hfloor hroom.2.1 hroom.2.2 with ⟨hlt, hold⟩ | ⟨hge, -⟩
      · -- A bucket before the start has a candle of the archive, which stays.
        rcases hplace with hge | hnew
        · exact absurd (of_decide_eq_true hge) (not_le.2 hlt)
        · exact absurd hold hnew
      · exact hread.aggregateOf (hhot.bucket c hin) (hbound ▸ hge) hroom.2.1 hroom.2.2
    · have hroom := harchive.room hin
      obtain ⟨q, hq, hfloor⟩ := exists_quote harchive hstored hin
      refine ⟨⟨_, harchive.bucket c hin⟩, hroom, ⟨q, hq, hfloor⟩, ?_⟩
      rcases hhas q hq _ hfloor hroom.2.1 hroom.2.2 with ⟨hlt, -⟩ | ⟨hge, hnew⟩
      · exact (hlayer.minutesOf hrows hlt).aggregateOf (harchive.bucket c hin)
      · -- A bucket from the start on has a hot candle, which takes its place.
        obtain ⟨v, hv, hopen⟩ := List.mem_map.1 hnew
        have := hplace v hv hopen
        rw [hopen] at this
        exact absurd hge (of_decide_eq_false this)
  -- The candles of the window are no more than the limit, so that none is left out.
  have hperm : (merged.insertionSort fun a b => a.openTime ≤ b.openTime).Perm merged :=
    List.perm_insertionSort _ _
  have hsorted := pairwise_lt_of_nodup (pairwise_sortOn Candle.openTime merged)
    ((hperm.map _).nodup_iff.2 hnodup)
  have hlength := length_le_of_window hwindow hsorted fun c hc =>
    (hcandle c (hperm.mem_iff.1 hc)).2.1
  rw [takeLast_eq_self hlength]
  constructor
  case sorted => exact hsorted
  case length_le => exact hlength
  case buckets =>
    intro bucket
    rw [(hperm.map _).mem_iff]
    constructor
    · intro hin
      obtain ⟨c, hc, rfl⟩ := List.mem_map.1 hin
      obtain ⟨-, ⟨-, hstart, hend⟩, ⟨q, hq, hfloor⟩, -⟩ := hcandle c hc
      exact ⟨hstart, hend, List.ne_nil_of_mem (List.mem_filter.2 ⟨hq, decide_eq_true hfloor⟩)⟩
    · rintro ⟨hstart, hend, hne⟩
      obtain ⟨q, hq⟩ := List.exists_mem_of_ne_nil _ hne
      obtain ⟨hq, hfloor⟩ := List.mem_filter.1 hq
      exact (hmemKeys bucket).2 ((hhas q hq bucket (of_decide_eq_true hfloor) hstart hend).imp
        And.right And.right)
  case closed =>
    intro c hc
    obtain ⟨⟨ms, hbucket⟩, -⟩ := hcandle c (hperm.mem_iff.1 hc)
    exact ⟨hbucket.symbol_eq, hbucket.timeframe_eq, hbucket.closeTime_eq, hbucket.closed_eq⟩
  case aggregate => exact fun c hc => (hcandle c (hperm.mem_iff.1 hc)).2.2.2

/-- The overlay does not fail when the symbol and the limit are valid. -/
theorem overlay_eq_ok (cfg : Settings) (clock : Timestamp) (timeframe : CandleTimeframe)
    (hot : CandleSeries) (hsymbol : symbolOk archive.symbol = true) (hpos : 1 ≤ limit)
    (hle : limit ≤ 1000) :
    ∃ series, overlay cfg clock timeframe limit hot archive = .ok series ∧
      series.data = takeLast limit.toNat ((overlayOn Candle.openTime
        (fun c => authoritativeHotStart cfg clock timeframe ≤ c.openTime)
        (archive.data.foldl (putOn Candle.openTime) []) hot.data).insertionSort
          fun a b => a.openTime ≤ b.openTime) := by
  have hret : ¬ (cfg.candleArchiveRetentionSeconds : ℤ) ≤ 0 := by
    have := cfg.candleArchiveRetention_pos
    omega
  unfold overlay CandleSeries.validate
  dsimp only
  rw [if_neg (by simp [hsymbol]), if_neg (by omega), if_neg hret]
  exact ⟨_, rfl, rfl⟩

/-- When both layers answer, `get_candles` returns the candle of each closed bucket of the window
with an accepted quote, and each is the aggregate of all the quotes of its bucket: the hot store has
been read no later than the start of the authoritative buckets is computed, and the archive holds
all the quotes of the buckets before. -/
theorem getCandles_overlay (upper : String → String) (cfg : Settings) (accepted : List QuoteEvent)
    (t : CandleTable) (symbol : String) (timeframe : CandleTimeframe) (limit : ℤ)
    («end» clock startedAt : Timestamp) (seen : List QuoteEvent)
    (reads : List (Timestamp × HotKeys)) (hot archive : CandleSeries)
    (hhot : ∀ x ∈ reads, HotLayer cfg accepted x.1 x.2 ∧ x.1 ≤ clock)
    (hlayer : ArchiveLayer accepted (symbolRows t (upper symbol)) timeframe
      (authoritativeHotStart cfg clock timeframe))
    (hread : getResult cfg (upper symbol) ⟨timeframe, limit, «end», startedAt, seen, .start⟩ reads =
      some (.ok hot))
    (hget : Archive.getCandles upper cfg t symbol timeframe limit «end» = .ok archive) :
    ∃ start series, historyWindow timeframe limit «end» = .ok (start, «end») ∧
      getCandles cfg clock timeframe limit (.ok hot) (some (.ok archive)) = .ok series ∧
      CandlesOf accepted (upper symbol) timeframe limit start «end» series.data := by
  have hbegin : ReadOk cfg (upper symbol) accepted clock
      ⟨timeframe, limit, «end», startedAt, seen, .start⟩ := trivial
  obtain ⟨start, effectiveEnd, base, hwindow, hbase, hagg⟩ := readOk_getResult hbegin hhot hread
  dsimp only at hwindow hagg
  obtain ⟨-, rfl⟩ := historyWindow_aligned hwindow
  -- The hot series is the series of the minute candles that the call has read.
  obtain ⟨cs, hcs, hspec⟩ := aggregateBaseCandles_spec (upper symbol)
    cfg.candleHistoryRetentionSeconds hwindow fun m hm =>
    placed_of_aggregates (hbase.aggregates m hm)
  rw [takeLast_eq_self (length_le_of_window hwindow hcs.sorted fun c hc => hcs.room hc)] at hspec
  obtain ⟨hhotEq, hsymbol, hpos, hle⟩ := validate_eq_ok (hspec.symm.trans hagg)
  have hhotSeries : SeriesOf (upper symbol) timeframe start effectiveEnd base hot.data := by
    rw [hhotEq]
    exact hcs
  -- The archive's series is that of its rows.
  have hplaced : ∀ r ∈ symbolRows t (upper symbol), r.Placed := fun r hr => by
    obtain ⟨qs, -, hfold⟩ := hlayer.stored r hr
    exact placed_of_aggregates (aggregates_of_foldQuotes hfold)
  obtain ⟨cs', hcs', hspec'⟩ := Archive.getCandles_spec cfg hwindow hplaced
  rw [takeLast_eq_self (length_le_of_window hwindow hcs'.sorted fun c hc => hcs'.room hc)] at hspec'
  obtain ⟨harchiveEq, -⟩ := validate_eq_ok (hspec'.symm.trans hget)
  have harchiveSeries : SeriesOf (upper symbol) timeframe start effectiveEnd
      (symbolRows t (upper symbol)) archive.data := by
    rw [harchiveEq]
    exact hcs'
  have hrows : ((symbolRows t (upper symbol)).map BaseMinuteCandle.openTime).Nodup :=
    List.Nodup.map_on (fun m hm m' hm' => openTime_injOn_symbolRows t _ hm hm')
      ((List.Nodup.of_map _ t.pk).filter _)
  have harchiveSymbol : symbolOk archive.symbol = true := by
    rw [harchiveEq]
    exact hsymbol
  obtain ⟨series, hseries, hdata⟩ := overlay_eq_ok cfg clock timeframe hot harchiveSymbol hpos hle
  refine ⟨start, series, hwindow, hseries, ?_⟩
  rw [hdata]
  exact candlesOf_overlay hwindow hbase hhotSeries hlayer hrows harchiveSeries

/-- Ten minutes of hot history. -/
def tenMinutes : Settings := .retaining 600 (by decide)

/-- A quote beyond retention, and one within. -/
def twoQuotes : List QuoteEvent :=
  [.sample 1 (60 * second) 4, .sample 2 (1860 * second) 6]

/-- The hot store holds the second one. -/
def recentKeys : HotKeys :=
  HotKeys.empty.commit tenMinutes (1900 * second) (.sample 2 (1860 * second) 6)
    (1900 * second) (.fromQuote (.sample 2 (1860 * second) 6))

/-- The archive holds the first one. -/
def oldTable : CandleTable :=
  CandleTable.empty.put (.fromQuote (.sample 1 (60 * second) 4))

/-- The recent keys are what the hot layer has of the two quotes. -/
theorem hotLayer_recentKeys : HotLayer tenMinutes twoQuotes (2000 * second) recentKeys := by
  constructor
  case scored => exact ((SortedSet.scoredBy_empty _).zadd _).keep _
  case stored =>
    intro m cell hval
    have hfold : FoldOf (.fromQuote (.sample 2 (1860 * second) 6))
        (minuteQuotes (1860 * second) twoQuotes) := ⟨_, .refl _, rfl⟩
    by_cases hm : m = 1860 * second
    · subst hm
      obtain rfl := Option.some.inj hval
      exact hfold
    · rw [show recentKeys.candles.value m = none from Function.update_of_ne hm _ _] at hval
      cases hval
  case present =>
    intro m hm hdeadline
    obtain ⟨q, hq⟩ := List.exists_mem_of_ne_nil _ hm
    obtain ⟨hin, hminute⟩ := List.mem_filter.1 hq
    obtain rfl : minuteOf q = m := of_decide_eq_true hminute
    simp only [twoQuotes, List.mem_cons, List.not_mem_nil, or_false] at hin
    rcases hin with rfl | rfl
    · -- The first quote is beyond retention.
      exact absurd hdeadline (by decide)
    · exact ⟨by decide, rfl⟩

/-- The old table is what the archive has of the two quotes. -/
theorem archiveLayer_oldTable : ArchiveLayer twoQuotes (symbolRows oldTable (id "AAPL")) .oneMinute
    (authoritativeHotStart tenMinutes (2000 * second) .oneMinute) := by
  have hrows : symbolRows oldTable (id "AAPL") = [.fromQuote (.sample 1 (60 * second) 4)] := rfl
  rw [hrows]
  constructor
  case stored =>
    intro r hr
    obtain rfl := List.mem_singleton.1 hr
    exact ⟨[.sample 1 (60 * second) 4], by simp [twoQuotes], rfl⟩
  case complete =>
    intro q hq hbucket
    simp only [twoQuotes, List.mem_cons, List.not_mem_nil, or_false] at hq
    rcases hq with rfl | rfl
    · exact ⟨_, List.mem_singleton_self _, _, .refl _, rfl⟩
    · -- The second quote is in a bucket of the hot store.
      exact absurd hbucket (by decide)

/-- One candle comes from each layer. -/
theorem getCandles_overlay_twoQuotes : ∃ hot archive start series,
    getCandles tenMinutes (2000 * second) .oneMinute 100 (.ok hot)
    (some (.ok archive)) = .ok series ∧
      (hot.data.length = 1 ∧ archive.data.length = 1) ∧
      CandlesOf twoQuotes "AAPL" .oneMinute 100 start (2000 * second) series.data := by
  have hread : ∃ hot, getResult tenMinutes (id "AAPL")
      ⟨.oneMinute, 100, 2000 * second, 0, [], .start⟩
      (List.replicate 4 (2000 * second, recentKeys)) = some (.ok hot) ∧ hot.data.length = 1 := by
    exact ⟨_, rfl, rfl⟩
  have hget : ∃ archive, Archive.getCandles id tenMinutes oldTable "AAPL" .oneMinute 100
      (2000 * second) = .ok archive ∧ archive.data.length = 1 := by
    exact ⟨_, rfl, rfl⟩
  obtain ⟨hot, hread, hhot⟩ := hread
  obtain ⟨archive, hget, harchive⟩ := hget
  have hlayers : ∀ x ∈ List.replicate 4 (2000 * second, recentKeys),
      HotLayer tenMinutes twoQuotes x.1 x.2 ∧ x.1 ≤ 2000 * second := by
    intro x hx
    obtain rfl := List.eq_of_mem_replicate hx
    exact ⟨hotLayer_recentKeys, le_refl _⟩
  obtain ⟨start, series, -, hseries, hcandles⟩ :=
    getCandles_overlay id tenMinutes twoQuotes oldTable
    "AAPL" .oneMinute 100 (2000 * second) (2000 * second) 0 [] _ hot archive hlayers
    archiveLayer_oldTable hread hget
  exact ⟨hot, archive, start, series, hseries, ⟨hhot, harchive⟩, hcandles⟩

end Overlay

end MarketDataGateway.Hybrid

import MarketDataGateway.Hot.CacheQuote

/-!
# `get_candles`

`RedisStore.get_candles` of `storage.py` as a process: it trims the index, lists the minutes of its
window, reads their candles, removes from the index the minutes whose candle is gone, and
aggregates what it has read. Between two of its commands, any other process may take steps.

`getStep_inv` says that a call keeps what holds of the keys. What it returns depends on what it has
found. `Reads` says that the minute candles that a call has read are, for each bucket that is
settled, either none or all those of the bucket (`WholeBucket`). That is so if no such bucket is in
part gone when the call reads it (`WholeAtMget`).
-/

namespace MarketDataGateway.Hot

open Lib

/-- The program counter of a call of `get_candles`: the next command. -/
inductive GetPc
  /-- The call computes its window and reads the clock. -/
  | start
  /-- `ZREMRANGEBYSCORE`. -/
  | trim (start effectiveEnd now : Timestamp)
  /-- `ZRANGEBYSCORE`. -/
  | range (start effectiveEnd : Timestamp)
  /-- `MGET` of the keys of the minutes `epochs`. -/
  | mget (start effectiveEnd : Timestamp) (epochs : List Timestamp)
  /-- `ZREM` of the minutes `missing`. -/
  | zrem (effectiveEnd : Timestamp) (missing : List Timestamp) (base : List BaseMinuteCandle)
  /-- The call has returned, or raised. -/
  | returned (result : Except PyError CandleSeries)
  deriving DecidableEq

/-- A call of `get_candles`, for the symbol of the keys. -/
structure GetCall where
  /-- `timeframe`. -/
  timeframe : CandleTimeframe
  /-- `limit`. -/
  limit : ℤ
  /-- `end`. -/
  «end» : Timestamp
  /-- The time at which the call began. The call does not read it. -/
  startedAt : Timestamp
  /-- The quotes that transactions had taken in by then. The call does not read them. -/
  seen : List QuoteEvent
  /-- The program counter. -/
  pc : GetPc

/-- The result of a call that has read the minute candles `base`. -/
def GetCall.finish (cfg : Settings) (symbol : Symbol) (g : GetCall) (effectiveEnd : Timestamp)
    (base : List BaseMinuteCandle) : GetPc :=
  .returned (aggregateBaseCandles symbol g.timeframe g.limit effectiveEnd
    cfg.candleHistoryRetentionSeconds base)

/-- The candles of the minutes `epochs`, those that are there. -/
def HotKeys.mget (keys : HotKeys) (epochs : List Timestamp) : List BaseMinuteCandle :=
  epochs.filterMap fun m => (keys.candles.value m).map fun cell => cell.value.candle

/-- One step of `get_candles`, at the time `clock`. -/
def getStep (cfg : Settings) (symbol : Symbol) (clock : Timestamp) (keys : HotKeys)
    (g : GetCall) : Option (HotKeys × GetPc) :=
  match g.pc with
  | .start =>
    match historyWindow g.timeframe g.limit g.end with
    | .error err => some (keys, .returned (.error err))
    | .ok (start, effectiveEnd) => some (keys, .trim start effectiveEnd clock)
  | .trim start effectiveEnd now =>
    some (keys.putIndex (keys.index.zremrangebyscore (expiredBucketScore cfg now)),
      .range start effectiveEnd)
  | .range start effectiveEnd =>
    let epochs := keys.index.zrangebyscore start effectiveEnd
    -- Without minutes there is no `MGET`.
    if epochs = [] then some (keys, g.finish cfg symbol effectiveEnd [])
    else some (keys, .mget start effectiveEnd epochs)
  | .mget _ effectiveEnd epochs =>
    let base := keys.mget epochs
    let missing := epochs.filter fun m => (keys.candles.value m).isNone
    if missing = [] then some (keys, g.finish cfg symbol effectiveEnd base)
    else some (keys, .zrem effectiveEnd missing base)
  | .zrem effectiveEnd missing base =>
    some (keys.putIndex (keys.index.zremAll missing), g.finish cfg symbol effectiveEnd base)
  | .returned _ => none

/-! ## What a step does to the keys -/

/-- What holds of a call between its steps. -/
def GetOk (cfg : Settings) (clock : Timestamp) (keys : HotKeys) : GetPc → Prop
  | .trim _ _ now => now ≤ clock
  | .mget _ _ epochs => epochs.Nodup ∧ ∀ m ∈ epochs, keys.committedAt m ≠ []
  | .zrem _ missing _ => ∀ m ∈ missing, retentionDeadline cfg m ≤ clock
  | _ => True

section Keys

variable {cfg : Settings} {symbol : Symbol} {clock clock' : Timestamp} {keys keys' : HotKeys}
  {g : GetCall} {pc pc' : GetPc} {m : Timestamp}

/-- A minute with a quote keeps it. -/
theorem Evolves.committedAt_ne_nil (h : Evolves keys keys') (hm : keys.committedAt m ≠ []) :
    keys'.committedAt m ≠ [] := by
  obtain ⟨q, hq⟩ := List.exists_mem_of_ne_nil _ hm
  obtain ⟨hq, hminute⟩ := List.mem_filter.1 hq
  exact List.ne_nil_of_mem (List.mem_filter.2 ⟨h.committed_suffix.subset hq, hminute⟩)

/-- What holds of a call is kept by the steps of others, and by time. -/
theorem GetOk.mono (h : GetOk cfg clock keys pc) (hkeys : Evolves keys keys')
    (hclock : clock ≤ clock') : GetOk cfg clock' keys' pc := by
  cases pc with
  | trim start effectiveEnd now => exact le_trans h hclock
  | mget start effectiveEnd epochs =>
    exact ⟨h.1, fun m hm => hkeys.committedAt_ne_nil (h.2 m hm)⟩
  | zrem effectiveEnd missing base => exact fun m hm => (h m hm).trans hclock
  | start => trivial
  | range start effectiveEnd => trivial
  | returned result => trivial

/-- A minute of the index whose key is gone is beyond retention. -/
theorem KeysInv.deadline_le_of_missing (h : KeysInv cfg symbol clock keys)
    (hm : keys.committedAt m ≠ []) (hnone : (keys.candles.value m).isNone) :
    retentionDeadline cfg m ≤ clock := by
  apply h.deadline_le
  by_contra hlost
  have hcomplete := h.complete m (Bool.eq_false_iff.2 hlost)
  rw [HotKeys.quotesAt, Option.isNone_iff_eq_none.1 hnone] at hcomplete
  exact hm hcomplete.symm

/-- A step of a call keeps what holds of the keys and of the call, and changes the index only. -/
theorem getStep_inv (h : KeysInv cfg symbol clock keys) (hok : GetOk cfg clock keys g.pc)
    (hstep : getStep cfg symbol clock keys g = some (keys', pc')) :
    KeysInv cfg symbol clock keys' ∧ GetOk cfg clock keys' pc' ∧
      keys'.candles = keys.candles ∧ keys'.committed = keys.committed := by
  unfold getStep at hstep
  cases hpc : g.pc with
  | start =>
    simp only [hpc] at hstep
    split at hstep
    · obtain ⟨rfl, rfl⟩ := Prod.mk.inj (Option.some.inj hstep)
      exact ⟨h, trivial, rfl, rfl⟩
    · obtain ⟨rfl, rfl⟩ := Prod.mk.inj (Option.some.inj hstep)
      exact ⟨h, le_refl _, rfl, rfl⟩
  | trim start effectiveEnd now =>
    simp only [hpc] at hstep hok
    obtain ⟨rfl, rfl⟩ := Prod.mk.inj (Option.some.inj hstep)
    refine ⟨h.putIndex _ fun m hm hlt => ?_, trivial, rfl, rfl⟩
    -- A minute within retention is not trimmed.
    refine h.index_score.mem_zremrangebyscore.2 ⟨hm, ?_⟩
    rw [← not_le, le_expiredBucketScore_iff, not_le]
    exact lt_of_le_of_lt hok hlt
  | range start effectiveEnd =>
    simp only [hpc] at hstep
    split_ifs at hstep
    · obtain ⟨rfl, rfl⟩ := Prod.mk.inj (Option.some.inj hstep)
      exact ⟨h, trivial, rfl, rfl⟩
    · obtain ⟨rfl, rfl⟩ := Prod.mk.inj (Option.some.inj hstep)
      refine ⟨h, ⟨SortedSet.zrangebyscore_nodup _ _ _, fun m hm => ?_⟩, rfl, rfl⟩
      exact h.index_committed m (h.index_score.mem_zrangebyscore.1 hm).1
  | mget start effectiveEnd epochs =>
    simp only [hpc] at hstep hok
    split_ifs at hstep
    · obtain ⟨rfl, rfl⟩ := Prod.mk.inj (Option.some.inj hstep)
      exact ⟨h, trivial, rfl, rfl⟩
    · obtain ⟨rfl, rfl⟩ := Prod.mk.inj (Option.some.inj hstep)
      refine ⟨h, fun m hm => ?_, rfl, rfl⟩
      obtain ⟨hm, hnone⟩ := List.mem_filter.1 hm
      exact h.deadline_le_of_missing (hok.2 m hm) hnone
  | zrem effectiveEnd missing base =>
    simp only [hpc] at hstep hok
    obtain ⟨rfl, rfl⟩ := Prod.mk.inj (Option.some.inj hstep)
    refine ⟨h.putIndex _ fun m hm hlt => ?_, trivial, rfl, rfl⟩
    -- A minute within retention is not missing.
    obtain ⟨e, he, rfl⟩ := SortedSet.mem_def.1 hm
    refine SortedSet.mem_keep.2 ⟨e, he, ?_, rfl⟩
    exact decide_eq_true fun hmissing => absurd hlt (not_lt.2 (hok e.1 hmissing))
  | returned result =>
    simp only [hpc] at hstep
    cases hstep

end Keys

/-! ## What a call reads -/

/-- The bucket had ended when the call began, and no quote of it has been taken in since. -/
def GetCall.Settled (g : GetCall) (bucket : Timestamp) (committed : List QuoteEvent) : Prop :=
  bucket + timeframeSeconds g.timeframe * second ≤ g.startedAt ∧
    bucketQuotes g.timeframe bucket g.seen = bucketQuotes g.timeframe bucket committed

instance (g : GetCall) (bucket : Timestamp) (committed : List QuoteEvent) :
    Decidable (g.Settled bucket committed) :=
  inferInstanceAs (Decidable (_ ∧ _))

/-- If some minute of a settled bucket of the call's window is listed and has its key, then every
minute of the bucket with a quote is listed, and has a key that has never expired. -/
def WholeAtMget (keys : HotKeys) (g : GetCall) : Prop :=
  match g.pc with
  | .mget start effectiveEnd epochs =>
    ∀ m ∈ epochs, (keys.candles.value m).isSome →
      let bucket := floorTime m (timeframeSeconds g.timeframe)
      start ≤ bucket → bucket + timeframeSeconds g.timeframe * second ≤ effectiveEnd →
        g.Settled bucket keys.committed →
          ∀ q ∈ bucketQuotes g.timeframe bucket keys.committed,
            minuteOf q ∈ epochs ∧ keys.lost (minuteOf q) = false
  | _ => True

instance (keys : HotKeys) (g : GetCall) : Decidable (WholeAtMget keys g) := by
  unfold WholeAtMget
  split
  · next epochs _ => exact @List.decidableBAll _ _ (fun _ => instDecidableForall) epochs
  · infer_instance

/-- The minute candles `base` are, for each bucket of the window that was settled when they were
read, none or all those of the bucket. -/
def Reads (g : GetCall) (start effectiveEnd : Timestamp) (base : List BaseMinuteCandle)
    (committed : List QuoteEvent) : Prop :=
  ∃ mid, g.seen <:+ mid ∧ mid <:+ committed ∧ ∀ bucket, start ≤ bucket →
    bucket + timeframeSeconds g.timeframe * second ≤ effectiveEnd → g.Settled bucket mid →
    bucketMinutes g.timeframe bucket base ≠ [] →
    WholeBucket (bucketMinutes g.timeframe bucket base) (bucketQuotes g.timeframe bucket mid)

section Read

variable {cfg : Settings} {symbol : Symbol} {clock : Timestamp} {keys : HotKeys} {g : GetCall}
  {start effectiveEnd : Timestamp} {epochs : List Timestamp} {base : List BaseMinuteCandle}
  {b : BaseMinuteCandle} {m : Timestamp}

/-- The candle stored under a minute starts at the minute. -/
theorem KeysInv.openTime_eq (h : KeysInv cfg symbol clock keys) {cell : CandleKey}
    (hval : keys.candles.value m = some cell) : cell.value.candle.openTime = m := by
  obtain ⟨q, hq⟩ := List.exists_mem_of_ne_nil _ cell.value.aggregates.summary.ne_nil
  have hq' : q ∈ keys.committedAt m := by
    refine (h.stored m).subset ?_
    rw [HotKeys.quotesAt, hval]
    exact hq
  have hminute : minuteOf q = m := of_decide_eq_true (List.mem_filter.1 hq').2
  rw [← hminute]
  exact (cell.value.aggregates.covers q hq).2.symm

/-- What `MGET` reads. -/
theorem mem_mget : b ∈ keys.mget epochs ↔
    ∃ m ∈ epochs, ∃ cell, keys.candles.value m = some cell ∧ cell.value.candle = b := by
  simp only [HotKeys.mget, List.mem_filterMap, Option.map_eq_some_iff]

/-- When the keys hold candles of their own minutes, `MGET` reads at most one a minute. -/
theorem sublist_mget (h : ∀ m cell, keys.candles.value m = some cell →
    cell.value.candle.openTime = m) (epochs : List Timestamp) :
    ((keys.mget epochs).map BaseMinuteCandle.openTime).Sublist epochs := by
  unfold HotKeys.mget
  induction epochs with
  | nil => exact List.Sublist.refl _
  | cons m epochs ih =>
    cases hval : keys.candles.value m with
    | none =>
      rw [List.filterMap_cons_none (by rw [hval]; rfl)]
      exact ih.cons m
    | some cell =>
      rw [List.filterMap_cons_some (by rw [hval]; rfl), List.map_cons, h m cell hval]
      exact ih.cons_cons m

/-- `MGET` reads one candle a minute. -/
theorem KeysInv.mget_nodup (h : KeysInv cfg symbol clock keys) (hnodup : epochs.Nodup) :
    ((keys.mget epochs).map BaseMinuteCandle.openTime).Nodup :=
  hnodup.sublist (sublist_mget (fun _ _ hval => h.openTime_eq hval) epochs)

/-- A stored candle whose key has never expired is folded from all the quotes of its minute. -/
theorem KeysInv.folds_of_not_lost (h : KeysInv cfg symbol clock keys) {cell : CandleKey}
    (hval : keys.candles.value m = some cell) (hlost : keys.lost m = false) :
    foldQuotes (minuteQuotes m keys.committed).reverse = .ok (some cell.value.candle) := by
  have hcomplete := h.complete m hlost
  rw [HotKeys.quotesAt, hval] at hcomplete
  rw [← HotKeys.committedAt, ← hcomplete]
  exact cell.value.folds

/-- A call that finds no bucket in part gone reads whole buckets. -/
theorem reads_mget (h : KeysInv cfg symbol clock keys) (hnodup : epochs.Nodup)
    (hpc : g.pc = .mget start effectiveEnd epochs) (hwhole : WholeAtMget keys g)
    (hseen : g.seen <:+ keys.committed) :
    Reads g start effectiveEnd (keys.mget epochs) keys.committed := by
  refine ⟨keys.committed, hseen, List.suffix_refl _, fun bucket hstart hend hsettled hne => ?_⟩
  -- Some minute of the bucket is listed and has its key, so no minute is missing.
  have hall : ∀ q ∈ bucketQuotes g.timeframe bucket keys.committed,
      minuteOf q ∈ epochs ∧ keys.lost (minuteOf q) = false := by
    obtain ⟨b, hb⟩ := List.exists_mem_of_ne_nil _ hne
    obtain ⟨hb, hbucket⟩ := List.mem_filter.1 hb
    obtain ⟨m, hm, cell, hval, rfl⟩ := mem_mget.1 hb
    have hbucket : floorTime m (timeframeSeconds g.timeframe) = bucket := by
      rw [← h.openTime_eq hval]
      exact of_decide_eq_true hbucket
    simp only [WholeAtMget, hpc] at hwhole
    have hsome : (keys.candles.value m).isSome := by rw [hval]; rfl
    rw [← hbucket] at hstart hend hsettled ⊢
    exact hwhole m hm hsome hstart hend hsettled
  constructor
  case nodup =>
    exact (h.mget_nodup hnodup).sublist (List.filter_sublist.map _)
  case folds =>
    intro b hb
    obtain ⟨hb, hbucket⟩ := List.mem_filter.1 hb
    obtain ⟨m, hm, cell, hval, rfl⟩ := mem_mget.1 hb
    have hopen := h.openTime_eq hval
    rw [hopen] at hbucket ⊢
    have hbucket : floorTime m (timeframeSeconds g.timeframe) = bucket :=
      of_decide_eq_true hbucket
    -- The candle has a quote, which has been taken in.
    obtain ⟨q, hq⟩ := List.exists_mem_of_ne_nil _ cell.value.aggregates.summary.ne_nil
    have hq' : q ∈ keys.committedAt m := by
      refine (h.stored m).subset ?_
      rw [HotKeys.quotesAt, hval]
      exact hq
    have hminute : minuteOf q = m := of_decide_eq_true (List.mem_filter.1 hq').2
    have hlost : keys.lost m = false := by
      rw [← hminute]
      refine (hall q (List.mem_filter.2 ⟨(List.mem_filter.1 hq').1, decide_eq_true ?_⟩)).2
      rw [← floorTime_minuteOf, hminute, hbucket]
    rw [← hbucket, minuteQuotes_bucketQuotes]
    exact h.folds_of_not_lost hval hlost
  case cover =>
    -- A quote of the bucket is in the candle of its minute, which has been read.
    intro q hq
    obtain ⟨hlisted, hlost⟩ := hall q hq
    obtain ⟨hq, hbucket⟩ := List.mem_filter.1 hq
    have hbucket := of_decide_eq_true hbucket
    have hcomplete := h.complete _ hlost
    have hmem : q ∈ keys.committedAt (minuteOf q) :=
      List.mem_filter.2 ⟨hq, decide_eq_true rfl⟩
    cases hval : keys.candles.value (minuteOf q) with
    | none =>
      rw [HotKeys.quotesAt, hval] at hcomplete
      rw [← hcomplete] at hmem
      exact absurd hmem List.not_mem_nil
    | some cell =>
      have hopen := h.openTime_eq hval
      refine ⟨cell.value.candle, List.mem_filter.2 ⟨mem_mget.2 ⟨_, hlisted, cell, hval, rfl⟩, ?_⟩,
        hopen⟩
      rw [hopen, floorTime_minuteOf]
      exact decide_eq_true hbucket

/-- Reading nothing is reading none of each bucket. -/
theorem reads_nil (start effectiveEnd : Timestamp) {committed : List QuoteEvent}
    (hseen : g.seen <:+ committed) : Reads g start effectiveEnd [] committed :=
  ⟨committed, hseen, List.suffix_refl _, fun _ _ _ _ hne => absurd rfl hne⟩

/-- Quotes that are taken in later do not matter to what was read. -/
theorem Reads.mono {committed committed' : List QuoteEvent}
    (h : Reads g start effectiveEnd base committed) (hsuffix : committed <:+ committed') :
    Reads g start effectiveEnd base committed' := by
  obtain ⟨mid, hseen, hmid, hread⟩ := h
  exact ⟨mid, hseen, hmid.trans hsuffix, hread⟩

/-- The minutes that a call has read of a settled bucket, if any, are all those of the bucket. -/
theorem Reads.wholeBucket {committed : List QuoteEvent} {bucket : Timestamp}
    (h : Reads g start effectiveEnd base committed) (hstart : start ≤ bucket)
    (hend : bucket + timeframeSeconds g.timeframe * second ≤ effectiveEnd)
    (hsettled : g.Settled bucket committed) (hne : bucketMinutes g.timeframe bucket base ≠ []) :
    WholeBucket (bucketMinutes g.timeframe bucket base)
      (bucketQuotes g.timeframe bucket committed) := by
  obtain ⟨mid, hseen, hmid, hread⟩ := h
  obtain ⟨hended, hquiet⟩ := hsettled
  -- The quotes of the bucket at the time of reading are between those before and those after.
  have hlow : bucketQuotes g.timeframe bucket g.seen <:+ bucketQuotes g.timeframe bucket mid :=
    hseen.filter _
  have hhigh : bucketQuotes g.timeframe bucket mid <:+
      bucketQuotes g.timeframe bucket committed := hmid.filter _
  have heq : bucketQuotes g.timeframe bucket mid = bucketQuotes g.timeframe bucket committed := by
    refine hhigh.eq_of_length_le ?_
    rw [← hquiet]
    exact hlow.length_le
  rw [← heq]
  exact hread bucket hstart hend ⟨hended, hquiet.trans heq.symm⟩ hne

end Read

/-- What a call knows and has read: its window, and whole buckets. -/
def GetReads (cfg : Settings) (symbol : Symbol) (committed : List QuoteEvent) (g : GetCall) :
    Prop :=
  g.seen <:+ committed ∧
  match g.pc with
  | .start => True
  | .trim start effectiveEnd _ =>
    historyWindow g.timeframe g.limit g.end = .ok (start, effectiveEnd)
  | .range start effectiveEnd =>
    historyWindow g.timeframe g.limit g.end = .ok (start, effectiveEnd)
  | .mget start effectiveEnd _ =>
    historyWindow g.timeframe g.limit g.end = .ok (start, effectiveEnd)
  | .zrem effectiveEnd _ base =>
    ∃ start, historyWindow g.timeframe g.limit g.end = .ok (start, effectiveEnd) ∧
      Reads g start effectiveEnd base committed
  | .returned result => ∀ series, result = .ok series →
    ∃ start effectiveEnd base,
      historyWindow g.timeframe g.limit effectiveEnd = .ok (start, effectiveEnd) ∧
      aggregateBaseCandles symbol g.timeframe g.limit effectiveEnd
        cfg.candleHistoryRetentionSeconds base = .ok series ∧
      Reads g start effectiveEnd base committed

section GetReads

variable {cfg : Settings} {symbol : Symbol} {clock : Timestamp} {keys keys' : HotKeys}
  {committed committed' : List QuoteEvent} {g : GetCall} {pc' : GetPc} {c : Candle}
  {series : CandleSeries}

/-- What a call has read is kept by the steps of others. -/
theorem GetReads.mono (h : GetReads cfg symbol committed g) (hsuffix : committed <:+ committed') :
    GetReads cfg symbol committed' g := by
  obtain ⟨hseen, hpc⟩ := h
  refine ⟨hseen.trans hsuffix, ?_⟩
  cases hg : g.pc with
  | start => trivial
  | trim start effectiveEnd now =>
    simp only [hg] at hpc
    exact hpc
  | range start effectiveEnd =>
    simp only [hg] at hpc
    exact hpc
  | mget start effectiveEnd epochs =>
    simp only [hg] at hpc
    exact hpc
  | zrem effectiveEnd missing base =>
    simp only [hg] at hpc
    obtain ⟨start, hwindow, hreads⟩ := hpc
    exact ⟨start, hwindow, hreads.mono hsuffix⟩
  | returned result =>
    simp only [hg] at hpc
    intro series hseries
    obtain ⟨start, effectiveEnd, base, hwindow, hagg, hreads⟩ := hpc series hseries
    exact ⟨start, effectiveEnd, base, hwindow, hagg, hreads.mono hsuffix⟩

/-- A call that aggregates what it has read returns so. -/
theorem getReads_finish {start effectiveEnd : Timestamp} {base : List BaseMinuteCandle}
    (hseen : g.seen <:+ committed)
    (hwindow : historyWindow g.timeframe g.limit g.end = .ok (start, effectiveEnd))
    (hreads : Reads g start effectiveEnd base committed) :
    GetReads cfg symbol committed { g with pc := g.finish cfg symbol effectiveEnd base } := by
  obtain rfl : effectiveEnd = g.end := (historyWindow_aligned hwindow).2
  exact ⟨hseen, fun series hseries => ⟨start, g.end, base, hwindow, hseries, hreads⟩⟩

/-- A step of a call that finds no bucket in part gone. -/
theorem getStep_reads (h : KeysInv cfg symbol clock keys) (hok : GetOk cfg clock keys g.pc)
    (hreads : GetReads cfg symbol keys.committed g) (hwhole : WholeAtMget keys g)
    (hstep : getStep cfg symbol clock keys g = some (keys', pc')) :
    GetReads cfg symbol keys'.committed { g with pc := pc' } := by
  rw [(getStep_inv h hok hstep).2.2.2]
  obtain ⟨hseen, hpc⟩ := hreads
  unfold getStep at hstep
  cases hg : g.pc with
  -- The window is taken from the clock when the call begins.
  | start =>
    simp only [hg] at hstep
    split at hstep
    · obtain ⟨rfl, rfl⟩ := Prod.mk.inj (Option.some.inj hstep)
      exact ⟨hseen, fun series hseries => by cases hseries⟩
    · next start effectiveEnd hwindow =>
      obtain ⟨rfl, rfl⟩ := Prod.mk.inj (Option.some.inj hstep)
      exact ⟨hseen, hwindow⟩
  | trim start effectiveEnd now =>
    simp only [hg] at hstep hpc
    obtain ⟨rfl, rfl⟩ := Prod.mk.inj (Option.some.inj hstep)
    exact ⟨hseen, hpc⟩
  | range start effectiveEnd =>
    simp only [hg] at hstep hpc
    split_ifs at hstep
    · obtain ⟨rfl, rfl⟩ := Prod.mk.inj (Option.some.inj hstep)
      -- The index has no bucket of the window.
      exact getReads_finish hseen hpc (reads_nil _ _ hseen)
    · obtain ⟨rfl, rfl⟩ := Prod.mk.inj (Option.some.inj hstep)
      exact ⟨hseen, hpc⟩
  | mget start effectiveEnd epochs =>
    simp only [hg] at hstep hpc hok
    -- The buckets are read at once, and each of them is whole.
    have hread := reads_mget h hok.1 hg hwhole hseen
    split_ifs at hstep
    · obtain ⟨rfl, rfl⟩ := Prod.mk.inj (Option.some.inj hstep)
      exact getReads_finish hseen hpc hread
    · obtain ⟨rfl, rfl⟩ := Prod.mk.inj (Option.some.inj hstep)
      exact ⟨hseen, start, hpc, hread⟩
  | zrem effectiveEnd missing base =>
    simp only [hg] at hstep hpc
    obtain ⟨start, hwindow, hread⟩ := hpc
    obtain ⟨rfl, rfl⟩ := Prod.mk.inj (Option.some.inj hstep)
    exact getReads_finish hseen hwindow hread
  | returned result =>
    simp only [hg] at hstep
    cases hstep

/-- A candle that a call has returned for a settled bucket is that of all the minutes of the
bucket. -/
theorem GetReads.bucketOf (h : GetReads cfg symbol committed g)
    (hpc : g.pc = .returned (.ok series)) (hc : c ∈ series.data)
    (hsettled : g.Settled c.openTime committed) :
    ∃ ms, WholeBucket ms (bucketQuotes g.timeframe c.openTime committed) ∧
      BucketOf symbol g.timeframe c.openTime ms c := by
  obtain ⟨-, hreturned⟩ := h
  simp only [hpc] at hreturned
  obtain ⟨start, effectiveEnd, base, hwindow, hagg, hreads⟩ := hreturned series rfl
  have hmem := mem_closedCandles_of_aggregate hwindow hagg hc
  obtain ⟨hbucket, hstart, hend⟩ := bucketOf_of_mem_closedCandles hmem
  rw [hbucket.closeTime_eq] at hend
  obtain ⟨m, hm⟩ := hbucket.exists_mem
  exact ⟨_, hreads.wholeBucket hstart hend hsettled (List.ne_nil_of_mem hm), hbucket⟩

end GetReads

end MarketDataGateway.Hot

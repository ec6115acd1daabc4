import MarketDataGateway.Candles.Bucket
import MarketDataGateway.Lib.Watch
import MarketDataGateway.Lib.SortedSet

/-!
# The hot candle keys of a symbol

The Redis keys that `RedisStore` of `storage.py` keeps for one symbol: its latest quote, its minute
candles, each under a key of its own that is watched and expires, and the index of the minutes, a
sorted set that expires as a whole.

A stored candle comes with the quotes that it aggregates, which no command reads: `CandleValue`
carries the proof that it does, so that a candle that is not the candle of its quotes cannot be
stored.
-/

namespace MarketDataGateway.Hot

open Lib (SortedSet WatchedStore)

/-- A minute candle, with the quotes of which it is the candle. -/
structure CandleValue where
  /-- The candle. -/
  candle : BaseMinuteCandle
  /-- The quotes, the last one first. -/
  quotes : List QuoteEvent
  /-- The candle is what `from_quote` and `with_quote` have made of the quotes. -/
  folds : foldQuotes quotes.reverse = .ok (some candle)

/-- `BaseMinuteCandle.from_quote`. -/
def CandleValue.fromQuote (event : QuoteEvent) : CandleValue :=
  ⟨.fromQuote event, [event], rfl⟩

/-- `BaseMinuteCandle.with_quote`. -/
def CandleValue.withQuote (v : CandleValue) (event : QuoteEvent) : Except PyError CandleValue :=
  match h : v.candle.withQuote event with
  | .error err => .error err
  | .ok candle =>
    .ok ⟨candle, event :: v.quotes, by
      rw [List.reverse_cons, foldQuotes_append_singleton v.folds, h]
      rfl⟩

/-- What a key of a minute candle holds. -/
structure CandleKey where
  /-- The candle. -/
  value : CandleValue
  /-- When the key expires. -/
  expiresAt : Timestamp

/-- The keys of a symbol. -/
structure HotKeys where
  /-- `smdg:latest:<symbol>`. -/
  latest : Option QuoteEvent
  /-- `smdg:candles:data:v1:1m:<symbol>:<epoch>`, by the minute. -/
  candles : WatchedStore Timestamp CandleKey
  /-- `smdg:candles:index:v1:1m:<symbol>`, the minutes scored by their start. -/
  index : SortedSet Timestamp
  /-- When the key of the index expires. -/
  indexExpiresAt : Option Timestamp
  /-- The quotes that transactions have taken into candles, the last one first. Nothing reads
  them. -/
  committed : List QuoteEvent
  /-- The minutes whose key has expired at some time. Nothing reads them. -/
  lost : Timestamp → Bool
  /-- The minutes that were in the index when its key expired, and have not been added since.
  Nothing reads them. -/
  unlisted : Timestamp → Bool

/-- No key. -/
def HotKeys.empty : HotKeys where
  latest := none
  candles := .empty
  index := .empty
  indexExpiresAt := none
  committed := []
  lost _ := false
  unlisted _ := false

/-- `retention_deadline` of a minute. -/
def retentionDeadline (cfg : Settings) (minute : Timestamp) : Timestamp :=
  minute + 60 * second + cfg.retention

/-- `_expired_bucket_score`, at the time `now`. -/
def expiredBucketScore (cfg : Settings) (now : Timestamp) : Timestamp :=
  now - (cfg.candleHistoryRetentionSeconds + 60) * second

/-- `max(1, ceil((retention_deadline - now).total_seconds()))`. -/
def ttlSeconds (cfg : Settings) (minute now : Timestamp) : ℤ :=
  max 1 (-((now - retentionDeadline cfg minute) / second))

namespace HotKeys

variable (keys : HotKeys)

/-- Stores the index. The key of an empty index goes, with its time to live. -/
def putIndex (index : SortedSet Timestamp) : HotKeys :=
  { keys with
    index := index
    indexExpiresAt := if index.zcard = 0 then none else keys.indexExpiresAt }

/-- The transaction of `cache_quote`, executed at the time `clock`: `SET` of the latest quote and of
the candle, `ZADD`, `ZREMRANGEBYSCORE`, `EXPIRE`. `now` is the time that the call has read. -/
def commit (cfg : Settings) (clock : Timestamp) (event : QuoteEvent) (now : Timestamp)
    (value : CandleValue) : HotKeys :=
  let minute := minuteOf event
  let index := (keys.index.zadd minute minute).zremrangebyscore (expiredBucketScore cfg now)
  let ttl : ℤ := cfg.candleHistoryRetentionSeconds + 60
  { keys with
    latest := some event
    candles := keys.candles.put minute
      ⟨value, clock + ttlSeconds cfg minute now * second⟩
    index := index
    indexExpiresAt := if index.zcard = 0 then none else some (clock + ttl * second)
    committed := event :: keys.committed
    unlisted := Function.update keys.unlisted minute false }

/-- The keys after those whose time to live has ended at the time `clock` are gone. -/
def expire (clock : Timestamp) : HotKeys :=
  let indexGone := keys.indexExpiresAt.any (· ≤ clock)
  { keys with
    candles := keys.candles.retain fun cell => clock < cell.expiresAt
    index := if indexGone then .empty else keys.index
    indexExpiresAt := if indexGone then none else keys.indexExpiresAt
    lost := fun m => keys.lost m || (keys.candles.value m).any fun cell => cell.expiresAt ≤ clock
    unlisted := fun m => keys.unlisted m || (indexGone && decide (m ∈ keys.index)) }

end HotKeys

/-! ## What the times mean -/

section Times

variable {cfg : Settings} {minute now clock : Timestamp}

/-- A minute's index entry is expired when its retention deadline has come. -/
theorem le_expiredBucketScore_iff :
    minute ≤ expiredBucketScore cfg now ↔ retentionDeadline cfg minute ≤ now := by
  unfold expiredBucketScore retentionDeadline Settings.retention second
  constructor <;> intro h <;> lia

/-- A key set with the time to live that a call has computed lasts up to the retention deadline. -/
theorem retentionDeadline_le_expiry (hclock : now ≤ clock) :
    retentionDeadline cfg minute ≤ clock + ttlSeconds cfg minute now * second := by
  have hceil : now - retentionDeadline cfg minute ≥
      (now - retentionDeadline cfg minute) / second * second :=
    Int.ediv_mul_le _ (by decide)
  have hmax : -((now - retentionDeadline cfg minute) / second) ≤ ttlSeconds cfg minute now :=
    le_max_right _ _
  generalize ttlSeconds cfg minute now = ttl at hmax ⊢
  generalize (now - retentionDeadline cfg minute) / second = q at hceil hmax
  unfold second at hceil ⊢
  lia

end Times

/-! ## Candle values -/

/-- A stored candle is the candle of its quotes. -/
theorem CandleValue.aggregates (v : CandleValue) : v.candle.Aggregates v.quotes :=
  (aggregates_of_foldQuotes v.folds).perm (List.reverse_perm v.quotes)

/-- `with_quote` takes in the quote. -/
theorem CandleValue.withQuote_quotes {v v' : CandleValue} {event : QuoteEvent}
    (h : v.withQuote event = .ok v') : v'.quotes = event :: v.quotes := by
  unfold CandleValue.withQuote at h
  split at h
  · cases h
  · rw [← Except.ok.inj h]

/-- A candle of quotes of one symbol and minute takes in another such quote. -/
theorem CandleValue.exists_withQuote {v : CandleValue} {event : QuoteEvent}
    (h : ∀ q ∈ v.quotes, q.symbol = event.symbol ∧ minuteOf q = minuteOf event) :
    ∃ v', v.withQuote event = .ok v' := by
  obtain ⟨q, hq⟩ := List.exists_mem_of_ne_nil _ v.aggregates.summary.ne_nil
  obtain ⟨hsym, hmin⟩ := h q hq
  obtain ⟨hs, hm⟩ := v.aggregates.covers q hq
  have hcovers : v.candle.Covers event := ⟨hsym.symm.trans hs, hmin.symm.trans hm⟩
  unfold CandleValue.withQuote
  split
  · next err heq =>
    rw [hcovers.withQuote_eq] at heq
    cases heq
  · exact ⟨_, rfl⟩

end MarketDataGateway.Hot

import Mathlib.Data.Rat.Defs
import Mathlib.Algebra.Order.Ring.Rat
import Mathlib.Data.Prod.Lex
import Mathlib.Order.Fin.Basic
import Mathlib.Data.Int.Order.Basic
import Mathlib.Data.Nat.Cast.Order.Ring

/-!
# Quote events, settings, and errors

The data that the modelled services share: `QuoteEvent` of `domain/models.py` with the fields that
they read, and `Settings` of `config.py` with the ones that they use and their defaults.

Instants are exact: `Timestamp` counts microseconds since the Unix epoch, the resolution of Python's
`datetime` and of PostgreSQL's `TIMESTAMPTZ`, without bounds. Prices are rationals, since `Decimal`
comparisons are comparisons of values.
-/

namespace MarketDataGateway

/-- An instant, in microseconds since the Unix epoch. -/
abbrev Timestamp := ℤ

/-- The microseconds of a second. -/
abbrev second : ℤ := 1000000

/-- A symbol, as normalized by `QuoteEvent` and the commands: trimmed and in upper case. -/
abbrev Symbol := String

/-- A UUID. Its string has a fixed number of lowercase hexadecimal digits, with the hyphens at fixed
places, so UUIDs compare as strings as they do as numbers. -/
abbrev EventId := Fin (2 ^ 128)

instance neZeroEventId : @NeZero ℕ Zero.ofOfNat0 (2 ^ 128) := ⟨by decide⟩

/-- The exceptions that the modelled code raises by itself. -/
inductive PyError
  /-- `ValueError`. -/
  | valueError (message : String)
  /-- `pydantic.ValidationError`, at the named field. -/
  | validationError (field : String)
  /-- `KeyError`. -/
  | keyError (key : String)
  /-- `RuntimeError`. -/
  | runtimeError (message : String)
  /-- An error of the Redis client: the call failed, whether or not its command took effect. -/
  | redisError
  /-- `asyncpg.CheckViolationError`, at the named table. -/
  | checkViolation (table : String)
  /-- An error of the PostgreSQL client: the statement failed, whether or not it was committed. -/
  | databaseError
  deriving DecidableEq, Repr

/-- `QuoteEvent`: a validated quote. -/
structure QuoteEvent where
  /-- `event_id`. -/
  eventId : EventId
  /-- `symbol`. -/
  symbol : Symbol
  /-- `price`. -/
  price : ℚ
  /-- `price` is a `PositiveDecimal`. -/
  price_pos : 0 < price
  /-- `provider_timestamp`. -/
  providerTimestamp : Timestamp
  /-- `sequence`. -/
  sequence : Option ℕ
  /-- `provider`. -/
  provider : String
  deriving DecidableEq

/-- The pair `(provider_timestamp, str(event_id))` by which quotes are ordered. -/
def QuoteEvent.key (event : QuoteEvent) : Timestamp ×ₗ EventId :=
  toLex (event.providerTimestamp, event.eventId)

/-- A quote of the symbol `"AAPL"` without a sequence, for concrete runs. Its price is at least
one. -/
def QuoteEvent.sample (eventId : EventId) (providerTimestamp : Timestamp) (price : ℕ) :
    QuoteEvent where
  eventId := eventId
  symbol := "AAPL"
  price := (max 1 price : ℕ)
  price_pos := Nat.cast_pos.2 (lt_max_of_lt_left one_pos)
  providerTimestamp := providerTimestamp
  sequence := none
  provider := "sample"

/-- Quotes with distinct event ids have distinct keys. -/
theorem QuoteEvent.eventId_eq_of_key_eq {e e' : QuoteEvent} (h : e.key = e'.key) :
    e.eventId = e'.eventId := congrArg (fun k => (ofLex k).2) h

/-- The order of keys is that of the provider timestamps where these differ. -/
theorem QuoteEvent.key_lt_of_timestamp_lt {e e' : QuoteEvent}
    (h : e.providerTimestamp < e'.providerTimestamp) : e.key < e'.key :=
  Prod.Lex.toLex_lt_toLex.2 (Or.inl h)

/-- The order of keys refines that of the provider timestamps. -/
theorem QuoteEvent.timestamp_le_of_key_le {e e' : QuoteEvent} (h : e.key ≤ e'.key) :
    e.providerTimestamp ≤ e'.providerTimestamp := by
  by_contra hlt
  exact absurd (QuoteEvent.key_lt_of_timestamp_lt (not_le.1 hlt)) (not_lt.2 h)

/-- `Settings`, with the defaults of `config.py`. -/
structure Settings where
  /-- `retry_limit`. -/
  retryLimit : ℤ := 3
  /-- `dedupe_ttl_seconds`. -/
  dedupeTtlSeconds : ℤ := 3600
  /-- `candle_history_retention_seconds`. -/
  candleHistoryRetentionSeconds : ℕ := 30 * 24 * 60 * 60
  /-- `Field(gt=0)`. -/
  candleHistoryRetention_pos : 0 < candleHistoryRetentionSeconds := by decide
  /-- `candle_update_retry_limit`. -/
  candleUpdateRetryLimit : ℕ := 8
  /-- `Field(ge=1)`. -/
  candleUpdateRetryLimit_pos : 1 ≤ candleUpdateRetryLimit := by decide
  /-- `candle_archive_retention_seconds`. -/
  candleArchiveRetentionSeconds : ℕ := 5 * 365 * 24 * 60 * 60
  /-- `Field(gt=0)`. -/
  candleArchiveRetention_pos : 0 < candleArchiveRetentionSeconds := by decide
  /-- `candle_archive_claim_idle_ms`. -/
  candleArchiveClaimIdleMs : ℕ := 30000
  /-- `Field(ge=1)`. -/
  candleArchiveClaimIdleMs_pos : 1 ≤ candleArchiveClaimIdleMs := by decide
  /-- `subscription_grace_seconds`, in microseconds. -/
  subscriptionGrace : ℤ := 3 * second
  /-- `subscription_ttl_seconds`. -/
  subscriptionTtlSeconds : ℤ := 60

instance inhabitedSettings : Inhabited Settings := ⟨{}⟩

/-- The default settings, but for the retention of minute candles. -/
def Settings.retaining (seconds : ℕ) (h : 0 < seconds) : Settings :=
  { candleHistoryRetentionSeconds := seconds, candleHistoryRetention_pos := h }

/-- The retention of minute candles, in microseconds. -/
def Settings.retention (cfg : Settings) : ℤ := cfg.candleHistoryRetentionSeconds * second

end MarketDataGateway

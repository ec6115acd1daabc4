import MarketDataGateway.Hot.CacheQuote

/-!
# What the quote processors share

The keys and streams of Redis that `QuoteProcessor` of `pipeline.py` works with, and the commands
that it sends: the quote stream with its consumer group and the group's pending entries, the dedupe
keys, the sequence and health keys, the hot keys of each symbol, the pub/sub channel, the retry
counters, and the dead-letter stream.

Some fields only record what has happened: which executions have got past `accept_event_once`, which
have cached or completed, which dedupe keys have expired. No command reads them.
-/

namespace MarketDataGateway.Pipeline

open Hot (HotKeys)

/-- The fields of an entry of the quote stream, as `_process_one` finds them. -/
inductive Fields
  /-- There is no `payload`. -/
  | missing
  /-- The payload is no `QuoteEvent`: the named field fails validation. -/
  | malformed (field : String)
  /-- The payload of a valid event. -/
  | quote (event : QuoteEvent)
  deriving DecidableEq

/-- `QuoteEvent.model_validate_json(fields["payload"])`. -/
def Fields.parse : Fields → Except PyError QuoteEvent
  | .missing => .error (.keyError "payload")
  | .malformed field => .error (.validationError field)
  | .quote event => .ok event

/-- A value that expires. -/
structure Expiring (ν : Type) where
  /-- The value. -/
  value : ν
  /-- When its key expires. -/
  expiresAt : Timestamp

/-- The keys that are left at the time `clock`. -/
def expireKeys {κ ν : Type} (clock : Timestamp) (keys : κ → Option (Expiring ν)) :
    κ → Option (Expiring ν) :=
  fun k => (keys k).filter fun v => clock < v.expiresAt

/-- `GapObservation`. -/
structure GapObservation where
  /-- `symbol`. -/
  symbol : Symbol
  /-- `previous_sequence`. -/
  previousSequence : ℕ
  /-- `current_sequence`. -/
  currentSequence : ℕ
  /-- `gap`. -/
  gap : ℕ
  /-- `out_of_order`. -/
  outOfOrder : Bool

/-- What `_process_one` stores about a sequence anomaly. -/
structure StreamHealth where
  /-- `status`. -/
  status : String := "degraded"
  /-- `kind`. -/
  kind : String
  /-- `previous_sequence`. -/
  previousSequence : ℕ
  /-- `current_sequence`. -/
  currentSequence : ℕ
  /-- `gap`. -/
  gap : ℕ
  /-- `observed_at`. -/
  observedAt : Timestamp

/-- An entry of the dead-letter stream. -/
structure DeadLetter where
  /-- `source_id`. -/
  sourceId : ℕ
  /-- `payload`. -/
  payload : Fields
  /-- `error`. -/
  error : PyError
  /-- `retry_count`. -/
  retryCount : ℕ
  /-- `failed_at`. -/
  failedAt : Timestamp

/-- An execution of `_process_one` that has completed `cache_quote` and `publish_fanout`. -/
structure Completion where
  /-- The event. -/
  event : QuoteEvent
  /-- Whether `cache_quote` found the event's minute beyond retention. -/
  late : Bool

/-- What the processors share. -/
structure Redis where
  /-- The quote stream. An entry's position is its id. -/
  stream : List Fields
  /-- How many entries have been delivered to the group. -/
  delivered : ℕ
  /-- The ids of the delivered entries that have not been acknowledged. -/
  pending : List ℕ
  /-- When `smdg:dedupe:<event_id>` expires, if it exists. -/
  dedupe : EventId → Option Timestamp
  /-- `smdg:sequence:<provider>:<symbol>`, by the key. -/
  sequences : String → Option (Expiring ℕ)
  /-- `smdg:stream-health:<provider>:<symbol>`, by the key. -/
  health : String → Option (Expiring StreamHealth)
  /-- The latest quote and the candles of each symbol. -/
  hot : Symbol → HotKeys
  /-- What has been published on the pub/sub channel, the last message first. -/
  fanout : List QuoteEvent
  /-- `smdg:retry:<stream_id>`. -/
  retries : ℕ → Option (Expiring ℕ)
  /-- The dead-letter stream, the last entry first. -/
  deadLetters : List DeadLetter
  /-- The ids that have been acknowledged. -/
  acked : List ℕ
  /-- The event ids of the executions that have got past `accept_event_once`. -/
  accepts : List EventId
  /-- The event ids of the executions whose `cache_quote` has taken effect. -/
  cached : List EventId
  /-- The executions that have completed `cache_quote` and `publish_fanout`. -/
  completed : List Completion
  /-- The event ids whose dedupe key has expired at some time. -/
  lapsed : EventId → Bool

namespace Redis

/-- No key, and no entry. -/
def empty : Redis where
  stream := []
  delivered := 0
  pending := []
  dedupe _ := none
  sequences _ := none
  health _ := none
  hot _ := .empty
  fanout := []
  retries _ := none
  deadLetters := []
  acked := []
  accepts := []
  cached := []
  completed := []
  lapsed _ := false

variable (r : Redis)

/-- `publish_quote`: `XADD` of an entry to the quote stream. -/
def publishQuote (fields : Fields) : Redis := { r with stream := r.stream ++ [fields] }

/-- The entries with the given ids. -/
def entries (ids : List ℕ) : List (ℕ × Fields) :=
  ids.filterMap fun id => (r.stream[id]?).map fun fields => (id, fields)

/-- The ids that the next `XREADGROUP` delivers: at most 100 new ones. -/
def newIds : List ℕ := List.range' r.delivered (min 100 (r.stream.length - r.delivered))

/-- `XREADGROUP`. -/
def deliver : Redis :=
  { r with delivered := r.delivered + r.newIds.length, pending := r.pending ++ r.newIds }

/-- `XACK`. -/
def ack (id : ℕ) : Redis := { r with pending := r.pending.filter (· ≠ id), acked := id :: r.acked }

/-- The `SET NX EX` of `accept_event_once`. -/
def setDedupe (cfg : Settings) (clock : Timestamp) (id : EventId) : Redis :=
  if (r.dedupe id).isNone then
    { r with dedupe := Function.update r.dedupe id (some (clock + cfg.dedupeTtlSeconds * second)) }
  else r

/-- `smdg:sequence:<provider>:<symbol>`. -/
def sequenceKey (event : QuoteEvent) : String :=
  "smdg:sequence:" ++ event.provider ++ ":" ++ event.symbol

/-- `smdg:stream-health:<provider>:<symbol>`. -/
def healthKey (event : QuoteEvent) : String :=
  "smdg:stream-health:" ++ event.provider ++ ":" ++ event.symbol

/-- The `SET EX` of `observe_sequence`. -/
def setSequence (clock : Timestamp) (event : QuoteEvent) (sequence : ℕ) : Redis :=
  { r with
    sequences := Function.update r.sequences (sequenceKey event)
      (some ⟨sequence, clock + 86400 * second⟩) }

/-- The `SET EX` of a sequence anomaly. -/
def setHealth (clock : Timestamp) (event : QuoteEvent) (o : GapObservation) : Redis :=
  let value : StreamHealth := {
    kind := if o.outOfOrder then "out_of_order" else "gap"
    previousSequence := o.previousSequence
    currentSequence := o.currentSequence
    gap := o.gap
    observedAt := clock }
  { r with
    health := Function.update r.health (healthKey event) (some ⟨value, clock + 300 * second⟩) }

/-- A command of `cache_quote` on the keys of the event's symbol. -/
def putHot (event : QuoteEvent) (keys : HotKeys) (effective : Bool) : Redis :=
  { r with
    hot := Function.update r.hot event.symbol keys
    cached := if effective then event.eventId :: r.cached else r.cached }

/-- `publish_fanout`. -/
def publishFanout (event : QuoteEvent) : Redis := { r with fanout := event :: r.fanout }

/-- The value of the counter of `increment_retry` after the next increment. -/
def nextRetry (id : ℕ) : ℕ := ((r.retries id).elim 0 Expiring.value) + 1

/-- `increment_retry`. -/
def incrementRetry (clock : Timestamp) (id : ℕ) : Redis :=
  { r with retries := Function.update r.retries id (some ⟨r.nextRetry id, clock + 3600 * second⟩) }

/-- `move_to_dead_letter`. -/
def moveToDeadLetter (letter : DeadLetter) : Redis :=
  { r with deadLetters := letter :: r.deadLetters }

/-- An execution has got past `accept_event_once`. -/
def recordAccept (id : EventId) : Redis := { r with accepts := id :: r.accepts }

/-- An execution has completed `cache_quote` and `publish_fanout`. -/
def recordCompletion (event : QuoteEvent) (late : Bool) : Redis :=
  { r with completed := ⟨event, late⟩ :: r.completed }

/-- The keys after those whose time to live has ended at the time `clock` are gone. -/
def expire (clock : Timestamp) : Redis :=
  { r with
    dedupe := fun id => (r.dedupe id).filter fun expiresAt => clock < expiresAt
    sequences := expireKeys clock r.sequences
    health := expireKeys clock r.health
    hot := fun symbol => (r.hot symbol).expire clock
    retries := expireKeys clock r.retries
    lapsed := fun id => r.lapsed id || (r.dedupe id).any fun expiresAt => expiresAt ≤ clock }

end Redis

end MarketDataGateway.Pipeline

import MarketDataGateway.Access.Profiles
import MarketDataGateway.Models.Spelling

/-!
# The frames of a session

The messages that `market_stream` of `app.py` sends, each with all its data, and
`model_dump(mode="json")` of their `StreamMessage`.
-/

namespace MarketDataGateway.Session

open Lib
open Access.Profiles (ServiceTier)

/-- The number is positive. -/
def isPositive : Binary64 → Bool
  | .finite negative bits => !negative && bits.val ≠ 0
  | .infinite negative => !negative
  | .nan => false

/-- `TierPolicyConfig` with positive limits. -/
structure TierPolicyConfig where
  /-- `max_symbols`. -/
  maxSymbols : Models.PositiveInteger
  /-- `max_connections`. -/
  maxConnections : Models.PositiveInteger
  /-- `updates_per_second`. -/
  updatesPerSecond : { x : Binary64 // isPositive x }
  /-- `rest_requests_per_minute`. -/
  restRequestsPerMinute : Models.PositiveInteger
  /-- `subscription_ops_per_minute`. -/
  subscriptionOpsPerMinute : Models.PositiveInteger
  /-- `market_depth`. -/
  marketDepth : PyStr
  /-- `historical_data`. -/
  historicalData : Bool

/-- The fields of a policy. -/
def TierPolicyConfig.items (policy : TierPolicyConfig) : List (String × Json) :=
  [("max_symbols", .int policy.maxSymbols.1), ("max_connections", .int policy.maxConnections.1),
    ("updates_per_second", .float policy.updatesPerSecond.1),
    ("rest_requests_per_minute", .int policy.restRequestsPerMinute.1),
    ("subscription_ops_per_minute", .int policy.subscriptionOpsPerMinute.1),
    ("market_depth", .str policy.marketDepth), ("historical_data", .bool policy.historicalData)]

/-- A string that is not empty. -/
abbrev NonEmptyStr := { s : PyStr // s ≠ [] }

/-- The codes of the errors that a caught exception is answered with. -/
inductive RefusalCode
  | forbidden
  | invalidCommand
  deriving DecidableEq

/-- The value of a code. -/
def RefusalCode.value : RefusalCode → String
  | forbidden => "forbidden"
  | invalidCommand => "invalid_command"

/-- The answers to a command. -/
inductive Reply
  /-- To a ping. -/
  | pong
  /-- To a subscription, with `sorted(local_added)` and `sorted(global_added)`. -/
  | subscribe (symbols upstreamTransitions : List Models.Symbol)
  /-- To the end of one, with `sorted(local_removed)`. -/
  | unsubscribe (symbols : List Models.Symbol)
  /-- `QuoteSnapshot`, for a symbol that has been added. -/
  | snapshot (quote : Models.QuoteEvent) (stale : Bool) (ageMs : ℤ)
  /-- The limiter's. -/
  | rateLimit
  /-- To an exception, with `str(exc)`. -/
  | refused (code : RefusalCode) (message : NonEmptyStr)

/-- `request_id` of a command. -/
abbrev RequestId := { s : PyStr // s.length ≤ 128 }

/-- The messages of a session. -/
inductive Frame
  /-- The first one. -/
  | connected (connectionId : EventId) (clientId : NonEmptyStr) (tier : ServiceTier)
      (policy : TierPolicyConfig) (correlationId : NonEmptyStr) (activeConnections : ℕ)
  /-- The answer to a command. -/
  | reply (requestId : Option RequestId) (data : Reply)
  /-- A quote of `send_loop`. -/
  | quote (quote : Models.QuoteEvent)
  /-- The warning of `send_loop`. -/
  | slowConsumer (coalescedEvents : ℕ)
  /-- The warning of `heartbeat_loop`. -/
  | idleTimeout
  /-- The heartbeat of `heartbeat_loop`. -/
  | heartbeat (connectionId : EventId)

/-- `type` of an answer. -/
def Reply.type : Reply → String
  | snapshot .. => "snapshot"
  | rateLimit => "error"
  | refused .. => "error"
  | _ => "ack"

/-- `sorted(..)` of symbols. -/
def symbolList (symbols : List Models.Symbol) : Json := .list (symbols.map fun s => .str s.1)

/-- `data` of an answer. -/
def Reply.items (p : Models.Pydantic) : Reply → List (String × Json)
  | pong => [("action", .str (text "pong"))]
  | subscribe symbols upstreamTransitions =>
    [("action", .str (text "subscribe")), ("symbols", symbolList symbols),
      ("upstream_transitions", symbolList upstreamTransitions)]
  | unsubscribe symbols => [("action", .str (text "unsubscribe")), ("symbols", symbolList symbols)]
  | snapshot quote stale ageMs =>
    [("quote", quote.modelDump p), ("stale", .bool stale), ("age_ms", .int ageMs)]
  | rateLimit =>
    [("code", .str (text "rate_limit")), ("message", .str (text "subscription limit exceeded"))]
  | refused code message => [("code", .str (text code.value)), ("message", .str message.1)]

namespace Frame

/-- `type`. -/
def type : Frame → String
  | connected .. => "connected"
  | reply _ data => data.type
  | quote _ => "quote"
  | slowConsumer _ => "warning"
  | idleTimeout => "warning"
  | heartbeat _ => "heartbeat"

/-- `request_id`. -/
def requestId : Frame → Option RequestId
  | reply requestId _ => requestId
  | _ => none

/-- The quote of a frame. -/
def quote? : Frame → Option Models.QuoteEvent
  | .reply _ (.snapshot e _ _) => some e
  | .quote e => some e
  | _ => none

/-- `data`. -/
def items (p : Models.Pydantic) : Frame → List (String × Json)
  | connected connectionId clientId tier policy correlationId activeConnections =>
    [("connection_id", .str (Models.uuidText connectionId)), ("client_id", .str clientId.1),
      ("tier", .str (text tier.value)), ("policy", .dict (object policy.items)),
      ("correlation_id", .str correlationId.1), ("active_connections", .int activeConnections)]
  | reply _ data => data.items p
  | quote e => [("quote", e.modelDump p)]
  | slowConsumer coalescedEvents =>
    [("code", .str (text "slow_consumer")),
      ("message", .str (text "quote updates were coalesced to protect the connection")),
      ("coalesced_events", .int coalescedEvents)]
  | idleTimeout =>
    [("code", .str (text "idle_timeout")),
      ("message", .str (text "connection closed because no client heartbeat was received"))]
  | heartbeat connectionId => [("connection_id", .str (Models.uuidText connectionId))]

/-- `model_dump(mode="json")`. -/
def modelDump (p : Models.Pydantic) (timestamp : Models.Datetime) (frame : Frame) : Json :=
  .dict (object
    [("type", .str (text frame.type)), ("timestamp", p.datetime.dump timestamp),
      ("request_id", match frame.requestId with
        | none => .null
        | some s => .str s.1),
      ("data", .dict (object (frame.items p)))])

end Frame

end MarketDataGateway.Session

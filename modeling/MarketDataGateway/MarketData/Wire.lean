import MarketDataGateway.Access.Profiles
import MarketDataGateway.MarketData.Schema

/-!
# Frames that the browser reads

`wireQuoteSchema`, the schemas of the messages, and `normalizeWireQuote` of `market-data/types.ts`.
-/

namespace MarketDataGateway.MarketData

open Lib

/-! ## Quotes -/

/-- `WireQuote`. -/
structure WireQuote where
  /-- `schema_version`. -/
  schemaVersion : JsString
  /-- `event_id`. -/
  eventId : JsString
  /-- `symbol`. -/
  symbol : JsString
  /-- `price`. -/
  price : ℚ
  /-- `bid`. -/
  bid : Option ℚ
  /-- `ask`. -/
  ask : Option ℚ
  /-- `provider_timestamp`. -/
  providerTimestamp : IsoString
  /-- `received_at`. -/
  receivedAt : IsoString
  /-- `sequence`. -/
  sequence : Option ℕ
  /-- `provider`. -/
  provider : JsString
  /-- `last_size`. -/
  lastSize : Option ℚ
  /-- `cumulative_volume`. -/
  cumulativeVolume : Option ℚ
  /-- `trade_count`. -/
  tradeCount : Option ℕ

/-- The bid is at most the ask, if there are both. -/
def WireQuote.spreads (q : WireQuote) : Bool :=
  match q.bid, q.ask with
  | some bid, some ask => bid ≤ ask
  | _, _ => true

/-- `wireQuoteSchema`, before `superRefine`. -/
def wireQuoteFields : Schema WireQuote := Schema.object fun field => do
  let schemaVersion ← (Schema.string.refine fun s =>
    isVersion (units s)).required (field "schema_version")
  let eventId ← (Schema.string.refine fun s => isUuid (units s)).required (field "event_id")
  let symbol ← Schema.symbol.required (field "symbol")
  let price ← Schema.decimal.required (field "price")
  let bid ← Schema.nonNegativeDecimal.nullish (field "bid")
  let ask ← Schema.nonNegativeDecimal.nullish (field "ask")
  let providerTimestamp ← Schema.dateTime.required (field "provider_timestamp")
  let receivedAt ← Schema.dateTime.required (field "received_at")
  let sequence ← Schema.nonNegativeInt.nullish (field "sequence")
  let provider ← (Schema.within 64).required (field "provider")
  let lastSize ← Schema.nonNegativeDecimal.nullish (field "last_size")
  let cumulativeVolume ← Schema.nonNegativeDecimal.nullish (field "cumulative_volume")
  let tradeCount ← Schema.nonNegativeInt.nullish (field "trade_count")
  return {
    schemaVersion, eventId, symbol, price, bid, ask, providerTimestamp,
    receivedAt, sequence, provider,
    lastSize, cumulativeVolume, tradeCount }

/-- `wireQuoteSchema`. -/
def wireQuoteSchema : Schema WireQuote := wireQuoteFields.refine WireQuote.spreads

/-- `normalizeWireQuote`. -/
def normalizeWireQuote (quote : WireQuote) : NormalizedQuote where
  schemaVersion := quote.schemaVersion
  eventId := quote.eventId
  symbol := quote.symbol
  price := quote.price
  bid := quote.bid
  ask := quote.ask
  providerTimestampMs := dateParse quote.providerTimestamp
  receivedAtMs := dateParse quote.receivedAt
  sequence := quote.sequence
  provider := quote.provider
  lastSize := quote.lastSize
  cumulativeVolume := quote.cumulativeVolume
  tradeCount := quote.tradeCount

/-! ## Messages -/

/-- The actions that are acknowledged with symbols. -/
inductive AckAction
  | subscribe
  | unsubscribe
  deriving DecidableEq

/-- The value of an action. -/
def AckAction.value : AckAction → String
  | subscribe => "subscribe"
  | unsubscribe => "unsubscribe"

/-- `policy` of a message `connected`. -/
structure WirePolicy where
  /-- `max_symbols`. -/
  maxSymbols : ℕ
  /-- `max_connections`. -/
  maxConnections : ℕ
  /-- `updates_per_second`. -/
  updatesPerSecond : ℚ
  /-- `rest_requests_per_minute`. -/
  restRequestsPerMinute : ℕ
  /-- `subscription_ops_per_minute`. -/
  subscriptionOpsPerMinute : ℕ
  /-- `market_depth`. -/
  marketDepth : JsString
  /-- `historical_data`. -/
  historicalData : Bool

/-- `data` of a message, by its type. -/
inductive WireData
  /-- `connected`. -/
  | connected (connectionId clientId : JsString) (tier : JsString) (policy : WirePolicy)
      (correlationId : JsString) (activeConnections : ℕ)
  /-- `ack` of a subscription. -/
  | ack (action : AckAction) (symbols : List JsString)
      (upstreamTransitions : Option (List JsString))
  /-- `ack` of a ping. -/
  | pong
  /-- `snapshot`. -/
  | snapshot (quote : WireQuote) (stale : Bool) (ageMs : ℕ)
  /-- `quote`. -/
  | quote (quote : WireQuote)
  /-- `heartbeat`. -/
  | heartbeat (connectionId : JsString)
  /-- `warning`. -/
  | warning (code message : JsString) (coalescedEvents : Option ℕ)
  /-- `error`. -/
  | error (code message : JsString)

/-- `type`. -/
def WireData.type : WireData → String
  | connected .. => "connected"
  | ack .. => "ack"
  | pong => "ack"
  | snapshot .. => "snapshot"
  | quote _ => "quote"
  | heartbeat _ => "heartbeat"
  | warning .. => "warning"
  | error .. => "error"

/-- The quote of a message. -/
def WireData.quote? : WireData → Option WireQuote
  | .snapshot q _ _ => some q
  | .quote q => some q
  | _ => none

/-- `WireMessage`. -/
structure WireMessage where
  /-- `timestamp`. -/
  timestamp : IsoString
  /-- `request_id`. -/
  requestId : Option JsString
  /-- `data`. -/
  data : WireData

/-- What the schemas of the messages have in common. -/
def message (type : String) (data : Schema WireData) : Schema WireMessage :=
  Schema.object fun field => do
  let _ ← (Schema.literal type).required (field "type")
  let timestamp ← Schema.dateTime.required (field "timestamp")
  let requestId ← (Schema.within 128).nullish (field "request_id")
  let data ← data.required (field "data")
  return ⟨timestamp, requestId, data⟩

/-- `policy` of `connectedMessageSchema`. -/
def policySchema : Schema WirePolicy := Schema.object fun field => do
  let maxSymbols ← Schema.positiveInt.required (field "max_symbols")
  let maxConnections ← Schema.positiveInt.required (field "max_connections")
  let updatesPerSecond ← (Schema.number.refine (0 < ·)).required (field "updates_per_second")
  let restRequestsPerMinute ← Schema.positiveInt.required (field "rest_requests_per_minute")
  let subscriptionOpsPerMinute ← Schema.positiveInt.required (field "subscription_ops_per_minute")
  let marketDepth ← Schema.nonEmpty.required (field "market_depth")
  let historicalData ← Schema.boolean.required (field "historical_data")
  return {
    maxSymbols, maxConnections, updatesPerSecond, restRequestsPerMinute, subscriptionOpsPerMinute,
    marketDepth, historicalData }

/-- `data` of `connectedMessageSchema`. -/
def connectedSchema : Schema WireData := Schema.object fun field => do
  let connectionId ← Schema.nonEmpty.required (field "connection_id")
  let clientId ← Schema.nonEmpty.required (field "client_id")
  let tier ← (Schema.enum ["basic", "pro", "premium"] id).required (field "tier")
  let policy ← policySchema.required (field "policy")
  let correlationId ← Schema.nonEmpty.required (field "correlation_id")
  let activeConnections ← Schema.nonNegativeInt.required (field "active_connections")
  return .connected connectionId clientId (js tier) policy correlationId activeConnections

/-- `data` of `subscribeAckMessageSchema`. -/
def subscribeAckSchema : Schema WireData := Schema.object fun field => do
  let action ← (Schema.enum [.subscribe, .unsubscribe] AckAction.value).required (field "action")
  let symbols ← Schema.symbol.array.required (field "symbols")
  let upstreamTransitions ← Schema.symbol.array.optional (field "upstream_transitions")
  return .ack action symbols upstreamTransitions

/-- `data` of `pongAckMessageSchema`. -/
def pongAckSchema : Schema WireData := Schema.object fun field => do
  let _ ← (Schema.literal "pong").required (field "action")
  return .pong

/-- `data` of `snapshotMessageSchema`. -/
def snapshotSchema : Schema WireData := Schema.object fun field => do
  let quote ← wireQuoteSchema.required (field "quote")
  let stale ← Schema.boolean.required (field "stale")
  let ageMs ← Schema.nonNegativeInt.required (field "age_ms")
  return .snapshot quote stale ageMs

/-- `data` of `quoteMessageSchema`. -/
def quoteSchema : Schema WireData := Schema.object fun field => do
  let quote ← wireQuoteSchema.required (field "quote")
  return .quote quote

/-- `data` of `heartbeatMessageSchema`. -/
def heartbeatSchema : Schema WireData := Schema.object fun field => do
  let connectionId ← Schema.nonEmpty.required (field "connection_id")
  return .heartbeat connectionId

/-- `data` of `warningMessageSchema`. -/
def warningSchema : Schema WireData := Schema.object fun field => do
  let code ← Schema.nonEmpty.required (field "code")
  let message ← Schema.nonEmpty.required (field "message")
  let coalescedEvents ← Schema.nonNegativeInt.optional (field "coalesced_events")
  return .warning code message coalescedEvents

/-- `data` of `errorMessageSchema`. -/
def errorSchema : Schema WireData := Schema.object fun field => do
  let code ← Schema.nonEmpty.required (field "code")
  let message ← Schema.nonEmpty.required (field "message")
  return .error code message

/-- The schemas of `wireMessageSchema`, in their order. -/
def messageSchemas : List (String × Schema WireData) :=
  [("connected", connectedSchema), ("ack", subscribeAckSchema), ("ack", pongAckSchema),
    ("snapshot", snapshotSchema), ("quote", quoteSchema), ("heartbeat", heartbeatSchema),
    ("warning", warningSchema), ("error", errorSchema)]

/-- `wireMessageSchema`. -/
def wireMessageSchema : Schema WireMessage :=
  fun v => messageSchemas.findSome? fun s => message s.1 s.2 v

mutual

/-- `JSON.parse` reads the text of the value: there is no infinity and no NaN, which have no
literals. -/
def parses : Json → Bool
  | .float x => x.value.isSome
  | .list items => parsesItems items
  | .dict entries => parsesEntries entries
  | _ => true

/-- `JSON.parse` reads the items. -/
def parsesItems : List Json → Bool
  | [] => true
  | v :: items => parses v && parsesItems items

/-- `JSON.parse` reads the entries. -/
def parsesEntries : List (PyStr × Json) → Bool
  | [] => true
  | (_, v) :: entries => parses v && parsesEntries entries

end

/-- `safeParseWireMessage`, for the text of a value. -/
def safeParseWireMessage (v : Json) : Option WireMessage :=
  if parses v then wireMessageSchema v else none

end MarketDataGateway.MarketData

import MarketDataGateway.Engine.Aggregator

/-!
# The market data store

`MarketDataStore` of `engine/market-data-store.ts`, which takes a point in through the guard, keeps
the events, the latest point, and the candles of each symbol, and publishes a snapshot after each
change.

A call that throws leaves the store as it is at the exception, so `ingest` and `setTimeframe` give
the store in either case. `ingest_cases` says what a call of `ingest` does after each of the
decisions of the guard. The times at which points were observed are left out. So are the listeners
here: `commitPublish` runs them last, after every structure has changed, and what they throw is in
`Engine/AllOrNothing.lean`.

The sequences and the times of a quote are integers, and its prices rationals: a point of a source
has passed `wireQuoteSchema`, which takes finite decimals and safe integers only, and one of a
replay `createReplayFrames`.
-/

namespace MarketDataGateway.Engine

open Lib (Dict InsertionMap)
open MarketData (JsString MarketDataPoint NormalizedQuote Runtime SourceStatus)

/-- `AcceptedMarketDataLogEntry`. -/
structure AcceptedMarketDataLogEntry where
  /-- `quote`. -/
  quote : NormalizedQuote
  /-- `generation`. -/
  generation : ℕ
  /-- `acceptedReason`. -/
  acceptedReason : IntegrityAcceptedReason
  deriving DecidableEq

/-- `MarketDataStoreSnapshot`. Its records are read by their keys. -/
structure MarketDataStoreSnapshot where
  /-- `revision`. -/
  revision : ℕ
  /-- `timeframe`. -/
  timeframe : Timeframe
  /-- `connectionStatus`. -/
  connectionStatus : SourceStatus
  /-- `latestPoints`, whose quotes are `latestQuotes`. -/
  latestPoints : Dict JsString MarketDataPoint
  /-- `candles`. -/
  candles : Dict JsString (List Candle)
  /-- `acceptedLog`. -/
  acceptedLog : List AcceptedMarketDataLogEntry
  /-- `quarantineLog`. -/
  quarantineLog : List QuarantinedMarketData
  /-- `duplicateCounts`. -/
  duplicateCounts : Dict JsString ℕ

/-- `latestQuotes`. -/
def MarketDataStoreSnapshot.latestQuotes (s : MarketDataStoreSnapshot) (symbol : JsString) :
    Option NormalizedQuote :=
  (s.latestPoints.get symbol).map MarketDataPoint.quote

/-- `MarketDataStoreOptions`, with the defaults of the constructors. What `positiveInteger` refuses
is not an option. -/
structure MarketDataStoreOptions where
  /-- `timeframe`. -/
  timeframe : Timeframe := .oneMinute
  /-- `eventRetentionPerSymbol`. -/
  eventRetentionPerSymbol : ℕ+ := 10000
  /-- `candleRetentionPerSymbol`. -/
  candleRetentionPerSymbol : ℕ+ := 2000
  /-- `logRetention`. -/
  logRetention : ℕ+ := 500
  /-- `integrity.seenEventRetention`. -/
  seenEventRetention : ℕ+ := 10000
  /-- `integrity.quarantineRetention`. -/
  quarantineRetention : ℕ+ := logRetention
  /-- `integrity.allowSequenceResetOnGeneration`. -/
  allowSequenceResetOnGeneration : Bool := true

/-- `MarketDataStore`. -/
structure MarketDataStore where
  /-- `eventsBySymbol`. -/
  eventsBySymbol : InsertionMap JsString (List MarketDataPoint)
  /-- `latestBySymbol`. -/
  latestBySymbol : Dict JsString MarketDataPoint
  /-- `candleSnapshotsBySymbol`. -/
  candleSnapshotsBySymbol : Dict JsString (List Candle)
  /-- `duplicateCountsBySymbol`. -/
  duplicateCountsBySymbol : Dict JsString ℕ
  /-- `acceptedEntries`. -/
  acceptedEntries : List AcceptedMarketDataLogEntry
  /-- `quarantineEntries`. -/
  quarantineEntries : List QuarantinedMarketData
  /-- `eventRetentionPerSymbol`. -/
  eventRetentionPerSymbol : ℕ+
  /-- `candleRetentionPerSymbol`. -/
  candleRetentionPerSymbol : ℕ+
  /-- `logRetention`. -/
  logRetention : ℕ+
  /-- `integrityGuard`. -/
  integrityGuard : TemporalIntegrityGuard
  /-- `aggregator`. -/
  aggregator : CandleAggregator
  /-- `timeframe`. -/
  timeframe : Timeframe
  /-- `connectionStatus`. -/
  connectionStatus : SourceStatus
  /-- `revision`. -/
  revision : ℕ
  /-- `batchDepth`. -/
  batchDepth : ℕ
  /-- `batchDirty`. -/
  batchDirty : Bool
  /-- `snapshot`. -/
  snapshot : MarketDataStoreSnapshot

namespace MarketDataStore

/-- `buildSnapshot`. -/
def buildSnapshot (s : MarketDataStore) : MarketDataStoreSnapshot where
  revision := s.revision
  timeframe := s.timeframe
  connectionStatus := s.connectionStatus
  latestPoints := s.latestBySymbol
  candles := s.candleSnapshotsBySymbol
  acceptedLog := s.acceptedEntries
  quarantineLog := s.quarantineEntries
  duplicateCounts := s.duplicateCountsBySymbol

/-- `new MarketDataStore(options)`. -/
def new (options : MarketDataStoreOptions) : MarketDataStore where
  eventsBySymbol := InsertionMap.empty
  latestBySymbol := ⟨[], List.Pairwise.nil⟩
  candleSnapshotsBySymbol := ⟨[], List.Pairwise.nil⟩
  duplicateCountsBySymbol := ⟨[], List.Pairwise.nil⟩
  acceptedEntries := []
  quarantineEntries := []
  eventRetentionPerSymbol := options.eventRetentionPerSymbol
  candleRetentionPerSymbol := options.candleRetentionPerSymbol
  logRetention := options.logRetention
  integrityGuard := ⟨InsertionMap.empty, [], [], options.seenEventRetention,
    options.quarantineRetention, options.allowSequenceResetOnGeneration, List.nodup_nil⟩
  aggregator := CandleAggregator.new options.timeframe options.candleRetentionPerSymbol
  timeframe := options.timeframe
  connectionStatus := ⟨.idle, 0, 0, none, none⟩
  revision := 0
  batchDepth := 0
  batchDirty := false
  snapshot := ⟨0, options.timeframe, ⟨.idle, 0, 0, none, none⟩, ⟨[], List.Pairwise.nil⟩,
    ⟨[], List.Pairwise.nil⟩, [], [], ⟨[], List.Pairwise.nil⟩⟩

/-- `commitPublish`. -/
def commitPublish (s : MarketDataStore) : MarketDataStore :=
  let s := { s with revision := s.revision + 1 }
  { s with snapshot := s.buildSnapshot }

/-- `publish`. -/
def publish (s : MarketDataStore) : MarketDataStore :=
  if 0 < s.batchDepth then { s with batchDirty := true } else s.commitPublish

/-- `refreshCandleSnapshot`. -/
def refreshCandleSnapshot (rt : Runtime) (s : MarketDataStore) (symbol : JsString) :
    MarketDataStore :=
  { s with
    candleSnapshotsBySymbol :=
      s.candleSnapshotsBySymbol.insert symbol (s.aggregator.getCandles rt symbol) }

/-- `rebuildCandleSnapshots`. -/
def rebuildCandleSnapshots (rt : Runtime) (s : MarketDataStore) : MarketDataStore :=
  s.aggregator.getSymbols.foldl (refreshCandleSnapshot rt)
    { s with candleSnapshotsBySymbol := ⟨[], List.Pairwise.nil⟩ }

/-- How `ingest` ends: with the store as it is then, and by the decision or by an exception. -/
structure Ingested where
  /-- The store after the call. -/
  store : MarketDataStore
  /-- The decision. `none` is the exception. -/
  decision : Option IntegrityDecision

/-- The retained events of a symbol. -/
def retained (s : MarketDataStore) (symbol : JsString) : List MarketDataPoint :=
  (s.eventsBySymbol.get symbol).getD []

/-- `ingest` of a point that the guard has accepted, up to the aggregator. -/
def retain (rt : Runtime) (s : MarketDataStore) (point : MarketDataPoint) : MarketDataStore :=
  let symbol := rt.normalize point.quote.symbol
  { s with
    eventsBySymbol := s.eventsBySymbol.set symbol
      (trimStart (s.retained symbol ++ [point]) s.eventRetentionPerSymbol)
    latestBySymbol := s.latestBySymbol.insert symbol point }

/-- The rest of `ingest` of such a point. -/
def record (rt : Runtime) (s : MarketDataStore) (point : MarketDataPoint) (agg : CandleAggregator)
    (reason : IntegrityAcceptedReason) : MarketDataStore :=
  let s := refreshCandleSnapshot rt { s with aggregator := agg } (rt.normalize point.quote.symbol)
  publish
    { s with
      acceptedEntries := trimStart
        (s.acceptedEntries ++ [⟨point.quote, point.generation, reason⟩]) s.logRetention }

/-- The point that a duplicate may refresh: the latest one, or the newest retained one of its
event. -/
def refreshable (s : MarketDataStore) (symbol : JsString) (point : MarketDataPoint) :
    Option MarketDataPoint :=
  match s.latestBySymbol.get symbol with
  | some latest => some latest
  | none =>
    (s.retained symbol).reverse.find? fun candidate =>
      candidate.quote.eventId = point.quote.eventId

/-- The latest points after a duplicate. -/
def refreshed (s : MarketDataStore) (symbol : JsString) (point : MarketDataPoint) :
    Dict JsString MarketDataPoint :=
  match s.refreshable symbol point with
  | none => s.latestBySymbol
  | some latest =>
    if latest.quote.eventId = point.quote.eventId ∧ latest.generation ≤ point.generation then
      s.latestBySymbol.insert symbol { point with quote := latest.quote }
    else s.latestBySymbol

/-- `ingest` of a duplicate. -/
def ingestDuplicate (rt : Runtime) (s : MarketDataStore) (point : MarketDataPoint) :
    MarketDataStore :=
  let symbol := rt.normalize point.quote.symbol
  publish
    { s with
      duplicateCountsBySymbol := s.duplicateCountsBySymbol.insert symbol
        ((s.duplicateCountsBySymbol.get symbol).getD 0 + 1)
      latestBySymbol := s.refreshed symbol point }

/-- `ingest` of a point that is in quarantine. -/
def ingestQuarantined (s : MarketDataStore) (entry : QuarantinedMarketData) : MarketDataStore :=
  publish
    { s with
      quarantineEntries := trimStart (s.quarantineEntries ++ [entry]) s.logRetention }

/-- `ingest`. -/
def ingest (rt : Runtime) (s : MarketDataStore) (point : MarketDataPoint) : Ingested :=
  let evaluated := s.integrityGuard.evaluate point
  let s := { s with integrityGuard := evaluated.1 }
  match evaluated.2 with
  | .accepted reason _ _ =>
    let s := s.retain rt point
    match s.aggregator.ingest rt point with
    | none => ⟨s, none⟩
    | some (agg, _) => ⟨s.record rt point agg reason, some evaluated.2⟩
  | .duplicate _ => ⟨s.ingestDuplicate rt point, some evaluated.2⟩
  | .quarantined entry => ⟨s.ingestQuarantined entry, some evaluated.2⟩

/-- The loop of `ingestMany`: the store at the end or at the exception, and the decisions. -/
def ingestEach (rt : Runtime) : MarketDataStore → List MarketDataPoint →
    MarketDataStore × Option (List IntegrityDecision)
  | s, [] => (s, some [])
  | s, point :: points =>
    match s.ingest rt point with
    | ⟨s, none⟩ => (s, none)
    | ⟨s, some decision⟩ =>
      let rest := s.ingestEach rt points
      (rest.1, rest.2.map (decision :: ·))

/-- `ingestMany`. -/
def ingestMany (rt : Runtime) (s : MarketDataStore) (points : List MarketDataPoint) :
    MarketDataStore × Option (List IntegrityDecision) :=
  let result := ingestEach rt { s with batchDepth := s.batchDepth + 1 } points
  let s : MarketDataStore := { result.1 with batchDepth := result.1.batchDepth - 1 }
  if s.batchDepth = 0 ∧ s.batchDirty = true then
    (commitPublish { s with batchDirty := false }, result.2)
  else (s, result.2)

/-- `setTimeframe`: the store, and whether the call has thrown. -/
def setTimeframe (rt : Runtime) (s : MarketDataStore) (timeframe : Timeframe) :
    MarketDataStore × Bool :=
  if timeframe = s.timeframe then (s, false)
  else
    let s := { s with
      timeframe := timeframe
      aggregator := CandleAggregator.new timeframe s.candleRetentionPerSymbol }
    let rebuilt := s.aggregator.rebuild rt s.eventsBySymbol.values.flatten
    let s := { s with aggregator := rebuilt.1 }
    bif rebuilt.2 then (s, true) else (publish (s.rebuildCandleSnapshots rt), false)

/-- `setConnectionStatus`. -/
def setConnectionStatus (s : MarketDataStore) (status : SourceStatus) : MarketDataStore :=
  if s.connectionStatus = status then s
  else
    let generationChanged := status.generation ≠ s.connectionStatus.generation
    publish
      { s with
        connectionStatus := status
        latestBySymbol := if generationChanged then ⟨[], List.Pairwise.nil⟩ else s.latestBySymbol }

/-- `clear`. -/
def clear (s : MarketDataStore) : MarketDataStore :=
  publish
    { s with
      integrityGuard := s.integrityGuard.reset
      eventsBySymbol := InsertionMap.empty
      latestBySymbol := ⟨[], List.Pairwise.nil⟩
      candleSnapshotsBySymbol := ⟨[], List.Pairwise.nil⟩
      duplicateCountsBySymbol := ⟨[], List.Pairwise.nil⟩
      acceptedEntries := []
      quarantineEntries := []
      aggregator := s.aggregator.reset }

/-! ## What the operations leave alone -/

variable {rt : Runtime} {s s' : MarketDataStore} {point : MarketDataPoint} {symbol : JsString}

section Publish

/-- To publish leaves the guard. -/
@[simp] theorem publish_integrityGuard : s.publish.integrityGuard = s.integrityGuard := by
  unfold publish
  split_ifs <;> rfl

/-- To publish leaves the events. -/
@[simp] theorem publish_eventsBySymbol : s.publish.eventsBySymbol = s.eventsBySymbol := by
  unfold publish
  split_ifs <;> rfl

/-- To publish leaves the latest points. -/
@[simp] theorem publish_latestBySymbol : s.publish.latestBySymbol = s.latestBySymbol := by
  unfold publish
  split_ifs <;> rfl

/-- To publish leaves the snapshots of the candles. -/
@[simp] theorem publish_candleSnapshotsBySymbol :
    s.publish.candleSnapshotsBySymbol = s.candleSnapshotsBySymbol := by
  unfold publish
  split_ifs <;> rfl

/-- To publish leaves the accepted entries. -/
@[simp] theorem publish_acceptedEntries : s.publish.acceptedEntries = s.acceptedEntries := by
  unfold publish
  split_ifs <;> rfl

/-- To publish leaves the aggregator. -/
@[simp] theorem publish_aggregator : s.publish.aggregator = s.aggregator := by
  unfold publish
  split_ifs <;> rfl

/-- To publish leaves the timeframe. -/
@[simp] theorem publish_timeframe : s.publish.timeframe = s.timeframe := by
  unfold publish
  split_ifs <;> rfl

/-- To publish leaves the depth of the batches. -/
@[simp] theorem publish_batchDepth : s.publish.batchDepth = s.batchDepth := by
  unfold publish
  split_ifs <;> rfl

/-- To publish leaves the bound on the events. -/
@[simp] theorem publish_eventRetentionPerSymbol :
    s.publish.eventRetentionPerSymbol = s.eventRetentionPerSymbol := by
  unfold publish
  split_ifs <;> rfl

/-- To publish leaves the bound on the candles. -/
@[simp] theorem publish_candleRetentionPerSymbol :
    s.publish.candleRetentionPerSymbol = s.candleRetentionPerSymbol := by
  unfold publish
  split_ifs <;> rfl

/-- Outside a batch the snapshot is of the store. -/
theorem publish_snapshot (h : s.batchDepth = 0) : s.publish.snapshot = s.publish.buildSnapshot := by
  unfold publish
  rw [if_neg (by omega)]
  rfl

end Publish

/-- Stores with the same events retain the same. -/
theorem retained_of_eq (h : s'.eventsBySymbol = s.eventsBySymbol) :
    s'.retained symbol = s.retained symbol := by
  unfold retained
  rw [h]

/-! ## What `ingest` does -/

/-- How `ingest` can end. -/
inductive IngestEnds (rt : Runtime) (s : MarketDataStore)
    (point : MarketDataPoint) : Ingested → Prop
  /-- The point is in quarantine. -/
  | quarantined (g : TemporalIntegrityGuard) (entry : QuarantinedMarketData) :
    ¬s.integrityGuard.Accepts point → g.watermarks = s.integrityGuard.watermarks →
      g.seenEventOrder = s.integrityGuard.seenEventOrder →
      IngestEnds rt s point
        ⟨ingestQuarantined { s with integrityGuard := g } entry, some (.quarantined entry)⟩
  /-- The event has been seen. -/
  | duplicate : (s.integrityGuard.watermarkOf point).generation ≤ point.generation →
      point.quote.eventId ∈ s.integrityGuard.seenEventOrder →
      IngestEnds rt s point ⟨s.ingestDuplicate rt point, some (.duplicate point)⟩
  /-- The guard has accepted the point, and the aggregator has thrown. -/
  | threw (h : s.integrityGuard.Accepts point) : point.quote.providerTimestampMs < 0 →
      IngestEnds rt s point
        ⟨retain rt { s with integrityGuard := s.integrityGuard.accept point h.unseen } point, none⟩
  /-- The point is accepted. -/
  | accepted (h : s.integrityGuard.Accepts point) (agg : CandleAggregator)
      (update : CandleAggregationUpdate) (reason : IntegrityAcceptedReason) (gap : Option ℕ) :
      0 ≤ point.quote.providerTimestampMs → s.aggregator.ingest rt point = some (agg, update) →
      IngestEnds rt s point
        ⟨record rt (retain rt { s with integrityGuard := s.integrityGuard.accept point h.unseen }
        point)
          point agg reason, some (.accepted reason point gap)⟩

/-- The aggregator throws for a point before 1970 and for no other. -/
theorem ingest_eq_none_iff {agg : CandleAggregator} :
    agg.ingest rt point = none ↔ point.quote.providerTimestampMs < 0 := by
  unfold CandleAggregator.ingest bucketStart
  dsimp only
  by_cases h : point.quote.providerTimestampMs < 0
  · rw [if_pos h]
    exact ⟨fun _ => h, fun _ => rfl⟩
  · rw [if_neg h]
    exact ⟨(fun hnone => nomatch hnone), fun hlt => absurd hlt h⟩

/-- How a point is taken in, rejected or refused. -/
theorem ingest_cases (rt : Runtime) (s : MarketDataStore) (point : MarketDataPoint) :
    IngestEnds rt s point (s.ingest rt point) := by
  unfold ingest
  have hends := s.integrityGuard.evaluate_cases point
  generalize s.integrityGuard.evaluate point = evaluated at hends
  cases hends with
  | quarantined g entry hno hwatermarks hseen => exact .quarantined g entry hno hwatermarks hseen
  | duplicate hgeneration hseen => exact .duplicate hgeneration hseen
  | accepted h reason gap =>
    unfold retain
    dsimp only
    cases hagg : s.aggregator.ingest rt point with
    | none =>
      have hlt := ingest_eq_none_iff.1 hagg
      exact .threw h hlt
    | some result =>
      have hge : 0 ≤ point.quote.providerTimestampMs := by
        by_contra hneg
        have hnone := (@ingest_eq_none_iff rt point s.aggregator).2 (by omega)
        exact absurd (hagg.symm.trans hnone) (by simp)
      exact .accepted h result.1 result.2 reason gap hge hagg

/-- A point leaves the timeframe. -/
theorem ingest_timeframe : (s.ingest rt point).store.timeframe = s.timeframe := by
  unfold ingest
  dsimp only
  split
  · split
    · rfl
    · exact publish_timeframe
  · exact publish_timeframe
  · exact publish_timeframe

/-- The guard of a store is as `evaluate` leaves it. -/
theorem ingest_integrityGuard :
    (s.ingest rt point).store.integrityGuard = (s.integrityGuard.evaluate point).1 := by
  unfold ingest
  dsimp only
  split
  · split
    · rfl
    · exact publish_integrityGuard
  · exact publish_integrityGuard
  · exact publish_integrityGuard

end MarketDataStore

end MarketDataGateway.Engine

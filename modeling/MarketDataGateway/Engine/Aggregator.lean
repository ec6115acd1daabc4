import MarketDataGateway.Engine.Integrity
import MarketDataGateway.Lib.Dict
import MarketDataGateway.Lib.Folds
import Mathlib.Data.Finset.Insert
import Mathlib.Algebra.Order.Ring.Rat

/-!
# The candle aggregator

`CandleAggregator` of `engine/candle-aggregator.ts`. `ingest` takes in one point, and throws for one
before 1970. `rebuild` starts again with a list of points, which it sorts by `comparePoints`.

What `ingest` does apart from the limit on the number of candles is `add`. Two points can be added
in either order if they are of different symbols, or of different buckets and not both with a
cumulative volume (`add_comm`). So a list of points of which any two are in order or can be
exchanged gives, sorted or not, the same candles (`foldl_add_sortPoints`).
-/

namespace MarketDataGateway.Engine

open Lib (Dict)
open MarketData (JsString MarketDataPoint NormalizedQuote Runtime)

/-- `Timeframe`. -/
inductive Timeframe
  | fiveSeconds
  | oneMinute
  | fiveMinutes
  | fifteenMinutes
  | oneHour
  | oneDay
  deriving DecidableEq

/-- `TIMEFRAME_DURATION_MS`. -/
def Timeframe.durationMs : Timeframe → ℤ
  | .fiveSeconds => 5000
  | .oneMinute => 60000
  | .fiveMinutes => 5 * 60000
  | .fifteenMinutes => 15 * 60000
  | .oneHour => 60 * 60000
  | .oneDay => 24 * 60 * 60000

/-- `CandleVolumeSource`, without `"mixed"`. -/
inductive VolumeSource
  | lastSize
  | cumulativeDelta
  | updateCount
  deriving DecidableEq

/-- `CandleVolumeSource`. -/
inductive CandleVolumeSource
  | only (source : VolumeSource)
  | mixed
  deriving DecidableEq

/-- `MutableCandle`. -/
structure MutableCandle where
  /-- `symbol`. -/
  symbol : JsString
  /-- `openTimeMs`. -/
  openTimeMs : ℤ
  /-- `open`. -/
  opened : ℚ
  /-- `high`. -/
  high : ℚ
  /-- `low`. -/
  low : ℚ
  /-- `close`. -/
  close : ℚ
  /-- `volume`. -/
  volume : ℚ
  /-- `volumeSources`. -/
  volumeSources : Finset VolumeSource
  /-- `updateCount`. -/
  updateCount : ℕ
  /-- `firstEventId`. -/
  firstEventId : JsString
  /-- `lastEventId`. -/
  lastEventId : JsString
  /-- `revision`. -/
  revision : ℕ
  deriving DecidableEq

/-- `Candle`. -/
structure Candle where
  /-- `symbol`. -/
  symbol : JsString
  /-- `timeframe`. -/
  timeframe : Timeframe
  /-- `openTimeMs`. -/
  openTimeMs : ℤ
  /-- `closeTimeMs`. -/
  closeTimeMs : ℤ
  /-- `open`. -/
  opened : ℚ
  /-- `high`. -/
  high : ℚ
  /-- `low`. -/
  low : ℚ
  /-- `close`. -/
  close : ℚ
  /-- `volume`. -/
  volume : ℚ
  /-- `volumeSource`. -/
  volumeSource : CandleVolumeSource
  /-- `updateCount`. -/
  updateCount : ℕ
  /-- `firstEventId`. -/
  firstEventId : JsString
  /-- `lastEventId`. -/
  lastEventId : JsString
  /-- `revision`. -/
  revision : ℕ
  /-- `complete`. -/
  complete : Bool
  deriving DecidableEq

/-- The bucket of an instant. -/
def bucketOf (timestampMs : ℤ) (timeframe : Timeframe) : ℤ :=
  timestampMs / timeframe.durationMs * timeframe.durationMs

/-- `bucketStart`. `none` is the `RangeError`. -/
def bucketStart (timestampMs : ℤ) (timeframe : Timeframe) : Option ℤ :=
  if timestampMs < 0 then none else some (bucketOf timestampMs timeframe)

/-- The volume that a quote contributes. -/
structure Contribution where
  /-- `amount`. -/
  amount : ℚ
  /-- `source`. -/
  source : VolumeSource
  deriving DecidableEq

/-- `volumeContribution`, with the entry of `cumulativeVolumeBySymbol` before and after. -/
def volumeContribution (quote : NormalizedQuote) (previous : Option ℚ) : Contribution × Option ℚ :=
  match quote.lastSize, quote.cumulativeVolume with
  | some size, some cumulative => (⟨size, .lastSize⟩, some cumulative)
  | some size, none => (⟨size, .lastSize⟩, previous)
  | none, some cumulative =>
    match previous with
    | none => (⟨0, .cumulativeDelta⟩, some cumulative)
    | some before =>
      (⟨if before ≤ cumulative then cumulative - before else cumulative, .cumulativeDelta⟩,
        some cumulative)
  | none, none => (⟨1, .updateCount⟩, previous)

/-- The first candle of a bucket. -/
def openCandle (symbol : JsString) (openTimeMs : ℤ) (quote : NormalizedQuote)
    (volume : Contribution) : MutableCandle where
  symbol := symbol
  openTimeMs := openTimeMs
  opened := quote.price
  high := quote.price
  low := quote.price
  close := quote.price
  volume := volume.amount
  volumeSources := {volume.source}
  updateCount := 1
  firstEventId := quote.eventId
  lastEventId := quote.eventId
  revision := 1

/-- The candle of a bucket with one more quote. -/
def updateCandle (candle : MutableCandle) (quote : NormalizedQuote) (volume : Contribution) :
    MutableCandle :=
  { candle with
    high := max candle.high quote.price
    low := min candle.low quote.price
    close := quote.price
    volume := candle.volume + volume.amount
    volumeSources := insert volume.source candle.volumeSources
    updateCount := candle.updateCount + 1
    lastEventId := quote.eventId
    revision := candle.revision + 1 }

/-- What the aggregator holds of a symbol: the entries of its three maps. -/
@[ext]
structure SymbolCandles where
  /-- The entry of `candlesBySymbol`. It is read in the order of its keys. -/
  candles : Dict ℤ MutableCandle
  /-- The entry of `latestBucketBySymbol`. -/
  latestBucket : ℤ
  /-- The entry of `cumulativeVolumeBySymbol`. -/
  cumulativeVolume : Option ℚ

/-- `CandleAggregator`. -/
structure CandleAggregator where
  /-- `timeframe`. -/
  timeframe : Timeframe
  /-- `maxCandlesPerSymbol`. -/
  maxCandlesPerSymbol : ℕ+
  /-- The three maps. They are read in the order of their keys. -/
  symbols : Dict JsString SymbolCandles

/-- `CandleAggregationUpdate`. -/
structure CandleAggregationUpdate where
  /-- `candle`. -/
  candle : Candle
  /-- `newlyCompleted`. -/
  newlyCompleted : List Candle

/-- `materialize`. -/
def materialize (timeframe : Timeframe) (candle : MutableCandle) (complete : Bool) : Candle where
  symbol := candle.symbol
  timeframe := timeframe
  openTimeMs := candle.openTimeMs
  closeTimeMs := candle.openTimeMs + timeframe.durationMs
  opened := candle.opened
  high := candle.high
  low := candle.low
  close := candle.close
  volume := candle.volume
  volumeSource :=
    if candle.volumeSources = {.lastSize} then .only .lastSize
    else if candle.volumeSources = {.cumulativeDelta} then .only .cumulativeDelta
    else if candle.volumeSources = {.updateCount} then .only .updateCount else .mixed
  updateCount := candle.updateCount
  firstEventId := candle.firstEventId
  lastEventId := candle.lastEventId
  revision := candle.revision
  complete := complete

namespace SymbolCandles

/-- The candle that `ingest` makes or updates. -/
def candleWith (held : Option SymbolCandles) (symbol : JsString) (openTimeMs : ℤ)
    (quote : NormalizedQuote) : MutableCandle :=
  let volume := (volumeContribution quote (held.bind SymbolCandles.cumulativeVolume)).1
  match held.bind fun h => h.candles.get openTimeMs with
  | none => openCandle symbol openTimeMs quote volume
  | some candle => updateCandle candle quote volume

/-- What is held of a symbol with one more quote. -/
def add (held : Option SymbolCandles) (symbol : JsString) (openTimeMs : ℤ)
    (quote : NormalizedQuote) : SymbolCandles where
  candles := (held.elim ⟨[], List.Pairwise.nil⟩ candles).insert openTimeMs
    (candleWith held symbol openTimeMs quote)
  latestBucket := held.elim openTimeMs fun h =>
    if h.latestBucket < openTimeMs then openTimeMs else h.latestBucket
  cumulativeVolume := (volumeContribution quote (held.bind SymbolCandles.cumulativeVolume)).2

/-- `trim`. -/
def trim (held : SymbolCandles) (maxCandlesPerSymbol : ℕ+) : SymbolCandles :=
  { held with
    candles := ⟨trimStart held.candles.entries maxCandlesPerSymbol,
      held.candles.sorted.sublist (List.drop_sublist _ _)⟩ }

/-- The candle of the last bucket, when a later one begins. -/
def newlyCompleted (held : Option SymbolCandles) (timeframe : Timeframe) (openTimeMs : ℤ) :
    List Candle :=
  match held with
  | none => []
  | some h =>
    if h.latestBucket < openTimeMs then
      (h.candles.get h.latestBucket).toList.map fun candle => materialize timeframe candle true
    else []

/-- The body of `getCandles`. -/
def list (held : SymbolCandles) (timeframe : Timeframe) : List Candle :=
  held.candles.entries.map fun e =>
    materialize timeframe e.2 (e.2.openTimeMs < held.latestBucket)

end SymbolCandles

namespace CandleAggregator

/-- `new CandleAggregator(timeframe, { maxCandlesPerSymbol })`. -/
def new (timeframe : Timeframe) (maxCandlesPerSymbol : ℕ+) : CandleAggregator :=
  ⟨timeframe, maxCandlesPerSymbol, ⟨[], List.Pairwise.nil⟩⟩

/-- `ingest`. `none` is the `RangeError` of `bucketStart`, which comes before any change. -/
def ingest (rt : Runtime) (agg : CandleAggregator) (point : MarketDataPoint) :
    Option (CandleAggregator × CandleAggregationUpdate) :=
  let symbol := rt.normalize point.quote.symbol
  match bucketStart point.quote.providerTimestampMs agg.timeframe with
  | none => none
  | some openTimeMs =>
    let held := agg.symbols.get symbol
    let after := SymbolCandles.add held symbol openTimeMs point.quote
    let candle := SymbolCandles.candleWith held symbol openTimeMs point.quote
    some ({ agg with symbols := agg.symbols.insert symbol (after.trim agg.maxCandlesPerSymbol) },
      ⟨materialize agg.timeframe candle (openTimeMs < after.latestBucket),
        SymbolCandles.newlyCompleted held agg.timeframe openTimeMs⟩)

/-- `getCandles`. -/
def getCandles (rt : Runtime) (agg : CandleAggregator) (symbol : JsString) : List Candle :=
  (agg.symbols.get (rt.normalize symbol)).elim [] fun held => held.list agg.timeframe

/-- `getSymbols`. -/
def getSymbols (agg : CandleAggregator) : List JsString := agg.symbols.entries.map Prod.fst

/-- `reset`. -/
def reset (agg : CandleAggregator) : CandleAggregator :=
  { agg with symbols := ⟨[], List.Pairwise.nil⟩ }

end CandleAggregator

/-- `comparePoints`. -/
def comparePoints (rt : Runtime) (left right : MarketDataPoint) : ℤ :=
  let l := left.quote
  let r := right.quote
  if l.providerTimestampMs - r.providerTimestampMs ≠ 0 then
    l.providerTimestampMs - r.providerTimestampMs
  else if l.receivedAtMs - r.receivedAtMs ≠ 0 then l.receivedAtMs - r.receivedAtMs
  else rt.localeCompare l.eventId r.eventId

/-- `[...points].sort(comparePoints)`, which is stable. -/
def sortPoints (rt : Runtime) (points : List MarketDataPoint) : List MarketDataPoint :=
  points.insertionSort fun left right => comparePoints rt left right ≤ 0

namespace CandleAggregator

/-- The loop of `rebuild`: the aggregator as it is at the end or at the exception, and whether there
was one. -/
def ingestAll (rt : Runtime) : CandleAggregator → List MarketDataPoint → CandleAggregator × Bool
  | agg, [] => (agg, false)
  | agg, point :: points =>
    match agg.ingest rt point with
    | none => (agg, true)
    | some (agg', _) => agg'.ingestAll rt points

/-- `rebuild`. -/
def rebuild (rt : Runtime) (agg : CandleAggregator) (points : List MarketDataPoint) :
    CandleAggregator × Bool :=
  agg.reset.ingestAll rt (sortPoints rt points)

end CandleAggregator

/-! ## Points that can be exchanged -/

section Exchange

variable {rt : Runtime} {agg : CandleAggregator} {a b point : MarketDataPoint}
  {points : List MarketDataPoint} {quote quote' : NormalizedQuote} {symbol : JsString}
  {openTimeMs openTimeMs' : ℤ} {held : Option SymbolCandles}

/-- A quote without a cumulative volume neither reads nor sets the last one. -/
theorem volumeContribution_eq (h : quote.cumulativeVolume = none) (previous : Option ℚ) :
    volumeContribution quote previous = ((volumeContribution quote none).1, previous) := by
  unfold volumeContribution
  rw [h]
  cases quote.lastSize <;> rfl

namespace SymbolCandles

/-- A quote leaves the candles of other times. -/
theorem get_candles_add_ne (h : openTimeMs' ≠ openTimeMs) :
    (add held symbol openTimeMs quote).candles.get openTimeMs' =
      held.bind fun s => s.candles.get openTimeMs' := by
  unfold add
  dsimp only
  rw [Dict.get_insert_ne h]
  cases held <;> rfl

/-- A quote of another bucket leaves the candle of this one as it is, apart from the volume. -/
theorem candleWith_add (h : openTimeMs' ≠ openTimeMs)
    (hvolume : (volumeContribution quote' (add held symbol openTimeMs quote).cumulativeVolume).1 =
      (volumeContribution quote' (held.bind cumulativeVolume)).1) :
    candleWith (some (add held symbol openTimeMs quote)) symbol openTimeMs' quote' =
      candleWith held symbol openTimeMs' quote' := by
  unfold candleWith
  rw [Option.bind_some, hvolume, Option.bind_some, get_candles_add_ne h]

/-- Quotes of two buckets, one of them without a cumulative volume, are added in either order. -/
theorem add_comm (hne : openTimeMs ≠ openTimeMs')
    (hvolume : quote.cumulativeVolume = none ∨ quote'.cumulativeVolume = none) :
    add (some (add held symbol openTimeMs quote)) symbol openTimeMs' quote' =
      add (some (add held symbol openTimeMs' quote')) symbol openTimeMs quote := by
  -- Of the two volumes one is none, so neither contribution depends on the other quote.
  have hsecond : (volumeContribution quote' (add held symbol openTimeMs quote).cumulativeVolume).1 =
      (volumeContribution quote' (held.bind cumulativeVolume)).1 := by
    show (volumeContribution quote' (volumeContribution quote (held.bind cumulativeVolume)).2).1 = _
    rcases hvolume with hnone | hnone
    · rw [volumeContribution_eq hnone]
    · rw [volumeContribution_eq hnone, volumeContribution_eq hnone (held.bind _)]
  have hfirst : (volumeContribution quote (add held symbol openTimeMs' quote').cumulativeVolume).1 =
      (volumeContribution quote (held.bind cumulativeVolume)).1 := by
    show (volumeContribution quote (volumeContribution quote' (held.bind cumulativeVolume)).2).1 = _
    rcases hvolume with hnone | hnone
    · rw [volumeContribution_eq hnone, volumeContribution_eq hnone (held.bind _)]
    · rw [volumeContribution_eq hnone]
  have hlast : (volumeContribution quote'
    (volumeContribution quote (held.bind cumulativeVolume)).2).2 =
      (volumeContribution quote (volumeContribution quote' (held.bind cumulativeVolume)).2).2 := by
    rcases hvolume with hnone | hnone
    · have hkeep (p : Option ℚ) : (volumeContribution quote p).2 = p := by
        rw [volumeContribution_eq hnone]
      rw [hkeep, hkeep]
    · have hkeep (p : Option ℚ) : (volumeContribution quote' p).2 = p := by
        rw [volumeContribution_eq hnone]
      rw [hkeep, hkeep]
  -- Each quote goes into its own candle.
  have hcandle := @candleWith_add quote quote' symbol openTimeMs openTimeMs' held hne.symm hsecond
  have hcandle' := @candleWith_add quote' quote symbol openTimeMs' openTimeMs held hne hfirst
  unfold add at hcandle hcandle' ⊢
  dsimp only [Option.elim_some, Option.bind_some] at hcandle hcandle' ⊢
  rw [hcandle, hcandle', Dict.insert_comm hne, hlast]
  congr 1
  cases held with
  | none =>
    dsimp only [Option.elim_none]
    split_ifs <;> omega
  | some h =>
    dsimp only [Option.elim_some]
    split_ifs <;> omega

end SymbolCandles

namespace CandleAggregator

/-- `ingest` without the limit on the number of candles. -/
def add (rt : Runtime) (agg : CandleAggregator) (point : MarketDataPoint) : CandleAggregator :=
  let symbol := rt.normalize point.quote.symbol
  { agg with
    symbols := agg.symbols.insert symbol
      (SymbolCandles.add (agg.symbols.get symbol) symbol
        (bucketOf point.quote.providerTimestampMs agg.timeframe) point.quote) }

/-- The order of two points plays no part: they are of different symbols, or of different buckets
and not both with a cumulative volume. -/
def Exchangeable (rt : Runtime) (timeframe : Timeframe) (a b : MarketDataPoint) : Prop :=
  rt.normalize a.quote.symbol ≠ rt.normalize b.quote.symbol ∨
    (bucketOf a.quote.providerTimestampMs timeframe ≠
    bucketOf b.quote.providerTimestampMs timeframe ∧
      (a.quote.cumulativeVolume = none ∨ b.quote.cumulativeVolume = none))

instance (rt : Runtime) (timeframe : Timeframe) (a b : MarketDataPoint) :
    Decidable (Exchangeable rt timeframe a b) := inferInstanceAs (Decidable (_ ∨ _))

/-- Points that can be exchanged are added in either order. -/
theorem add_comm (h : Exchangeable rt agg.timeframe a b) :
    (agg.add rt a).add rt b = (agg.add rt b).add rt a := by
  unfold add
  dsimp only
  rcases eq_or_ne (rt.normalize a.quote.symbol) (rt.normalize b.quote.symbol) with hsame | hne
  · obtain ⟨hbucket, hvolume⟩ := h.resolve_left fun hne => hne hsame
    rw [hsame, Dict.get_insert_self, Dict.get_insert_self, Dict.insert_insert_self,
      Dict.insert_insert_self, SymbolCandles.add_comm hbucket hvolume]
  · rw [Dict.get_insert_ne hne.symm, Dict.get_insert_ne hne, Dict.insert_comm hne]

/-- Points of which any two are in order or can be exchanged give the same candles when they are
sorted. -/
theorem foldl_add_sortPoints
    (h : points.Pairwise fun a b => comparePoints rt a b ≤ 0 ∨ Exchangeable rt agg.timeframe a b) :
    (sortPoints rt points).foldl (add rt) agg = points.foldl (add rt) agg := by
  have hcomm : points.Pairwise fun a b => comparePoints rt a b ≤ 0 ∨
      ∀ agg' : CandleAggregator, agg'.timeframe = agg.timeframe →
        (agg'.add rt a).add rt b = (agg'.add rt b).add rt a :=
    h.imp fun hab => hab.imp_right fun hex agg' htf => add_comm (htf ▸ hex)
  have hkeep : ∀ (agg' : CandleAggregator) (point : MarketDataPoint),
    agg'.timeframe = agg.timeframe →
      (agg'.add rt point).timeframe = agg.timeframe := fun _ _ htf => htf
  exact Lib.foldl_insertionSort hkeep rfl hcomm

end CandleAggregator

end Exchange

end MarketDataGateway.Engine

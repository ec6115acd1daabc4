import MarketDataGateway.Engine.Latest
import Mathlib.Data.Finset.Card

/-!
# Live and rebuilt candles

A store folds the points that its guard accepts in the order in which they come, and `setTimeframe`
folds the retained events again, in the order of `comparePoints`. `Held` says that the events of a
store are the accepted points of each symbol in their order, which holds while none has been
trimmed, and `Matches` that its candles are those of the accepted points, folded by `add`. Both
paths lead there (`matches_feedAll`, `matches_setTimeframe`) if any two accepted points of a symbol
are in order, or can be exchanged (`InOrder`).
-/

namespace MarketDataGateway.Engine

open Lib (Dict InsertionMap)
open MarketData (JsString MarketDataPoint NormalizedQuote Runtime js)

/-- The points that a guard accepts one after another. -/
def acceptedPoints (g : TemporalIntegrityGuard) : List MarketDataPoint → List MarketDataPoint
  | [] => []
  | point :: points =>
    let rest := acceptedPoints (g.evaluate point).1 points
    if g.Accepts point then point :: rest else rest

/-- The points of a symbol. -/
def ofSymbol (rt : Runtime) (symbol : JsString) (points : List MarketDataPoint) :
    List MarketDataPoint :=
  points.filter fun point => rt.normalize point.quote.symbol = symbol

/-- The buckets of the points of a symbol. -/
def bucketsOf (rt : Runtime) (timeframe : Timeframe) (symbol : JsString)
    (points : List MarketDataPoint) : Finset ℤ :=
  ((ofSymbol rt symbol points).map fun point =>
    bucketOf point.quote.providerTimestampMs timeframe).toFinset

/-- Any two points of a symbol are in the order of `comparePoints`, or in different buckets and not
both with a cumulative volume. -/
def InOrder (rt : Runtime) (timeframe : Timeframe) (points : List MarketDataPoint) : Prop :=
  points.Pairwise fun a b =>
    comparePoints rt a b ≤ 0 ∨ CandleAggregator.Exchangeable rt timeframe a b

instance (rt : Runtime) (timeframe : Timeframe) (points : List MarketDataPoint) :
    Decidable (InOrder rt timeframe points) := inferInstanceAs (Decidable (List.Pairwise _ _))

/-- No symbol has more buckets than candles are kept. -/
def CandlesFit (rt : Runtime) (timeframe : Timeframe) (maximum : ℕ+)
    (points : List MarketDataPoint) :
    Prop :=
  ∀ symbol, (bucketsOf rt timeframe symbol points).card ≤ maximum

variable {rt : Runtime} {timeframe : Timeframe} {maximum : ℕ+} {points rest : List MarketDataPoint}
  {point : MarketDataPoint} {symbol : JsString} {agg : CandleAggregator}

/-- Candles that fit with more points fit without them. -/
theorem CandlesFit.of_append (h : CandlesFit rt timeframe maximum (points ++ rest)) :
    CandlesFit rt timeframe maximum points := by
  intro symbol
  refine le_trans (Finset.card_le_card ?_) (h symbol)
  intro bucket hbucket
  unfold bucketsOf ofSymbol at hbucket ⊢
  rw [List.filter_append, List.map_append, List.toFinset_append]
  exact Finset.mem_union_left _ hbucket

/-! ## The aggregator -/

namespace CandleAggregator

/-- The candles are of buckets of the points. -/
def BucketsIn (rt : Runtime) (agg : CandleAggregator) (points : List MarketDataPoint) : Prop :=
  ∀ symbol held, agg.symbols.get symbol = some held → ∀ e ∈ held.candles.entries,
    e.1 ∈ bucketsOf rt agg.timeframe symbol points

/-- The buckets of points with one more are theirs and its own. -/
theorem mem_bucketsOf_append {bucket : ℤ} :
    bucket ∈ bucketsOf rt timeframe symbol (points ++ [point]) ↔
      bucket ∈ bucketsOf rt timeframe symbol points ∨
        (rt.normalize point.quote.symbol = symbol ∧
          bucket = bucketOf point.quote.providerTimestampMs timeframe) := by
  unfold bucketsOf ofSymbol
  rw [List.filter_append, List.map_append, List.toFinset_append, Finset.mem_union]
  refine or_congr_right ?_
  rw [List.filter_singleton]
  by_cases h : rt.normalize point.quote.symbol = symbol
  · simp [h]
  · simp [h]

/-- A point that is added adds its bucket. -/
theorem BucketsIn.add (h : agg.BucketsIn rt points) :
    (agg.add rt point).BucketsIn rt (points ++ [point]) := by
  intro symbol held hheld e he
  rw [mem_bucketsOf_append]
  unfold CandleAggregator.add at hheld
  dsimp only at hheld
  rcases eq_or_ne symbol (rt.normalize point.quote.symbol) with rfl | hne
  · rw [Dict.get_insert_self] at hheld
    obtain rfl := Option.some.inj hheld
    unfold SymbolCandles.add at he
    rcases Lib.mem_insertKey he with rfl | hold
    · exact Or.inr ⟨rfl, rfl⟩
    · left
      cases hbefore : agg.symbols.get (rt.normalize point.quote.symbol) with
      | none =>
        rw [hbefore] at hold
        exact absurd hold List.not_mem_nil
      | some before =>
        rw [hbefore] at hold
        exact h _ before hbefore e hold
  · rw [Dict.get_insert_ne hne] at hheld
    exact Or.inl (h symbol held hheld e he)

/-- There are as many candles as buckets at most. -/
theorem BucketsIn.length_le (h : agg.BucketsIn rt points) {held : SymbolCandles}
    (hheld : agg.symbols.get symbol = some held) :
    held.candles.entries.length ≤ (bucketsOf rt agg.timeframe symbol points).card := by
  have hnodup : (held.candles.entries.map Prod.fst).Nodup :=
    List.pairwise_map.2 (held.candles.sorted.imp fun hlt => hlt.ne)
  rw [← List.length_map (f := Prod.fst), ← List.toFinset_card_of_nodup hnodup]
  refine Finset.card_le_card fun bucket hbucket => ?_
  obtain ⟨e, he, rfl⟩ := List.mem_map.1 (List.mem_toFinset.1 hbucket)
  exact h symbol held hheld e he

/-- Within the limit on the number of candles, `ingest` adds the point. -/
theorem ingest_eq_add (h : agg.BucketsIn rt points) (hpoint : 0 ≤ point.quote.providerTimestampMs)
    (hfit : CandlesFit rt agg.timeframe agg.maxCandlesPerSymbol (points ++ [point])) :
    ∃ update, agg.ingest rt point = some (agg.add rt point, update) := by
  have hadded : (agg.add rt point).BucketsIn rt (points ++ [point]) := h.add
  have hself : (agg.add rt point).symbols.get (rt.normalize point.quote.symbol) =
      some (SymbolCandles.add (agg.symbols.get (rt.normalize point.quote.symbol))
        (rt.normalize point.quote.symbol)
        (bucketOf point.quote.providerTimestampMs agg.timeframe) point.quote) :=
    Dict.get_insert_self
  have hlength := (hadded.length_le hself).trans (hfit (rt.normalize point.quote.symbol))
  unfold ingest bucketStart
  rw [if_neg (by omega)]
  dsimp only
  refine ⟨_, congrArg some (Prod.ext ?_ rfl)⟩
  unfold SymbolCandles.trim add
  dsimp only
  congr 2
  exact SymbolCandles.ext (Dict.ext (trimStart_eq hlength)) rfl rfl

/-- A new aggregator has no buckets. -/
theorem bucketsIn_new : (new timeframe maximum).BucketsIn rt [] := fun _ _ h => nomatch h

/-- Within the limit, the loop of `rebuild` adds the points, and does not throw. -/
theorem ingestAll_eq_foldl (h : agg.BucketsIn rt points)
    (hrest : ∀ point ∈ rest, 0 ≤ point.quote.providerTimestampMs)
    (hfit : CandlesFit rt agg.timeframe agg.maxCandlesPerSymbol (points ++ rest)) :
    agg.ingestAll rt rest = (rest.foldl (add rt) agg, false) := by
  induction rest generalizing agg points with
  | nil => rfl
  | cons point rest ih =>
    have happend : points ++ point :: rest = points ++ [point] ++ rest := by simp
    rw [happend] at hfit
    obtain ⟨update, hingest⟩ := ingest_eq_add h (hrest point List.mem_cons_self) hfit.of_append
    rw [ingestAll, hingest]
    exact ih h.add (fun p hp => hrest p (List.mem_cons_of_mem point hp)) hfit

/-- The loop of `rebuild` does not throw for points from 1970 on. -/
theorem ingestAll_snd (hrest : ∀ point ∈ rest, 0 ≤ point.quote.providerTimestampMs) :
    (agg.ingestAll rt rest).2 = false := by
  induction rest generalizing agg with
  | nil => rfl
  | cons point rest ih =>
    have hpoint := hrest point List.mem_cons_self
    rw [ingestAll]
    cases hingest : agg.ingest rt point with
    | none =>
      unfold ingest bucketStart at hingest
      rw [if_neg (by omega)] at hingest
      exact nomatch hingest
    | some result => exact ih fun p hp => hrest p (List.mem_cons_of_mem point hp)

/-- Points that are sorted are the same points. -/
theorem mem_sortPoints : point ∈ sortPoints rt points ↔ point ∈ points :=
  List.mem_insertionSort _

/-- Points that are sorted have the same buckets. -/
theorem bucketsOf_sortPoints :
    bucketsOf rt timeframe symbol (sortPoints rt points) =
    bucketsOf rt timeframe symbol points := by
  ext bucket
  unfold bucketsOf ofSymbol
  simp only [List.mem_toFinset, List.mem_map, List.mem_filter, mem_sortPoints]

/-- A rebuild from points in order adds them in the order that they have. -/
theorem rebuild_eq_foldl (hpoints : ∀ point ∈ points, 0 ≤ point.quote.providerTimestampMs)
    (hfit : CandlesFit rt timeframe maximum points) (horder : InOrder rt timeframe points) :
    (new timeframe maximum).rebuild rt points =
      (points.foldl (add rt) (new timeframe maximum), false) := by
  have hsorted : CandlesFit rt timeframe maximum ([] ++ sortPoints rt points) := fun symbol => by
    rw [List.nil_append, bucketsOf_sortPoints]
    exact hfit symbol
  calc (new timeframe maximum).rebuild rt points
      = (new timeframe maximum).ingestAll rt (sortPoints rt points) := rfl
    _ = ((sortPoints rt points).foldl (add rt) (new timeframe maximum), false) :=
        ingestAll_eq_foldl bucketsIn_new (fun p hp => hpoints p (mem_sortPoints.1 hp)) hsorted
    _ = (points.foldl (add rt) (new timeframe maximum), false) := by
        rw [@foldl_add_sortPoints rt (new timeframe maximum) points horder]

/-- Points leave the timeframe. -/
@[simp] theorem timeframe_foldl_add : (points.foldl (add rt) agg).timeframe = agg.timeframe := by
  induction points generalizing agg with
  | nil => rfl
  | cons point points ih => exact ih

/-- Points leave the bound on the candles. -/
@[simp] theorem maxCandlesPerSymbol_foldl_add :
    (points.foldl (add rt) agg).maxCandlesPerSymbol = agg.maxCandlesPerSymbol := by
  induction points generalizing agg with
  | nil => rfl
  | cons point points ih => exact ih

/-- What a fold holds of a symbol is what the points of that symbol make. -/
theorem get_foldl_add : (points.foldl (add rt) agg).symbols.get symbol =
    (ofSymbol rt symbol points).foldl
      (fun held point => some (SymbolCandles.add held (rt.normalize point.quote.symbol)
        (bucketOf point.quote.providerTimestampMs agg.timeframe) point.quote))
      (agg.symbols.get symbol) := by
  have hself (agg' : CandleAggregator) (point : MarketDataPoint)
    (htf : agg'.timeframe = agg.timeframe) :
      (agg'.add rt point).symbols.get (rt.normalize point.quote.symbol) =
        some (SymbolCandles.add (agg'.symbols.get (rt.normalize point.quote.symbol))
          (rt.normalize point.quote.symbol)
          (bucketOf point.quote.providerTimestampMs agg.timeframe) point.quote) := by
    rw [← htf]
    exact Dict.get_insert_self
  exact @Lib.foldl_filter_key CandleAggregator MarketDataPoint JsString
    (Option SymbolCandles) (add rt)
    (fun agg' => agg'.timeframe = agg.timeframe) points agg _
    (fun point => rt.normalize point.quote.symbol) (fun agg' symbol =>
      agg'.symbols.get symbol) _ symbol
    (fun _ _ htf => htf) rfl hself fun _ _ hne => Dict.get_insert_ne hne

/-- The symbols of an aggregator are as `trim` and `toUpperCase` leave them. -/
theorem normalize_of_get
    (h : (points.foldl (add rt) (new timeframe maximum)).symbols.get symbol ≠ none) :
    rt.normalize symbol = symbol := by
  by_contra hne
  have hnil : ofSymbol rt symbol points = [] := by
    refine List.filter_eq_nil_iff.2 fun point _ => ?_
    simp only [decide_eq_true_eq]
    rintro rfl
    exact hne (rt.normalize_normalize point.quote.symbol)
  rw [get_foldl_add, hnil] at h
  exact h rfl

/-- The candles of a symbol as a snapshot has them. -/
def shownCandles (agg : CandleAggregator) (symbol : JsString) : Option (List Candle) :=
  (agg.symbols.get symbol).map fun held => held.list agg.timeframe

/-- The candles of a symbol that is normal are the ones shown. -/
theorem getCandles_eq (h : rt.normalize symbol = symbol) {held : SymbolCandles}
    (hheld : agg.symbols.get symbol = some held) :
    some (agg.getCandles rt symbol) = agg.shownCandles symbol := by
  unfold getCandles shownCandles
  rw [h, hheld]
  rfl

end CandleAggregator

/-! ## The store -/

namespace MarketDataStore

/-- The store after a sequence of `ingest` calls. -/
def feedAll (rt : Runtime) (s : MarketDataStore)
    (points : List MarketDataPoint) : MarketDataStore :=
  points.foldl (fun s point => (s.ingest rt point).store) s

/-- The store after a sequence of `setTimeframe` calls. -/
def switchAll (rt : Runtime) (s : MarketDataStore)
    (timeframes : List Timeframe) : MarketDataStore :=
  timeframes.foldl (fun s timeframe => (s.setTimeframe rt timeframe).1) s

variable {s t : MarketDataStore} {options : MarketDataStoreOptions}

/-- The events of a store are the points that have been accepted, those of each symbol in their
order. -/
structure Held (rt : Runtime) (options : MarketDataStoreOptions) (points : List MarketDataPoint)
    (s : MarketDataStore) : Prop where
  depth : s.batchDepth = 0
  eventRetention : s.eventRetentionPerSymbol = options.eventRetentionPerSymbol
  candleRetention : s.candleRetentionPerSymbol = options.candleRetentionPerSymbol
  retained : ∀ symbol, s.retained symbol = ofSymbol rt symbol points

/-- The candles of a store, and of its snapshot, are those of the accepted points. -/
structure Matches (rt : Runtime) (timeframe : Timeframe) (maximum : ℕ+)
    (points : List MarketDataPoint) (s : MarketDataStore) : Prop where
  candles : ∀ symbol, s.candleSnapshotsBySymbol.get symbol =
    (points.foldl (CandleAggregator.add rt) (.new timeframe maximum)).shownCandles symbol
  snapshot : s.snapshot.candles = s.candleSnapshotsBySymbol

/-- The points that are held for a symbol are those of it. -/
theorem mem_of_mem_entries (hs : Held rt options points s) {e : JsString × List MarketDataPoint}
    (he : e ∈ s.eventsBySymbol.entries) : e.2 = ofSymbol rt e.1 points := by
  have hget : s.eventsBySymbol.get e.1 = some e.2 := InsertionMap.mem_entries_iff.1 he
  rw [← hs.retained e.1, MarketDataStore.retained, hget]
  rfl

/-- The points of a symbol among all retained events are its events. -/
theorem ofSymbol_flatten (hs : Held rt options points s) :
    ofSymbol rt symbol s.eventsBySymbol.values.flatten = ofSymbol rt symbol points := by
  rw [← hs.retained symbol]
  refine InsertionMap.filter_flatten_values fun e he point hpoint => ?_
  rw [mem_of_mem_entries hs he] at hpoint
  exact of_decide_eq_true (List.mem_filter.1 hpoint).2

/-- The points that are held are points. -/
theorem mem_flatten (hs : Held rt options points s)
    (h : point ∈ s.eventsBySymbol.values.flatten) : point ∈ points := by
  have hmem : point ∈ ofSymbol rt (rt.normalize point.quote.symbol)
      s.eventsBySymbol.values.flatten :=
    List.mem_filter.2 ⟨h, decide_eq_true rfl⟩
  rw [ofSymbol_flatten hs] at hmem
  exact List.mem_of_mem_filter hmem

/-- The retained events of all symbols are in order if the accepted points are. -/
theorem inOrder_flatten (hs : Held rt options points s) (h : InOrder rt timeframe points) :
    InOrder rt timeframe s.eventsBySymbol.values.flatten := by
  refine List.pairwise_flatten.2 ⟨fun l hl => ?_, ?_⟩
  · obtain ⟨e, he, rfl⟩ := List.mem_map.1 hl
    rw [mem_of_mem_entries hs he]
    exact h.filter _
  · -- Points of two lists are of two symbols.
    refine List.pairwise_map.2
      (List.Pairwise.imp_of_mem ?_ (List.pairwise_map.1 s.eventsBySymbol.nodup))
    intro e e' he he' hne a ha b hb
    rw [mem_of_mem_entries hs he] at ha
    rw [mem_of_mem_entries hs he'] at hb
    have hsymbol : rt.normalize a.quote.symbol = e.1 := of_decide_eq_true (List.mem_filter.1 ha).2
    have hsymbol' : rt.normalize b.quote.symbol = e'.1 := of_decide_eq_true (List.mem_filter.1 hb).2
    refine Or.inr (Or.inl ?_)
    rw [hsymbol, hsymbol']
    exact hne

/-- Candles that fit with all points fit with those held. -/
theorem candlesFit_flatten (hs : Held rt options points s)
    (h : CandlesFit rt timeframe maximum points) :
    CandlesFit rt timeframe maximum s.eventsBySymbol.values.flatten := by
  intro symbol
  unfold bucketsOf
  rw [ofSymbol_flatten hs]
  exact h symbol

/-- The events of no symbol are trimmed. -/
def EventsFit (rt : Runtime) (maximum : ℕ+) (points : List MarketDataPoint) : Prop :=
  ∀ symbol, (ofSymbol rt symbol points).length ≤ maximum

/-- Events that fit with more points fit without them. -/
theorem EventsFit.of_append (h : EventsFit rt maximum (points ++ rest)) :
    EventsFit rt maximum points := by
  intro symbol
  have hle := h symbol
  unfold ofSymbol at hle ⊢
  rw [List.filter_append, List.length_append] at hle
  omega

/-- The points of a symbol, with one more. -/
theorem ofSymbol_append : ofSymbol rt symbol (points ++ [point]) =
    if rt.normalize point.quote.symbol = symbol then ofSymbol rt symbol points ++ [point]
    else ofSymbol rt symbol points := by
  unfold ofSymbol
  rw [List.filter_append, List.filter_singleton]
  by_cases h : rt.normalize point.quote.symbol = symbol
  · simp [h]
  · simp [h]

/-- A point that the guard accepts is held. -/
theorem Held.retain (hs : Held rt options points s)
    (hfit : EventsFit rt options.eventRetentionPerSymbol (points ++ [point])) (symbol : JsString) :
    (s.retain rt point).retained symbol = ofSymbol rt symbol (points ++ [point]) := by
  rw [ofSymbol_append]
  split_ifs with h
  · have hlength : (s.retained symbol ++ [point]).length ≤ s.eventRetentionPerSymbol := by
      have hone := hfit symbol
      rw [ofSymbol_append, if_pos h] at hone
      rw [hs.retained, hs.eventRetention]
      exact hone
    show ((s.eventsBySymbol.set _ _).get _).getD [] = _
    rw [h, InsertionMap.get_set_self, Option.getD_some, trimStart_eq hlength, hs.retained]
  · rw [retained_retain_ne (Ne.symm h), hs.retained]

/-- The points that are accepted with one more call. -/
def acceptedWith (g : TemporalIntegrityGuard) (points : List MarketDataPoint)
    (point : MarketDataPoint) :
    List MarketDataPoint :=
  if g.Accepts point then points ++ [point] else points

/-- To publish changes nothing that is held. -/
theorem Held.publish (h : Held rt options points s) : Held rt options points s.publish :=
  ⟨publish_batchDepth.trans h.depth, publish_eventRetentionPerSymbol.trans h.eventRetention,
    publish_candleRetentionPerSymbol.trans h.candleRetention, fun symbol =>
      (retained_of_eq publish_eventsBySymbol).trans (h.retained symbol)⟩

/-- `ingest` holds the points that have been accepted. -/
theorem held_ingest (hs : Held rt options points s)
    (hfit : EventsFit rt options.eventRetentionPerSymbol
      (acceptedWith s.integrityGuard points point)) :
    Held rt options (acceptedWith s.integrityGuard points point) (s.ingest rt point).store := by
  have hends := s.ingest_cases rt point
  unfold acceptedWith at hfit ⊢
  generalize s.ingest rt point = result at hends
  cases hends with
  | quarantined g entry hno hwatermarks hseen =>
    rw [if_neg hno]
    exact Held.publish ⟨hs.depth, hs.eventRetention, hs.candleRetention, hs.retained⟩
  | duplicate hgeneration hseen =>
    rw [if_neg fun h => h.unseen hseen]
    exact Held.publish ⟨hs.depth, hs.eventRetention, hs.candleRetention, hs.retained⟩
  | threw h hlt =>
    rw [if_pos h] at hfit ⊢
    exact ⟨hs.depth, hs.eventRetention, hs.candleRetention, hs.retain hfit⟩
  | accepted h agg update reason gap hge hagg =>
    rw [if_pos h] at hfit ⊢
    exact Held.publish ⟨hs.depth, hs.eventRetention, hs.candleRetention, hs.retain hfit⟩

/-- The points that a guard accepts, the first one first. -/
theorem acceptedPoints_cons (g : TemporalIntegrityGuard) :
    points ++ acceptedPoints g (point :: rest) =
      acceptedWith g points point ++ acceptedPoints (g.evaluate point).1 rest := by
  unfold acceptedWith
  rw [acceptedPoints]
  split_ifs
  · simp
  · rfl

/-- A sequence of calls holds the points that the guard accepts. -/
theorem held_feedAll (hs : Held rt options points s)
    (hfit : EventsFit rt options.eventRetentionPerSymbol
      (points ++ acceptedPoints s.integrityGuard rest)) :
    Held rt options (points ++ acceptedPoints s.integrityGuard rest) (s.feedAll rt rest) := by
  induction rest generalizing s points with
  | nil =>
    rw [acceptedPoints, List.append_nil]
    exact hs
  | cons point rest ih =>
    rw [acceptedPoints_cons] at hfit ⊢
    have hstep := held_ingest hs hfit.of_append
    rw [← @ingest_integrityGuard rt] at hfit ⊢
    exact ih hstep hfit

/-! ## Both paths -/

/-- The aggregator of a store has added the accepted points, and its candles are on display. -/
structure Live (rt : Runtime) (options : MarketDataStoreOptions) (points : List MarketDataPoint)
    (s : MarketDataStore) : Prop extends
    Matches rt options.timeframe options.candleRetentionPerSymbol points s where
  depth : s.batchDepth = 0
  aggregator : s.aggregator = points.foldl (CandleAggregator.add rt)
    (.new options.timeframe options.candleRetentionPerSymbol)

/-- After a `publish` the candles are on display. -/
theorem live_publish (hdepth : s.batchDepth = 0)
    (haggregator : s.aggregator = points.foldl (CandleAggregator.add rt)
      (.new options.timeframe options.candleRetentionPerSymbol))
    (hcandles : ∀ symbol, s.candleSnapshotsBySymbol.get symbol = s.aggregator.shownCandles symbol) :
    Live rt options points s.publish where
  candles symbol := by
    rw [publish_candleSnapshotsBySymbol, hcandles symbol, haggregator]
  snapshot := by
    rw [publish_snapshot hdepth]
    rfl
  depth := publish_batchDepth.trans hdepth
  aggregator := publish_aggregator.trans haggregator

/-- The buckets of an aggregator are those of its points. -/
theorem CandleAggregator.bucketsIn_foldl :
    CandleAggregator.BucketsIn rt (points.foldl (CandleAggregator.add rt) (.new timeframe maximum))
      points := by
  induction points using List.reverseRecOn with
  | nil => exact CandleAggregator.bucketsIn_new
  | append_singleton points point ih =>
    rw [List.foldl_append]
    exact ih.add

/-- `ingest` adds a point that is accepted, within the limit on the candles. -/
theorem live_ingest (hs : Live rt options points s)
    (hpoints : ∀ p ∈ acceptedWith s.integrityGuard points point, 0 ≤ p.quote.providerTimestampMs)
    (hfit : CandlesFit rt options.timeframe options.candleRetentionPerSymbol
      (acceptedWith s.integrityGuard points point)) :
    Live rt options (acceptedWith s.integrityGuard points point) (s.ingest rt point).store := by
  have hends := s.ingest_cases rt point
  have hcandles (symbol : JsString) :
      s.candleSnapshotsBySymbol.get symbol = s.aggregator.shownCandles symbol := by
    rw [hs.candles symbol, hs.aggregator]
  unfold acceptedWith at hpoints hfit ⊢
  generalize s.ingest rt point = result at hends
  cases hends with
  | quarantined g entry hno hwatermarks hseen =>
    rw [if_neg hno]
    exact live_publish hs.depth hs.aggregator hcandles
  | duplicate hgeneration hseen =>
    rw [if_neg fun h => h.unseen hseen]
    exact live_publish hs.depth hs.aggregator hcandles
  | threw h hlt =>
    -- The points are from 1970 on.
    rw [if_pos h] at hpoints
    have hge := hpoints point (List.mem_append_right points (List.mem_singleton_self point))
    omega
  | accepted h agg update reason gap hge hagg =>
    rw [if_pos h] at hfit ⊢
    -- A new point is added to the fold of those before it.
    have hbuckets : s.aggregator.BucketsIn rt points := by
      rw [hs.aggregator]
      exact CandleAggregator.bucketsIn_foldl
    have htimeframe : s.aggregator.timeframe = options.timeframe := by
      rw [hs.aggregator, CandleAggregator.timeframe_foldl_add]
      rfl
    have hmaximum : s.aggregator.maxCandlesPerSymbol = options.candleRetentionPerSymbol := by
      rw [hs.aggregator, CandleAggregator.maxCandlesPerSymbol_foldl_add]
      rfl
    obtain ⟨update', hadd⟩ := CandleAggregator.ingest_eq_add hbuckets hge
      (by rw [htimeframe, hmaximum]; exact hfit)
    obtain rfl : s.aggregator.add rt point = agg :=
      congrArg Prod.fst (Option.some.inj (hadd.symm.trans hagg))
    have hfold : s.aggregator.add rt point = (points ++ [point]).foldl (CandleAggregator.add rt)
        (.new options.timeframe options.candleRetentionPerSymbol) := by
      rw [List.foldl_append, ← hs.aggregator]
      rfl
    refine live_publish hs.depth hfold fun symbol => ?_
    show (s.candleSnapshotsBySymbol.insert (rt.normalize point.quote.symbol)
      ((s.aggregator.add rt point).getCandles rt (rt.normalize point.quote.symbol))).get symbol =
        (s.aggregator.add rt point).shownCandles symbol
    rcases eq_or_ne symbol (rt.normalize point.quote.symbol) with rfl | hne
    · rw [Dict.get_insert_self]
      exact CandleAggregator.getCandles_eq (rt.normalize_normalize _) Dict.get_insert_self
    · rw [Dict.get_insert_ne hne, hcandles symbol]
      unfold CandleAggregator.shownCandles CandleAggregator.add
      dsimp only
      rw [Dict.get_insert_ne hne]

/-- A live store stays live while it is fed. -/
theorem live_feedAll (hs : Live rt options points s)
    (hpoints : ∀ p ∈ points ++ acceptedPoints s.integrityGuard rest,
    0 ≤ p.quote.providerTimestampMs)
    (hfit : CandlesFit rt options.timeframe options.candleRetentionPerSymbol
      (points ++ acceptedPoints s.integrityGuard rest)) :
    Live rt options (points ++ acceptedPoints s.integrityGuard rest) (s.feedAll rt rest) := by
  induction rest generalizing s points with
  | nil =>
    rw [acceptedPoints, List.append_nil]
    exact hs
  | cons point rest ih =>
    rw [acceptedPoints_cons] at hpoints hfit ⊢
    have hstep := live_ingest hs (fun p hp => hpoints p (List.mem_append_left _ hp)) hfit.of_append
    rw [← @ingest_integrityGuard rt] at hpoints hfit ⊢
    exact ih hstep hpoints hfit

/-- The loop of `rebuildCandleSnapshots` changes the candles alone. -/
theorem foldl_refreshCandleSnapshot (keys : List JsString) :
    keys.foldl (refreshCandleSnapshot rt) s =
      { s with
        candleSnapshotsBySymbol := keys.foldl (fun d k => d.insert k (s.aggregator.getCandles rt k))
          s.candleSnapshotsBySymbol } := by
  induction keys generalizing s with
  | nil => rfl
  | cons key keys ih =>
    rw [List.foldl_cons, ih]
    rfl

/-- `rebuildCandleSnapshots` shows the candles of the aggregator. -/
theorem rebuildCandleSnapshots_get
    (h : ∀ symbol, s.aggregator.symbols.get symbol ≠ none → rt.normalize symbol = symbol) :
    (s.rebuildCandleSnapshots rt).candleSnapshotsBySymbol.get symbol =
      s.aggregator.shownCandles symbol := by
  unfold rebuildCandleSnapshots
  rw [foldl_refreshCandleSnapshot]
  dsimp only
  rw [Dict.get_foldl_insert]
  unfold CandleAggregator.getSymbols
  split_ifs with hmem
  · obtain ⟨held, hheld⟩ := Dict.mem_keys_iff.1 hmem
    exact CandleAggregator.getCandles_eq (h symbol (by rw [hheld]; simp)) hheld
  · have hnone : s.aggregator.symbols.get symbol = none := by
      by_contra hsome
      exact hmem (Dict.mem_keys_iff.2 (Option.ne_none_iff_exists'.1 hsome))
    unfold CandleAggregator.shownCandles
    rw [hnone]
    rfl

/-- `setTimeframe` does not throw and keeps the events. Another timeframe shows the candles of the
accepted points, if these are in order. -/
theorem setTimeframe_spec (hs : Held rt options points s)
    (hpoints : ∀ p ∈ points, 0 ≤ p.quote.providerTimestampMs) (timeframe : Timeframe) :
    (s.setTimeframe rt timeframe).2 = false ∧
    Held rt options points (s.setTimeframe rt timeframe).1 ∧
      (s.setTimeframe rt timeframe).1.timeframe = timeframe ∧
      (timeframe ≠ s.timeframe → CandlesFit rt timeframe options.candleRetentionPerSymbol points →
        InOrder rt timeframe points →
          Matches rt timeframe options.candleRetentionPerSymbol points
            (s.setTimeframe rt timeframe).1) := by
  have hflatten : ∀ p ∈ s.eventsBySymbol.values.flatten, 0 ≤ p.quote.providerTimestampMs :=
    fun p hp => hpoints p (mem_flatten hs hp)
  by_cases hsame : timeframe = s.timeframe
  · unfold setTimeframe
    rw [if_pos hsame]
    exact ⟨rfl, hs, hsame.symm, fun hne => absurd hsame hne⟩
  · have hthrew : ((CandleAggregator.new timeframe s.candleRetentionPerSymbol).rebuild rt
        s.eventsBySymbol.values.flatten).2 = false :=
      CandleAggregator.ingestAll_snd fun p hp =>
        hflatten p (CandleAggregator.mem_sortPoints.1 hp)
    unfold setTimeframe
    rw [if_neg hsame]
    dsimp only
    rw [hthrew, Bool.cond_false]
    obtain ⟨candles, hcandles⟩ : ∃ candles, rebuildCandleSnapshots rt
        { s with
          timeframe := timeframe
          aggregator := ((CandleAggregator.new timeframe s.candleRetentionPerSymbol).rebuild rt
            s.eventsBySymbol.values.flatten).1 } =
        { s with
          timeframe := timeframe
          aggregator := ((CandleAggregator.new timeframe s.candleRetentionPerSymbol).rebuild rt
            s.eventsBySymbol.values.flatten).1
          candleSnapshotsBySymbol := candles } := ⟨_, foldl_refreshCandleSnapshot _⟩
    rw [hcandles]
    refine ⟨rfl, Held.publish ⟨hs.depth, hs.eventRetention, hs.candleRetention, hs.retained⟩,
      publish_timeframe, fun _ hfit horder => ?_⟩
    have hrebuilt := CandleAggregator.rebuild_eq_foldl hflatten (candlesFit_flatten hs hfit)
      (inOrder_flatten hs horder)
    rw [← hs.candleRetention] at hrebuilt ⊢
    refine ⟨fun symbol => ?_, ?_⟩
    · have hget := @rebuildCandleSnapshots_get rt symbol
        { s with
          timeframe := timeframe
          aggregator := ((CandleAggregator.new timeframe s.candleRetentionPerSymbol).rebuild rt
            s.eventsBySymbol.values.flatten).1 }
        (by rw [hrebuilt]; exact fun symbol h => CandleAggregator.normalize_of_get h)
      rw [hcandles] at hget
      dsimp only at hget
      rw [publish_candleSnapshotsBySymbol, hget, hrebuilt]
      -- The same points of the symbol have been added, in the same order.
      unfold CandleAggregator.shownCandles
      rw [CandleAggregator.get_foldl_add, CandleAggregator.get_foldl_add, ofSymbol_flatten hs,
        CandleAggregator.timeframe_foldl_add, CandleAggregator.timeframe_foldl_add]
    · rw [publish_snapshot (by exact hs.depth)]
      rfl

/-- What is known of a store after switches of the timeframe. -/
structure Switched (rt : Runtime) (options : MarketDataStoreOptions) (points : List MarketDataPoint)
    (s : MarketDataStore) : Prop extends Held rt options points s where
  shown : CandlesFit rt s.timeframe options.candleRetentionPerSymbol points →
    InOrder rt s.timeframe points →
      Matches rt s.timeframe options.candleRetentionPerSymbol points s

/-- A switched store stays switched, with the last of the timeframes. -/
theorem switched_switchAll (hs : Switched rt options points s)
    (hpoints : ∀ p ∈ points, 0 ≤ p.quote.providerTimestampMs) (timeframes : List Timeframe) :
    Switched rt options points (s.switchAll rt timeframes) ∧
      (s.switchAll rt timeframes).timeframe = timeframes.getLastD s.timeframe := by
  induction timeframes generalizing s with
  | nil => exact ⟨hs, rfl⟩
  | cons timeframe timeframes ih =>
    obtain ⟨-, hheld, htimeframe, hshown⟩ := setTimeframe_spec hs.toHeld hpoints timeframe
    have hstep : Switched rt options points (s.setTimeframe rt timeframe).1 := by
      refine ⟨hheld, fun hfit horder => ?_⟩
      rw [htimeframe] at hfit horder ⊢
      by_cases hsame : timeframe = s.timeframe
      · have hkept : (s.setTimeframe rt timeframe).1 = s := by
          unfold setTimeframe
          rw [if_pos hsame]
        rw [hkept, hsame]
        exact hs.shown (hsame ▸ hfit) (hsame ▸ horder)
      · exact hshown hsame hfit horder
    obtain ⟨hlast, hend⟩ := ih hstep
    refine ⟨hlast, hend.trans ?_⟩
    rw [htimeframe, List.getLastD_cons]

/-- Points leave the timeframe of a store. -/
theorem timeframe_feedAll : (s.feedAll rt points).timeframe = s.timeframe := by
  induction points generalizing s with
  | nil => rfl
  | cons point points ih => exact ih.trans ingest_timeframe

/-- A new store holds no points. -/
theorem held_new (options : MarketDataStoreOptions) : Held rt options [] (new options) :=
  ⟨rfl, rfl, rfl, fun _ => rfl⟩

/-- A new store is live. -/
theorem live_new (options : MarketDataStoreOptions) : Live rt options [] (new options) :=
  ⟨⟨fun _ => rfl, rfl⟩, rfl, rfl⟩

/-- Switches of the timeframe lead to the candles of a store that has the last timeframe from the
start and has taken the same points, if no point that the guard accepts is before 1970, nothing is
trimmed, and any two accepted points of a symbol are in order or can be exchanged. -/
theorem candles_switchAll (rt : Runtime) (options : MarketDataStoreOptions)
    (points : List MarketDataPoint) (timeframes : List Timeframe)
    (hpoints : ∀ p ∈ acceptedPoints (new options).integrityGuard points,
      0 ≤ p.quote.providerTimestampMs)
    (hevents : EventsFit rt options.eventRetentionPerSymbol
      (acceptedPoints (new options).integrityGuard points))
    (hcandles : CandlesFit rt (timeframes.getLastD options.timeframe)
    options.candleRetentionPerSymbol
      (acceptedPoints (new options).integrityGuard points))
    (horder : InOrder rt (timeframes.getLastD options.timeframe)
      (acceptedPoints (new options).integrityGuard points)) :
    (((new options).feedAll rt points).switchAll rt timeframes).snapshot.candles =
      ((new { options with timeframe := timeframes.getLastD options.timeframe }).feedAll rt
        points).snapshot.candles := by
  have hheld := held_feedAll (held_new options) hevents
  -- Without a switch, the candles that are shown are those of the live store.
  have hstart : Switched rt options (acceptedPoints (new options).integrityGuard points)
      ((new options).feedAll rt points) := by
    refine ⟨hheld, fun hfit _ => ?_⟩
    rw [timeframe_feedAll] at hfit ⊢
    exact (live_feedAll (live_new options) hpoints hfit).toMatches
  obtain ⟨hswitched, htimeframe⟩ := switched_switchAll hstart hpoints timeframes
  rw [timeframe_feedAll] at htimeframe
  have hmatches := hswitched.shown (by rw [htimeframe]; exact hcandles)
    (by rw [htimeframe]; exact horder)
  rw [htimeframe] at hmatches
  -- Both stores show candles that match the accepted points in the last timeframe.
  have hlive := live_feedAll
    (live_new { options with timeframe := timeframes.getLastD options.timeframe }) hpoints hcandles
  rw [hmatches.snapshot, hlive.snapshot]
  exact Dict.ext_get fun symbol => (hmatches.candles symbol).trans (hlive.candles symbol).symm

/-! ## Points that the order of arrival and the sort take differently -/

/-- Events fit when there are no more than the bound. -/
theorem eventsFit_of_length (h : points.length ≤ maximum) : EventsFit rt maximum points :=
  fun _ => (List.length_filter_le _ _).trans h

/-- Candles fit when there are no more points than the bound. -/
theorem candlesFit_of_length (h : points.length ≤ maximum) :
    CandlesFit rt timeframe maximum points := by
  intro symbol
  calc (bucketsOf rt timeframe symbol points).card
      ≤ ((ofSymbol rt symbol points).map _).length := List.toFinset_card_le _
    _ ≤ points.length := by
        rw [List.length_map]
        exact List.length_filter_le _ _
    _ ≤ maximum := h

/-- Two quotes of one instant, the second of which has been received first. -/
def tiedPoints : List MarketDataPoint :=
  [{ samplePoint "1" 1 1 with quote := { sampleQuote "1" 1 with receivedAtMs := 2 } },
    samplePoint "2" 1 1]

/-- Two quotes of a minute, shown for five minutes and for one minute again. -/
theorem candles_switchAll_sample :
    (((new {}).feedAll Runtime.ascii [samplePoint "1" 1 1,
    samplePoint "2" 2 1]).switchAll Runtime.ascii
      [.fiveMinutes, .oneMinute]).snapshot.candles =
        ((new {}).feedAll Runtime.ascii [samplePoint "1" 1 1,
        samplePoint "2" 2 1]).snapshot.candles :=
  candles_switchAll Runtime.ascii {} [samplePoint "1" 1 1, samplePoint "2" 2 1]
    [.fiveMinutes, .oneMinute] (by decide +kernel)
    (eventsFit_of_length (by decide +kernel)) (candlesFit_of_length (by decide +kernel))
    (by decide +kernel)

/-- A switch and a switch back exchange the first and the last event of the candle. -/
theorem candles_switchAll_ties :
    ¬∀ (rt : Runtime) (options : MarketDataStoreOptions) (points : List MarketDataPoint)
      (timeframes : List Timeframe),
      EventsFit rt options.eventRetentionPerSymbol
        (acceptedPoints (new options).integrityGuard points) →
      CandlesFit rt (timeframes.getLastD options.timeframe) options.candleRetentionPerSymbol
        (acceptedPoints (new options).integrityGuard points) →
      (((new options).feedAll rt points).switchAll rt timeframes).snapshot.candles =
        ((new { options with timeframe := timeframes.getLastD options.timeframe }).feedAll rt
          points).snapshot.candles := by
  intro h
  have hsame := h Runtime.ascii {} tiedPoints [.fiveMinutes, .oneMinute]
    (eventsFit_of_length (by decide +kernel)) (candlesFit_of_length (by decide +kernel))
  have hfirst : (((((new {}).feedAll Runtime.ascii tiedPoints).switchAll Runtime.ascii
      [.fiveMinutes, .oneMinute]).snapshot.candles.get (js "A")).map fun candles =>
        candles.map Candle.firstEventId) = some [js "2"] := by decide +kernel
  have hlive : ((((new {}).feedAll Runtime.ascii tiedPoints).snapshot.candles.get (js "A")).map
      fun candles => candles.map Candle.firstEventId) = some [js "1"] := by decide +kernel
  rw [hsame] at hfirst
  exact absurd (hfirst.symm.trans hlive) (by decide +kernel)

end MarketDataStore

end MarketDataGateway.Engine

import MarketDataGateway.Engine.Rebuild
import MarketDataGateway.Lib.Greatest
import Mathlib.Data.Finset.Sort

/-!
# The candles that are retained

`ingest` trims the candles of a symbol after each point. That is the same as to add all points and
to trim once (`get_ingestAll`): a bucket that has been trimmed is never again among the last ones.
So the candles that are retained have missed no point (`candles_ingestAll`).
-/

namespace MarketDataGateway.Engine

open Lib (Dict)
open MarketData (JsString MarketDataPoint NormalizedQuote Runtime js)

namespace SymbolCandles

variable {held : Option SymbolCandles} {symbol : JsString} {openTimeMs : ℤ}
  {quote : NormalizedQuote}
  {maximum : ℕ+}

/-- The candle with one more quote, or a new one. -/
def nextCandle (symbol : JsString) (openTimeMs : ℤ) (quote : NormalizedQuote)
    (volume : Contribution) :
    Option MutableCandle → MutableCandle
  | none => openCandle symbol openTimeMs quote volume
  | some candle => updateCandle candle quote volume

/-- A quote that is added is the next candle of its time. -/
theorem candles_add : (add held symbol openTimeMs quote).candles.entries =
    Lib.insertKey openTimeMs
      (nextCandle symbol openTimeMs quote
        (volumeContribution quote (held.bind SymbolCandles.cumulativeVolume)).1
        (Lib.getKey openTimeMs (held.elim [] fun h => h.candles.entries)))
      (held.elim [] fun h => h.candles.entries) := by
  cases held with
  | none => rfl
  | some h =>
    unfold add candleWith nextCandle
    dsimp only [Option.elim_some, Option.bind_some, Dict.insert]
    show Lib.insertKey openTimeMs (match h.candles.get openTimeMs with
      | none => _
      | some candle => _) h.candles.entries = _
    rfl

/-- Whether the candles are trimmed before a quote is added makes no difference once they are
trimmed after it. -/
theorem trim_add (held : Option SymbolCandles) (symbol : JsString) (openTimeMs : ℤ)
    (quote : NormalizedQuote) (maximum : ℕ+) :
    (add (held.map fun h => h.trim maximum) symbol openTimeMs quote).trim maximum =
      (add held symbol openTimeMs quote).trim maximum := by
  cases held with
  | none => rfl
  | some h =>
    refine SymbolCandles.ext (Dict.ext ?_) rfl rfl
    show trimStart (add (some (h.trim maximum)) symbol openTimeMs quote).candles.entries maximum =
      trimStart (add (some h) symbol openTimeMs quote).candles.entries maximum
    rw [candles_add, candles_add]
    exact Lib.limit_insertKey h.candles.sorted _

end SymbolCandles

namespace CandleAggregator

variable {rt : Runtime} {agg full : CandleAggregator} {point : MarketDataPoint}
  {points : List MarketDataPoint} {symbol : JsString} {timeframe : Timeframe} {maximum : ℕ+}

/-- The aggregator holds what `full` holds, trimmed. -/
structure Trims (agg full : CandleAggregator) : Prop where
  timeframe : agg.timeframe = full.timeframe
  symbols : ∀ symbol, agg.symbols.get symbol =
    (full.symbols.get symbol).map fun held => held.trim agg.maxCandlesPerSymbol

/-- What `ingest` does to a point from 1970 on. -/
theorem ingest_eq (hpoint : 0 ≤ point.quote.providerTimestampMs) :
    agg.ingest rt point =
      let symbol := rt.normalize point.quote.symbol
      let openTimeMs := bucketOf point.quote.providerTimestampMs agg.timeframe
      let held := agg.symbols.get symbol
      let after := SymbolCandles.add held symbol openTimeMs point.quote
      let candle := SymbolCandles.candleWith held symbol openTimeMs point.quote
      some ({ agg with symbols := agg.symbols.insert symbol (after.trim agg.maxCandlesPerSymbol) },
        ⟨materialize agg.timeframe candle (openTimeMs < after.latestBucket),
          SymbolCandles.newlyCompleted held agg.timeframe openTimeMs⟩) := by
  unfold ingest bucketStart
  rw [if_neg (by omega)]

/-- A point that is taken in is added and then trimmed. -/
theorem Trims.ingest (h : Trims agg full) (hpoint : 0 ≤ point.quote.providerTimestampMs) :
    ∃ agg' update, agg.ingest rt point = some (agg', update) ∧ Trims agg' (full.add rt point) ∧
      agg'.maxCandlesPerSymbol = agg.maxCandlesPerSymbol := by
  refine ⟨_, _, ingest_eq hpoint, ⟨h.timeframe, fun symbol => ?_⟩, rfl⟩
  unfold CandleAggregator.add
  dsimp only
  rcases eq_or_ne symbol (rt.normalize point.quote.symbol) with rfl | hne
  · rw [Dict.get_insert_self, Dict.get_insert_self, h.symbols, SymbolCandles.trim_add, h.timeframe]
    rfl
  · rw [Dict.get_insert_ne hne, Dict.get_insert_ne hne, h.symbols]

/-- Points that are taken in one after the other are added, and trimmed at the end. -/
theorem Trims.ingestAll (rt : Runtime) (h : Trims agg full)
    (hpoints : ∀ point ∈ points, 0 ≤ point.quote.providerTimestampMs) :
    (agg.ingestAll rt points).2 = false ∧
      Trims (agg.ingestAll rt points).1 (points.foldl (add rt) full) ∧
      (agg.ingestAll rt points).1.maxCandlesPerSymbol = agg.maxCandlesPerSymbol := by
  induction points generalizing agg full with
  | nil => exact ⟨rfl, h, rfl⟩
  | cons point points ih =>
    obtain ⟨agg', update, hingest, htrims, hmaximum⟩ := h.ingest (hpoints point List.mem_cons_self)
    obtain ⟨hok, hall, hkeep⟩ := ih htrims fun p hp => hpoints p (List.mem_cons_of_mem point hp)
    rw [CandleAggregator.ingestAll, hingest]
    exact ⟨hok, hall, hkeep.trans hmaximum⟩

end CandleAggregator

/-! ## The candles of one symbol -/

/-- The prices and the number of the points of a candle. -/
structure Aggregates (opened high low close : ℚ) (updateCount : ℕ) (points : List MarketDataPoint) :
    Prop where
  first_eq : points.head?.map (fun p => p.quote.price) = some opened
  exists_high : ∃ p ∈ points, p.quote.price = high
  le_high : ∀ p ∈ points, p.quote.price ≤ high
  exists_low : ∃ p ∈ points, p.quote.price = low
  low_le : ∀ p ∈ points, low ≤ p.quote.price
  last_eq : points.getLast?.map (fun p => p.quote.price) = some close
  length_eq : points.length = updateCount

section Aggregates

variable {opened high low close : ℚ} {updateCount : ℕ} {points : List MarketDataPoint}
  {point : MarketDataPoint}

/-- One point is its own summary. -/
theorem aggregates_singleton : Aggregates point.quote.price point.quote.price point.quote.price
    point.quote.price 1 [point] := by
  have hmem : ∃ p ∈ [point], p.quote.price = point.quote.price :=
    ⟨point, List.mem_singleton_self point, rfl⟩
  refine ⟨rfl, hmem, fun p hp => ?_, hmem, fun p hp => ?_, rfl, rfl⟩
  · rw [List.mem_singleton.1 hp]
  · rw [List.mem_singleton.1 hp]

/-- One more point is the last, and may be the highest or the lowest. -/
theorem Aggregates.concat (h : Aggregates opened high low close updateCount points) :
    Aggregates opened (max high point.quote.price) (min low point.quote.price) point.quote.price
      (updateCount + 1) (points ++ [point]) := by
  have hlast : point ∈ points ++ [point] := List.mem_append_right _ (List.mem_singleton_self point)
  refine ⟨?_, ?_, fun p hp => ?_, ?_, fun p hp => ?_, ?_, ?_⟩
  · have hopened := h.first_eq
    cases points with
    | nil => cases hopened
    | cons p points => exact hopened
  · -- The highest price is the old one or that of the new point.
    rcases max_choice high point.quote.price with hmax | hmax
    · obtain ⟨p, hp, hprice⟩ := h.exists_high
      exact ⟨p, List.mem_append_left _ hp, hprice.trans hmax.symm⟩
    · exact ⟨point, hlast, hmax.symm⟩
  · rcases List.mem_append.1 hp with hp | hp
    · exact (h.le_high p hp).trans (le_max_left _ _)
    · rw [List.mem_singleton.1 hp]
      exact le_max_right _ _
  · rcases min_choice low point.quote.price with hmin | hmin
    · obtain ⟨p, hp, hprice⟩ := h.exists_low
      exact ⟨p, List.mem_append_left _ hp, hprice.trans hmin.symm⟩
    · exact ⟨point, hlast, hmin.symm⟩
  · rcases List.mem_append.1 hp with hp | hp
    · exact (min_le_left _ _).trans (h.low_le p hp)
    · rw [List.mem_singleton.1 hp]
      exact min_le_right _ _
  · rw [List.getLast?_concat]
    rfl
  · rw [List.length_append, List.length_singleton, h.length_eq]

/-- The first price and the last one are between the lowest and the highest. -/
theorem Aggregates.bounds (h : Aggregates opened high low close updateCount points) :
    low ≤ opened ∧ low ≤ close ∧ opened ≤ high ∧ close ≤ high := by
  obtain ⟨p, hp, hopened⟩ := Option.map_eq_some_iff.1 h.first_eq
  obtain ⟨q, hq, hclose⟩ := Option.map_eq_some_iff.1 h.last_eq
  have hfirst : p ∈ points := List.mem_of_mem_head? hp
  have hlast : q ∈ points := List.mem_of_getLast? hq
  rw [← hopened, ← hclose]
  exact ⟨h.low_le p hfirst, h.low_le q hlast, h.le_high p hfirst, h.le_high q hlast⟩

end Aggregates

/-- What is held of a symbol is what its points make. -/
structure Summarizes (timeframe : Timeframe) (points : List MarketDataPoint)
    (held : Option SymbolCandles) : Prop where
  keys : ∀ bucket, (∃ c, (held.bind fun h => h.candles.get bucket) = some c) ↔
    ∃ p ∈ points, bucketOf p.quote.providerTimestampMs timeframe = bucket
  candle : ∀ bucket c, (held.bind fun h => h.candles.get bucket) = some c → c.openTimeMs = bucket ∧
    Aggregates c.opened c.high c.low c.close c.updateCount
      (points.filter fun p => bucketOf p.quote.providerTimestampMs timeframe = bucket)
  latest : ∀ h ∈ held, ∃ p ∈ points,
    bucketOf p.quote.providerTimestampMs timeframe = h.latestBucket
  le_latest : ∀ p ∈ points, ∃ h ∈ held,
    bucketOf p.quote.providerTimestampMs timeframe ≤ h.latestBucket

section Summarizes

variable {timeframe : Timeframe} {points : List MarketDataPoint} {point : MarketDataPoint}
  {held : Option SymbolCandles} {symbol : JsString} {bucket : ℤ}

/-- No points have no summary. -/
theorem summarizes_nil : Summarizes timeframe [] none :=
  ⟨fun _ => iff_of_false (fun ⟨_, h⟩ => nomatch h) (fun ⟨_, h, _⟩ => absurd h List.not_mem_nil),
    (fun _ _ h => nomatch h), (fun _ h => nomatch h), fun _ h => absurd h List.not_mem_nil⟩

/-- The points of a bucket, with one more. -/
theorem filter_bucket_concat :
    ((points ++ [point]).filter fun p =>
        bucketOf p.quote.providerTimestampMs timeframe = bucket) =
      (points.filter fun p => bucketOf p.quote.providerTimestampMs timeframe = bucket) ++
        if bucketOf point.quote.providerTimestampMs timeframe = bucket then [point] else [] := by
  rw [List.filter_append]
  congr 1
  split_ifs with h <;> simp [h]

/-- The candle of the bucket of one more point. -/
theorem Summarizes.candleWith (h : Summarizes timeframe points held) :
    let bucket := bucketOf point.quote.providerTimestampMs timeframe
    let c := SymbolCandles.candleWith held symbol bucket point.quote
    c.openTimeMs = bucket ∧ Aggregates c.opened c.high c.low c.close c.updateCount
      ((points.filter fun p => bucketOf p.quote.providerTimestampMs timeframe =
      bucket) ++ [point]) := by
  intro bucket c
  unfold c SymbolCandles.candleWith
  dsimp only
  cases hget : held.bind fun h => h.candles.get bucket with
  | none =>
    have hnil : (points.filter fun p =>
        bucketOf p.quote.providerTimestampMs timeframe = bucket) = [] := by
      refine List.filter_eq_nil_iff.2 fun p hp hbucket => ?_
      obtain ⟨c, hc⟩ := (h.keys bucket).2 ⟨p, hp, of_decide_eq_true hbucket⟩
      exact absurd (hget.symm.trans hc) (Option.some_ne_none c).symm
    rw [hnil]
    exact ⟨rfl, aggregates_singleton⟩
  | some candle =>
    obtain ⟨hopen, haggregates⟩ := h.candle bucket candle hget
    exact ⟨hopen, haggregates.concat⟩

/-- One more point of a symbol. -/
theorem Summarizes.concat (h : Summarizes timeframe points held) :
    Summarizes timeframe (points ++ [point]) (some (SymbolCandles.add held symbol
      (bucketOf point.quote.providerTimestampMs timeframe) point.quote)) := by
  generalize hbucket : bucketOf point.quote.providerTimestampMs timeframe = openTimeMs
  have hself : (SymbolCandles.add held symbol openTimeMs point.quote).candles.get openTimeMs =
      some (SymbolCandles.candleWith held symbol openTimeMs point.quote) := Dict.get_insert_self
  have hother {bucket : ℤ} (hne : bucket ≠ openTimeMs) :
      (SymbolCandles.add held symbol openTimeMs point.quote).candles.get bucket =
        held.bind fun s => s.candles.get bucket := SymbolCandles.get_candles_add_ne hne
  have hcandle := @Summarizes.candleWith timeframe points point held symbol h
  rw [hbucket] at hcandle
  have hlast : point ∈ points ++ [point] := List.mem_append_right _ (List.mem_singleton_self point)
  refine ⟨fun bucket => ?_, fun bucket c hc => ?_, fun s hs => ?_, fun p hp => ?_⟩
  · rw [Option.bind_some]
    rcases eq_or_ne bucket openTimeMs with rfl | hne
    · rw [hself]
      exact iff_of_true ⟨_, rfl⟩ ⟨point, hlast, hbucket⟩
    · rw [hother hne, h.keys bucket]
      constructor
      · exact fun ⟨p, hp, hp'⟩ => ⟨p, List.mem_append_left _ hp, hp'⟩
      · rintro ⟨p, hp, hp'⟩
        rcases List.mem_append.1 hp with hp | hp
        · exact ⟨p, hp, hp'⟩
        · rw [List.mem_singleton.1 hp, hbucket] at hp'
          exact absurd hp'.symm hne
  · rw [Option.bind_some] at hc
    rw [filter_bucket_concat, hbucket]
    rcases eq_or_ne bucket openTimeMs with rfl | hne
    · rw [hself] at hc
      rw [if_pos rfl, ← Option.some.inj hc]
      exact hcandle
    · rw [hother hne] at hc
      rw [if_neg hne.symm, List.append_nil]
      exact h.candle bucket c hc
  · obtain rfl := Option.some.inj hs
    cases held with
    | none => exact ⟨point, hlast, hbucket⟩
    | some before =>
      obtain ⟨p, hp, hlatest⟩ := h.latest before rfl
      show ∃ p ∈ points ++ [point], bucketOf p.quote.providerTimestampMs timeframe =
        if before.latestBucket < openTimeMs then openTimeMs else before.latestBucket
      split_ifs
      · exact ⟨point, hlast, hbucket⟩
      · exact ⟨p, List.mem_append_left _ hp, hlatest⟩
  · refine ⟨_, rfl, ?_⟩
    -- The latest bucket is never below the bucket of the new point.
    have hle : openTimeMs ≤
        (SymbolCandles.add held symbol openTimeMs point.quote).latestBucket := by
      cases held with
      | none => exact le_rfl
      | some before =>
        show openTimeMs ≤ if before.latestBucket < openTimeMs then openTimeMs
          else before.latestBucket
        split_ifs <;> omega
    rcases List.mem_append.1 hp with hp | hp
    · obtain ⟨before, rfl, hbefore⟩ := h.le_latest p hp
      show _ ≤ if before.latestBucket < openTimeMs then openTimeMs else before.latestBucket
      split_ifs <;> omega
    · rw [List.mem_singleton.1 hp, hbucket]
      exact hle

/-- What the points of a symbol make, one after the other. -/
theorem summarizes_foldl (rt : Runtime) (timeframe : Timeframe) (points : List MarketDataPoint) :
    Summarizes timeframe points (points.foldl (fun held point =>
      some (SymbolCandles.add held (rt.normalize point.quote.symbol)
        (bucketOf point.quote.providerTimestampMs timeframe) point.quote)) none) := by
  induction points using List.reverseRecOn with
  | nil => exact summarizes_nil
  | append_singleton points point ih =>
    rw [List.foldl_append, List.foldl_cons, List.foldl_nil]
    exact ih.concat

end Summarizes

/-! ## The candles of an aggregator -/

namespace CandleAggregator

variable {rt : Runtime} {agg : CandleAggregator} {points : List MarketDataPoint} {symbol : JsString}

/-- What the aggregator holds of a symbol after points from 1970 on, and what they make
untrimmed. -/
theorem get_ingestAll (hpoints : ∀ point ∈ points, 0 ≤ point.quote.providerTimestampMs) :
    (agg.reset.ingestAll rt points).2 = false ∧
      (agg.reset.ingestAll rt points).1.timeframe = agg.timeframe ∧
      ∃ full, Summarizes agg.timeframe (ofSymbol rt symbol points) full ∧
        (agg.reset.ingestAll rt points).1.symbols.get symbol =
          full.map fun held => held.trim agg.maxCandlesPerSymbol := by
  have hreset : Trims agg.reset agg.reset := ⟨rfl, fun _ => rfl⟩
  obtain ⟨hok, htrims, hmaximum⟩ := hreset.ingestAll rt hpoints
  refine ⟨hok, htrims.timeframe.trans timeframe_foldl_add,
    (points.foldl (add rt) agg.reset).symbols.get symbol, ?_, ?_⟩
  · rw [get_foldl_add]
    exact summarizes_foldl rt agg.timeframe _
  · rw [htrims.symbols, hmaximum]
    rfl

end CandleAggregator

namespace Summarizes

variable {rt : Runtime} {timeframe : Timeframe} {points : List MarketDataPoint}
  {held : SymbolCandles} {maximum : ℕ+}

instance isTransInt : IsTrans ℤ (· ≤ ·) := inferInstance

instance antisymmInt : Std.Antisymm (α := ℤ) (· ≤ ·) := inferInstance

instance totalInt : Std.Total (α := ℤ) (· ≤ ·) := inferInstance

/-- The entries are the buckets of the points, in their order. -/
theorem map_fst (h : Summarizes timeframe points (some held)) :
    held.candles.entries.map Prod.fst =
      (points.map fun p => bucketOf p.quote.providerTimestampMs timeframe).toFinset.sort := by
  have hsorted : (held.candles.entries.map Prod.fst).Pairwise (· < ·) :=
    List.pairwise_map.2 held.candles.sorted
  have hset : (points.map fun p => bucketOf p.quote.providerTimestampMs timeframe).toFinset =
      (held.candles.entries.map Prod.fst).toFinset := by
    ext bucket
    rw [List.mem_toFinset, List.mem_toFinset, List.mem_map]
    exact (h.keys bucket).symm.trans Dict.mem_keys_iff.symm
  have hnodup : (held.candles.entries.map Prod.fst).Nodup := hsorted.imp ne_of_lt
  rw [hset]
  exact ((List.toFinset_sort _ hnodup).2 (hsorted.imp le_of_lt)).symm

/-- The last entry is that of the latest bucket, and stays. -/
theorem exists_last (h : Summarizes timeframe points (some held)) :
    ∃ front c, trimStart held.candles.entries maximum = front ++ [(held.latestBucket, c)] := by
  obtain ⟨p, hp, hlatest⟩ := h.latest held rfl
  obtain ⟨c, hc⟩ := (h.keys held.latestBucket).2 ⟨p, hp, hlatest⟩
  have hmem : (held.latestBucket, c) ∈ held.candles.entries := Lib.mem_of_getKey hc
  rcases List.eq_nil_or_concat held.candles.entries with hnil | ⟨front, last, hconcat⟩
  · rw [hnil] at hmem
    exact absurd hmem List.not_mem_nil
  rw [List.concat_eq_append] at hconcat
  have hsorted := held.candles.sorted
  rw [hconcat] at hsorted hmem
  have hlast : last = (held.latestBucket, c) := by
    rcases List.mem_append.1 hmem with hfront | hsingle
    · -- An entry after that of the latest bucket would be of a later one.
      have hlt : held.latestBucket < last.1 :=
        (List.pairwise_append.1 hsorted).2.2 _ hfront last (List.mem_singleton_self last)
      have hkey : last.1 ∈ held.candles.entries.map Prod.fst :=
        List.mem_map_of_mem (hconcat ▸ List.mem_append_right _ (List.mem_singleton_self last))
      obtain ⟨q, hq, hbucket⟩ := (h.keys last.1).1 (Dict.mem_keys_iff.1 hkey)
      obtain ⟨s, hs, hle⟩ := h.le_latest q hq
      obtain rfl := Option.some.inj hs
      omega
    · exact (List.mem_singleton.1 hsingle).symm
  obtain ⟨front', hfront', -⟩ := @trimStart_concat _ front last maximum
  rw [hconcat, hfront', hlast]
  exact ⟨front', c, rfl⟩

end Summarizes

namespace CandleAggregator

/-- After any points from 1970 on, in any order: the retained candles of a symbol are those of its
last buckets, each of all points of its bucket, and those before the latest bucket are complete. The
next point completes the latest candle if it begins a later bucket. -/
theorem candles_ingestAll (rt : Runtime) (start : CandleAggregator) (points : List MarketDataPoint)
    (hpoints : ∀ point ∈ points, 0 ≤ point.quote.providerTimestampMs) :
    (start.reset.ingestAll rt points).2 = false ∧
    ∀ symbol,
      let agg := (start.reset.ingestAll rt points).1
      let mine := ofSymbol rt (rt.normalize symbol) points
      let bucket := fun point : MarketDataPoint =>
        bucketOf point.quote.providerTimestampMs start.timeframe
      let candles := agg.getCandles rt symbol
      candles.map Candle.openTimeMs =
          trimStart (mine.map bucket).toFinset.sort start.maxCandlesPerSymbol ∧
        candles.Pairwise (fun a b => a.openTimeMs < b.openTimeMs) ∧
        (∀ c ∈ candles,
          Aggregates c.opened c.high c.low c.close c.updateCount
              (mine.filter fun p => bucket p = c.openTimeMs) ∧
            c.low ≤ c.opened ∧ c.close ≤ c.high ∧
            (c.complete = true ↔ ∃ p ∈ mine, c.openTimeMs < bucket p)) ∧
        ∀ point : MarketDataPoint, rt.normalize point.quote.symbol = rt.normalize symbol →
          0 ≤ point.quote.providerTimestampMs →
          ∃ agg' update, agg.ingest rt point = some (agg', update) ∧
            update.newlyCompleted =
            (candles.getLast?.filter fun c => c.openTimeMs < bucket point).toList.map
              fun c => { c with complete := true } := by
  refine ⟨ingestAll_snd hpoints, fun symbol => ?_⟩
  intro agg mine bucket candles
  obtain ⟨-, htimeframe, full, hfull, hget⟩ :=
    @get_ingestAll rt start points (rt.normalize symbol) hpoints
  -- The list that is shown is the summary of all points, trimmed.
  have hcandles : candles = (full.map fun held => held.trim start.maxCandlesPerSymbol).elim []
      fun held => held.list start.timeframe := by
    show (agg.symbols.get (rt.normalize symbol)).elim [] (fun held => held.list agg.timeframe) = _
    rw [hget, htimeframe]
  have hcompleted (point : MarketDataPoint)
    (hsymbol : rt.normalize point.quote.symbol = rt.normalize symbol)
      (hpoint : 0 ≤ point.quote.providerTimestampMs) :
      ∃ agg' update, agg.ingest rt point = some (agg', update) ∧ update.newlyCompleted =
        SymbolCandles.newlyCompleted (full.map fun held => held.trim start.maxCandlesPerSymbol)
          start.timeframe (bucket point) := by
    refine ⟨_, _, ingest_eq hpoint, ?_⟩
    show SymbolCandles.newlyCompleted
      (agg.symbols.get (rt.normalize point.quote.symbol)) agg.timeframe
      (bucketOf point.quote.providerTimestampMs agg.timeframe) = _
    rw [hsymbol, hget, htimeframe]
  cases full with
  | none =>
    -- There have been no points of the symbol.
    have hmine : mine = [] := List.eq_nil_iff_forall_not_mem.2 fun p hp => by
      obtain ⟨held, hheld, -⟩ := hfull.le_latest p hp
      cases hheld
    have hnil : candles = [] := hcandles
    rw [hnil, hmine]
    have hempty : trimStart (([] : List MarketDataPoint).map bucket).toFinset.sort
        start.maxCandlesPerSymbol = [] := by
      unfold trimStart
      rw [List.map_nil, List.toFinset_nil, Finset.sort_empty, List.drop_nil]
    refine ⟨hempty.symm, List.Pairwise.nil, fun c hc => absurd hc List.not_mem_nil, ?_⟩
    exact hcompleted
  | some held =>
    have hlist : candles = (trimStart held.candles.entries start.maxCandlesPerSymbol).map fun e =>
        materialize start.timeframe e.2 (e.2.openTimeMs < held.latestBucket) := hcandles
    -- Each candle aggregates the points of its bucket.
    have hentry (e : ℤ × MutableCandle) (he : e ∈ held.candles.entries) : e.2.openTimeMs = e.1 ∧
        Aggregates e.2.opened e.2.high e.2.low e.2.close e.2.updateCount
          (mine.filter fun p => bucket p = e.1) :=
      hfull.candle e.1 e.2 (Lib.getKey_of_mem held.candles.sorted he)
    have htimes : candles.map Candle.openTimeMs =
        trimStart (held.candles.entries.map Prod.fst) start.maxCandlesPerSymbol := by
      unfold trimStart
      rw [hlist, List.map_map, List.length_map, ← List.map_drop]
      exact List.map_congr_left fun e he => (hentry e (mem_of_mem_trimStart he)).1
    have hsorted : (candles.map Candle.openTimeMs).Pairwise (· < ·) := by
      rw [htimes]
      exact (List.pairwise_map.2 held.candles.sorted).sublist (List.drop_sublist _ _)
    refine ⟨by rw [htimes, hfull.map_fst], List.pairwise_map.1 hsorted, fun c hc => ?_,
      fun point hsymbol hpoint => ?_⟩
    · rw [hlist] at hc
      obtain ⟨e, he, rfl⟩ := List.mem_map.1 hc
      obtain ⟨hopen, haggregates⟩ := hentry e (mem_of_mem_trimStart he)
      obtain ⟨hopened, -, -, hclose⟩ := haggregates.bounds
      rw [← hopen] at haggregates
      refine ⟨haggregates, hopened, hclose, ?_⟩
      show decide (e.2.openTimeMs < held.latestBucket) = true ↔
        ∃ p ∈ mine, e.2.openTimeMs < bucket p
      rw [decide_eq_true_eq]
      constructor
      · intro hlt
        obtain ⟨p, hp, hlatest⟩ := hfull.latest held rfl
        exact ⟨p, hp, hlt.trans_le hlatest.ge⟩
      · rintro ⟨p, hp, hlt⟩
        obtain ⟨s, hs, hle⟩ := hfull.le_latest p hp
        obtain rfl := Option.some.inj hs
        exact hlt.trans_le hle
    · -- A later bucket completes the last candle that is shown.
      obtain ⟨agg', update, hingest, hupdate⟩ := hcompleted point hsymbol hpoint
      refine ⟨agg', update, hingest, ?_⟩
      obtain ⟨front, c, hlast⟩ := @Summarizes.exists_last start.timeframe mine held
        start.maxCandlesPerSymbol hfull
      have hmem : (held.latestBucket,
          c) ∈ trimStart held.candles.entries start.maxCandlesPerSymbol := by
        rw [hlast]
        exact List.mem_append_right _ (List.mem_singleton_self _)
      have hopen : c.openTimeMs = held.latestBucket := (hentry _ (mem_of_mem_trimStart hmem)).1
      have hget' : (held.trim start.maxCandlesPerSymbol).candles.get held.latestBucket = some c :=
        Lib.getKey_of_mem (held.trim start.maxCandlesPerSymbol).candles.sorted hmem
      have hgetLast : candles.getLast? =
          some (materialize start.timeframe c (c.openTimeMs < held.latestBucket)) := by
        rw [hlist, hlast, List.map_append, List.map_singleton, List.getLast?_concat]
      have htime : (materialize start.timeframe c (c.openTimeMs < held.latestBucket)).openTimeMs =
          held.latestBucket := hopen
      rw [hupdate, hgetLast]
      show (if held.latestBucket < bucket point then
          ((held.trim start.maxCandlesPerSymbol).candles.get held.latestBucket).toList.map
            fun candle =>
            materialize start.timeframe candle true
        else []) = _
      rw [hget', Option.filter_some, htime]
      by_cases hlater : held.latestBucket < bucket point
      · rw [if_pos hlater, if_pos (decide_eq_true hlater)]
        rfl
      · rw [if_neg hlater, if_neg (by simpa using hlater)]
        rfl

/-- Three points, the last of which is late and makes a candle that is not retained. -/
theorem candles_ingestAll_sample :
    (((new .oneMinute 1).reset.ingestAll Runtime.ascii
        [MarketDataStore.samplePoint "1" 60000 1, MarketDataStore.samplePoint "2" 60001 1,
          MarketDataStore.samplePoint "3" 1 1]).1.getCandles Runtime.ascii (js "a")).map
      Candle.openTimeMs = trimStart
        ((ofSymbol Runtime.ascii (Runtime.ascii.normalize (js "a"))
          [MarketDataStore.samplePoint "1" 60000 1, MarketDataStore.samplePoint "2" 60001 1,
            MarketDataStore.samplePoint "3" 1 1]).map fun point =>
              bucketOf point.quote.providerTimestampMs .oneMinute).toFinset.sort 1 :=
  ((candles_ingestAll Runtime.ascii (new .oneMinute 1)
    [MarketDataStore.samplePoint "1" 60000 1, MarketDataStore.samplePoint "2" 60001 1,
      MarketDataStore.samplePoint "3" 1 1] (by decide)).2 (js "a")).1

end CandleAggregator

end MarketDataGateway.Engine

import MarketDataGateway.Lib.Dict
import Mathlib.Algebra.Order.Floor.Ring
import Mathlib.Data.Rat.Floor

/-!
# The renderer of the chart

`LightweightChartsRenderer.ts`. A series of the chart is the list of its bars: `setData` replaces
it, and `update` replaces the last bar by one of the same time, appends a later one, and throws for
an earlier one. `setCandles` takes `update` if `canIncrementallyUpdate` allows it, and `setData` if
not.

`setCandles_iff` is what one call does to a renderer that shows a list: it shows the next one,
unless the two lists have one length and agree up to their last bars, which are of different
seconds. That `canIncrementallyUpdate` lets such lists pass is the whole of what goes wrong along a
sequence of calls (`rendersFully_iff`).
-/

namespace MarketDataGateway.Chart

open Lib (Dict SortedKeys insertKey ofPairs)

/-- `ChartActivitySource`. -/
inductive ChartActivitySource
  | volume
  | updates
  | mixed
  deriving DecidableEq

/-- `ChartCandle`. -/
structure ChartCandle where
  /-- `timeMs`. -/
  timeMs : ℚ
  /-- `open`. -/
  opened : ℚ
  /-- `high`. -/
  high : ℚ
  /-- `low`. -/
  low : ℚ
  /-- `close`. -/
  close : ℚ
  /-- `updateCount`. -/
  updateCount : ℕ
  /-- `activityValue`. -/
  activityValue : ℚ
  /-- `activitySource`. -/
  activitySource : ChartActivitySource
  deriving DecidableEq

/-- What `activityLabel` gives. -/
inductive ActivityTitle
  | volume
  | updates
  | activity
  deriving DecidableEq

/-- `activityLabel`. -/
def activityLabel (candles : List ChartCandle) : ActivityTitle :=
  let sources := (candles.map ChartCandle.activitySource).dedup
  if sources.length ≠ 1 then .activity
  else if .volume ∈ sources then .volume
  else if .updates ∈ sources then .updates else .activity

/-- `CandlestickData`. -/
structure CandlestickData where
  /-- `time`. -/
  time : ℤ
  /-- `open`. -/
  opened : ℚ
  /-- `high`. -/
  high : ℚ
  /-- `low`. -/
  low : ℚ
  /-- `close`. -/
  close : ℚ
  deriving DecidableEq

/-- `HistogramData`. -/
structure HistogramData where
  /-- `time`. -/
  time : ℤ
  /-- `value`. -/
  value : ℚ
  /-- `color`. -/
  color : String
  deriving DecidableEq

/-- The values of `metadataByTime`. -/
structure Metadata where
  /-- `updateCount`. -/
  updateCount : ℕ
  /-- `activityValue`. -/
  activityValue : ℚ
  /-- `activitySource`. -/
  activitySource : ChartActivitySource
  deriving DecidableEq

/-- `UP_COLOR`. -/
def upColor : String := "#22c58b"

/-- `DOWN_COLOR`. -/
def downColor : String := "#ff6b7a"

/-- `seconds`. -/
def seconds (timeMs : ℚ) : ℤ := ⌊timeMs / 1000⌋

/-- `candleData`. -/
def candleData (candle : ChartCandle) : CandlestickData :=
  ⟨seconds candle.timeMs, candle.opened, candle.high, candle.low, candle.close⟩

/-- `updateData`. -/
def updateData (candle : ChartCandle) : HistogramData :=
  ⟨seconds candle.timeMs, candle.activityValue,
    if candle.opened ≤ candle.close then upColor ++ "88" else downColor ++ "88"⟩

/-- The entry of `metadataByTime` for a bar. -/
def metadataEntry (candle : ChartCandle) : ℤ × Metadata :=
  (seconds candle.timeMs * 1000,
    ⟨candle.updateCount, candle.activityValue, candle.activitySource⟩)

/-- `sameCandle`. -/
def sameCandle (left right : ChartCandle) : Bool :=
  left.timeMs = right.timeMs && left.opened = right.opened && left.high = right.high &&
    left.low = right.low && left.close = right.close && left.updateCount = right.updateCount &&
    left.activityValue = right.activityValue && left.activitySource = right.activitySource

/-- The loop of `canIncrementallyUpdate` over the first `stableLength` bars. -/
def stablePrefix : ℕ → List ChartCandle → List ChartCandle → Bool
  | 0, _, _ => true
  | n + 1, previousCandle :: previous, nextCandle :: next =>
    sameCandle previousCandle nextCandle && stablePrefix n previous next
  | _ + 1, _, _ => false

/-- `canIncrementallyUpdate`. -/
def canIncrementallyUpdate (previous next : List ChartCandle) : Bool :=
  if next.length = 0 ∨ previous.length = 0 then false
  else if next.length ≠ previous.length ∧ next.length ≠ previous.length + 1 then false
  else
    let stableLength := next.length - 1
    if previous.length < stableLength then false else stablePrefix stableLength previous next

/-! ## The series -/

section Series

variable {β : Type*}

/-- `series.update(bar)`. `none` is the exception. -/
def updateSeries (time : β → ℤ) (series : List β) (bar : β) : Option (List β) :=
  match series.getLast? with
  | none => some [bar]
  | some last =>
    if time bar < time last then none
    else if time bar = time last then some (series.dropLast ++ [bar])
    else some (series ++ [bar])

variable {time : β → ℤ} {series : List β} {last bar : β}

/-- A bar before the last one cannot be put into the series. -/
theorem updateSeries_lt (h : time bar < time last) :
    updateSeries time (series ++ [last]) bar = none := by
  unfold updateSeries
  rw [List.getLast?_concat]
  exact if_pos h

/-- A bar at the time of the last one takes its place. -/
theorem updateSeries_eq (h : time bar = time last) :
    updateSeries time (series ++ [last]) bar = some (series ++ [bar]) := by
  unfold updateSeries
  rw [List.getLast?_concat, List.dropLast_concat]
  dsimp only
  rw [if_neg h.not_lt, if_pos h]

/-- A bar after the last one is appended. -/
theorem updateSeries_gt (h : time last < time bar) :
    updateSeries time (series ++ [last]) bar = some (series ++ [last] ++ [bar]) := by
  unfold updateSeries
  rw [List.getLast?_concat]
  dsimp only
  rw [if_neg h.asymm, if_neg h.ne']

end Series

/-! ## The renderer -/

/-- The chart: its two series and the title of the second. -/
structure MountedChart where
  /-- The bars of the candlestick series. -/
  candles : List CandlestickData
  /-- The bars of the histogram series. -/
  updates : List HistogramData
  /-- The title of the histogram series. -/
  title : ActivityTitle
  deriving DecidableEq

/-- `LightweightChartsRenderer`. -/
structure LightweightChartsRenderer where
  /-- `chart`, `candles`, and `updates`. -/
  chart : Option MountedChart
  /-- `previous`. -/
  previous : List ChartCandle
  /-- `activityTitle`. -/
  activityTitle : ActivityTitle
  /-- `metadataByTime`. -/
  metadataByTime : Dict ℤ Metadata

/-- How a call ends: with the renderer as it is then, by an exception or not. -/
structure Call where
  /-- The renderer after the call. -/
  renderer : LightweightChartsRenderer
  /-- The call has thrown. -/
  threw : Bool

namespace LightweightChartsRenderer

/-- `new LightweightChartsRenderer()`. -/
def new : LightweightChartsRenderer := ⟨none, [], .activity, ⟨[], List.Pairwise.nil⟩⟩

/-- `destroy`. -/
def destroy (_ : LightweightChartsRenderer) : LightweightChartsRenderer := new

/-- `mount`. -/
def mount (r : LightweightChartsRenderer) : LightweightChartsRenderer :=
  let cleared := r.destroy
  { cleared with chart := some ⟨[], [], cleared.activityTitle⟩ }

/-- The end of `setCandles`: the title, and the list that is now the previous one. -/
def retitle (r : LightweightChartsRenderer) (chart : MountedChart) (candles : List ChartCandle) :
    LightweightChartsRenderer :=
  let nextTitle := activityLabel candles
  if nextTitle ≠ r.activityTitle then
    { r with
      chart := some { chart with title := nextTitle }
      activityTitle := nextTitle
      previous := candles }
  else { r with chart := some chart, previous := candles }

/-- The incremental path of `setCandles`, with the last bar. -/
def updateLast (r : LightweightChartsRenderer) (chart : MountedChart) (candles : List ChartCandle)
    (last : ChartCandle) : Call :=
  let entry := metadataEntry last
  let r := { r with metadataByTime := r.metadataByTime.insert entry.1 entry.2 }
  match updateSeries CandlestickData.time chart.candles (candleData last) with
  | none => ⟨r, true⟩
  | some bars =>
    let chart := { chart with candles := bars }
    match updateSeries HistogramData.time chart.updates (updateData last) with
    | none => ⟨{ r with chart := some chart }, true⟩
    | some bars => ⟨r.retitle { chart with updates := bars } candles, false⟩

/-- The other path of `setCandles`. -/
def setData (r : LightweightChartsRenderer) (chart : MountedChart)
    (candles : List ChartCandle) : Call :=
  let entries := candles.map metadataEntry
  let r := { r with metadataByTime := ⟨ofPairs entries, Lib.sortedKeys_ofPairs entries⟩ }
  let chart :=
    { chart with candles := candles.map candleData, updates := candles.map updateData }
  ⟨r.retitle chart candles, false⟩

/-- `setCandles`. -/
def setCandles (r : LightweightChartsRenderer) (candles : List ChartCandle) : Call :=
  match r.chart with
  | none => ⟨r, false⟩
  | some chart =>
    if canIncrementallyUpdate r.previous candles = true then
      match candles.getLast? with
      | none => ⟨r.retitle chart candles, false⟩
      | some last => r.updateLast chart candles last
    else r.setData chart candles

/-- What is on display: the two series and the metadata. -/
def display (r : LightweightChartsRenderer) :
    Option (List CandlestickData × List HistogramData) × Dict ℤ Metadata :=
  (r.chart.map fun chart => (chart.candles, chart.updates), r.metadataByTime)

/-- The renderer after a sequence of calls shows, after each of them, what a renderer that has just
been mounted shows of the last list, and no call throws. -/
def RendersFully (r : LightweightChartsRenderer) : List (List ChartCandle) → Prop
  | [] => True
  | candles :: calls =>
    (r.setCandles candles).threw = false ∧
      (r.setCandles candles).renderer.display = (new.mount.setCandles candles).renderer.display ∧
      RendersFully (r.setCandles candles).renderer calls

end LightweightChartsRenderer

/-! ## One call -/

/-- The whole seconds of the bars increase. -/
def Increasing (candles : List ChartCandle) : Prop :=
  candles.Pairwise fun a b => seconds a.timeMs < seconds b.timeMs

instance (candles : List ChartCandle) : Decidable (Increasing candles) :=
  inferInstanceAs (Decidable (List.Pairwise _ _))

/-- Lists of one length that agree up to their last bars end in bars of one second. -/
def EndsAlike (previous next : List ChartCandle) : Prop :=
  canIncrementallyUpdate previous next = true → next.length = previous.length →
    next.getLast?.map (fun candle => seconds candle.timeMs) =
      previous.getLast?.map fun candle => seconds candle.timeMs

instance (previous next : List ChartCandle) : Decidable (EndsAlike previous next) :=
  inferInstanceAs (Decidable (_ → _ → _))

variable {previous next candles stable : List ChartCandle} {left right old last : ChartCandle}
  {r r' : LightweightChartsRenderer} {chart : MountedChart} {calls : List (List ChartCandle)}

/-- Candles that are the same are equal. -/
theorem eq_of_sameCandle (h : sameCandle left right = true) : left = right := by
  unfold sameCandle at h
  simp only [Bool.and_eq_true, decide_eq_true_eq] at h
  obtain ⟨⟨⟨⟨⟨⟨⟨htime, hopen⟩, hhigh⟩, hlow⟩, hclose⟩, hcount⟩, hvalue⟩, hsource⟩ := h
  cases left
  cases right
  simp_all

/-- The loop finds the lists equal up to its bound. -/
theorem take_eq_of_stablePrefix {n : ℕ} (h : stablePrefix n previous next = true) :
    previous.take n = next.take n := by
  induction n generalizing previous next with
  | zero => rw [List.take_zero, List.take_zero]
  | succ n ih =>
    match previous, next, h with
    | previousCandle :: previous, nextCandle :: next, h =>
      rw [stablePrefix, Bool.and_eq_true] at h
      rw [List.take_succ_cons, List.take_succ_cons, ih h.2, eq_of_sameCandle h.1]

/-- The fast path is for a list that extends the previous one by a bar, or that has another last
bar. -/
theorem canIncrementallyUpdate_cases (h : canIncrementallyUpdate previous next = true) :
    ∃ stable last, next = stable ++ [last] ∧
      (previous = stable ∨ ∃ old, previous = stable ++ [old]) := by
  unfold canIncrementallyUpdate at h
  split_ifs at h with hempty hlength
  dsimp only at h
  split_ifs at h with hstable
  push Not at hempty
  have hnext : next ≠ [] := List.ne_nil_of_length_pos (by omega)
  have htake := take_eq_of_stablePrefix h
  rw [← List.dropLast_eq_take] at htake
  refine ⟨next.dropLast, next.getLast hnext, (List.dropLast_append_getLast hnext).symm, ?_⟩
  by_cases heq : next.length = previous.length
  · -- One length: the loop stops before the last bar of the previous list.
    have hprevious : previous ≠ [] := List.ne_nil_of_length_pos (by omega)
    rw [heq, ← List.dropLast_eq_take] at htake
    exact Or.inr ⟨previous.getLast hprevious,
      by rw [← htake, List.dropLast_append_getLast hprevious]⟩
  · -- One bar more: the loop goes through the previous list.
    have hmore : next.length - 1 = previous.length := by omega
    rw [hmore, List.take_length] at htake
    exact Or.inl htake

/-- The renderer shows the list, and compares the next one with it. -/
structure Shows (r : LightweightChartsRenderer) (candles : List ChartCandle) : Prop where
  previous : r.previous = candles
  chart : ∃ title, r.chart = some ⟨candles.map candleData, candles.map updateData, title⟩
  metadata : r.metadataByTime.entries = candles.map metadataEntry

/-- Renderers that show the same candles display the same. -/
theorem Shows.display (h : Shows r candles) (h' : Shows r' candles) :
    r.display = r'.display := by
  obtain ⟨title, hchart⟩ := h.chart
  obtain ⟨title', hchart'⟩ := h'.chart
  have hmetadata : r.metadataByTime = r'.metadataByTime :=
    Dict.ext (h.metadata.trans h'.metadata.symm)
  unfold LightweightChartsRenderer.display
  rw [hchart, hchart', hmetadata]
  rfl

namespace LightweightChartsRenderer

/-- A renderer that is mounted shows no candles. -/
theorem shows_mount : Shows r.mount [] := ⟨rfl, ⟨_, rfl⟩, rfl⟩

/-- The title plays no part in what is shown. -/
theorem shows_retitle (title : ActivityTitle)
    (hmetadata : r.metadataByTime.entries = candles.map metadataEntry) :
    Shows (r.retitle ⟨candles.map candleData, candles.map updateData, title⟩ candles) candles := by
  unfold retitle
  dsimp only
  split_ifs
  · exact ⟨rfl, ⟨_, rfl⟩, hmetadata⟩
  · exact ⟨rfl, ⟨_, rfl⟩, hmetadata⟩

end LightweightChartsRenderer

/-- The keys of the metadata of the bars before a later one are smaller. -/
theorem metadataEntry_lt (h : ∀ candle ∈ candles, seconds candle.timeMs < seconds last.timeMs) :
    ∀ e ∈ candles.map metadataEntry, e.1 < (metadataEntry last).1 := by
  intro e he
  obtain ⟨candle, hcandle, rfl⟩ := List.mem_map.1 he
  have hlt := h candle hcandle
  show seconds candle.timeMs * 1000 < seconds last.timeMs * 1000
  omega

/-- The metadata of candles in order are in the order of their times. -/
theorem sortedKeys_metadata (h : Increasing candles) : SortedKeys (candles.map metadataEntry) := by
  refine List.pairwise_map.2 (h.imp fun {a b} hlt => ?_)
  show seconds a.timeMs * 1000 < seconds b.timeMs * 1000
  omega

namespace LightweightChartsRenderer

/-- `setData` shows the list. -/
theorem setData_shows (hnext : Increasing next) :
    (r.setData chart next).threw = false ∧ Shows (r.setData chart next).renderer next := by
  have hentries : ofPairs (next.map metadataEntry) = next.map metadataEntry :=
    Lib.ofPairs_eq (sortedKeys_metadata hnext)
  exact ⟨rfl, shows_retitle chart.title hentries⟩

/-- The incremental path shows the list if each of its three updates gives what the list has. -/
theorem updateLast_shows
    (hcandles : updateSeries CandlestickData.time chart.candles (candleData last) =
      some (next.map candleData))
    (hupdates : updateSeries HistogramData.time chart.updates (updateData last) =
      some (next.map updateData))
    (hentries : insertKey (metadataEntry last).1 (metadataEntry last).2 r.metadataByTime.entries =
      next.map metadataEntry) :
    (r.updateLast chart next last).threw = false ∧
      Shows (r.updateLast chart next last).renderer next := by
  unfold updateLast
  dsimp only
  rw [hcandles, hupdates]
  exact ⟨rfl, shows_retitle chart.title hentries⟩

end LightweightChartsRenderer

section Update

variable {β : Type*} {time : β → ℤ} {f : ChartCandle → β}

/-- A candle after the last one is appended. -/
theorem updateSeries_map_gt (h : time (f old) < time (f last)) :
    updateSeries time ((stable ++ [old]).map f) (f last) =
      some ((stable ++ [old] ++ [last]).map f) := by
  have hmap : (stable ++ [old] ++ [last]).map f = stable.map f ++ [f old] ++ [f last] := by simp
  rw [hmap, List.map_append]
  exact updateSeries_gt h

/-- A candle at the time of the last one takes its place. -/
theorem updateSeries_map_eq (h : time (f last) = time (f old)) :
    updateSeries time ((stable ++ [old]).map f) (f last) = some ((stable ++ [last]).map f) := by
  rw [List.map_append, List.map_append]
  exact updateSeries_eq h

/-- A candle before the last one cannot be put into the series. -/
theorem updateSeries_map_lt (h : time (f last) < time (f old)) :
    updateSeries time ((stable ++ [old]).map f) (f last) = none := by
  rw [List.map_append]
  exact updateSeries_lt h

/-- The metadata with one more bar at the end. -/
theorem insertKey_metadata (h : Increasing (stable ++ [last])) :
    insertKey (metadataEntry last).1 (metadataEntry last).2 (stable.map metadataEntry) =
      (stable ++ [last]).map metadataEntry := by
  have hlt : ∀ candle ∈ stable, seconds candle.timeMs < seconds last.timeMs := fun candle hc =>
    (List.pairwise_append.1 h).2.2 candle hc last (List.mem_singleton_self last)
  rw [Lib.insertKey_last (metadataEntry_lt hlt), List.map_append]
  rfl

/-- The metadata with another last bar of the same second. -/
theorem insertKey_metadata_eq (h : Increasing (stable ++ [last]))
    (heq : seconds last.timeMs = seconds old.timeMs) :
    insertKey (metadataEntry last).1 (metadataEntry last).2 ((stable ++ [old]).map metadataEntry) =
      (stable ++ [last]).map metadataEntry := by
  have hlt : ∀ candle ∈ stable, seconds candle.timeMs < seconds last.timeMs := fun candle hc =>
    (List.pairwise_append.1 h).2.2 candle hc last (List.mem_singleton_self last)
  have hkey : (metadataEntry last).1 = (metadataEntry old).1 := by
    show seconds last.timeMs * 1000 = seconds old.timeMs * 1000
    rw [heq]
  have hreplace : insertKey (metadataEntry last).1 (metadataEntry last).2 [metadataEntry old] =
      [metadataEntry last] := by
    rw [insertKey, if_neg hkey.not_lt, if_pos hkey]
  rw [List.map_append, Lib.insertKey_append (metadataEntry_lt hlt)]
  show _ ++ insertKey _ _ [metadataEntry old] = _
  rw [hreplace, List.map_append]
  rfl

end Update

namespace LightweightChartsRenderer

/-- Candles are set by an update where that can be done, and else all at once. -/
theorem setCandles_eq (h : r.chart = some chart) :
    r.setCandles candles =
      if canIncrementallyUpdate r.previous candles = true then
        match candles.getLast? with
        | none => ⟨r.retitle chart candles, false⟩
        | some last => r.updateLast chart candles last
      else r.setData chart candles := by
  unfold setCandles
  rw [h]

/-- A call after which the lists end alike shows the list. -/
theorem setCandles_shows (hr : Shows r previous) (hnext : Increasing next)
    (h : EndsAlike previous next) :
    (r.setCandles next).threw = false ∧ Shows (r.setCandles next).renderer next := by
  obtain ⟨title, hchart⟩ := hr.chart
  rw [setCandles_eq hchart, hr.previous]
  by_cases hfast : canIncrementallyUpdate previous next = true
  · rw [if_pos hfast]
    obtain ⟨stable, last, rfl, hprevious | ⟨old, hprevious⟩⟩ := canIncrementallyUpdate_cases hfast
    · -- One bar more, which is later than the last one, for there is a last one.
      subst hprevious
      have hne : previous ≠ [] := by
        intro hnil
        rw [hnil] at hfast
        exact absurd hfast Bool.false_ne_true
      obtain ⟨front, old, rfl⟩ : ∃ front old, previous = front ++ [old] :=
        ⟨_, _, (List.dropLast_append_getLast hne).symm⟩
      have hlt : seconds old.timeMs < seconds last.timeMs :=
        (List.pairwise_append.1 hnext).2.2 old (by simp) last (List.mem_singleton_self last)
      have hentries := insertKey_metadata hnext
      rw [← hr.metadata] at hentries
      rw [List.getLast?_concat]
      exact updateLast_shows (updateSeries_map_gt hlt) (updateSeries_map_gt hlt) hentries
    · -- Another last bar, of the same second.
      subst hprevious
      have heq : seconds last.timeMs = seconds old.timeMs := by
        have hsame := h hfast (by simp)
        rw [List.getLast?_concat, List.getLast?_concat] at hsame
        exact Option.some.inj hsame
      have hentries := insertKey_metadata_eq hnext heq
      rw [← hr.metadata] at hentries
      rw [List.getLast?_concat]
      exact updateLast_shows (updateSeries_map_eq heq) (updateSeries_map_eq heq) hentries
  · rw [if_neg hfast]
    exact setData_shows hnext

/-- A call after which they do not end alike throws, or leaves a bar of the previous list in front
of the last one. -/
theorem setCandles_differs (hr : Shows r previous) (h : ¬EndsAlike previous next) :
    (r.setCandles next).threw = true ∨
      ∃ bars, (r.setCandles next).renderer.chart.map MountedChart.candles = some bars ∧
        bars.length = next.length + 1 := by
  obtain ⟨title, hchart⟩ := hr.chart
  rw [setCandles_eq hchart, hr.previous]
  unfold EndsAlike at h
  push Not at h
  obtain ⟨hfast, hlength, hends⟩ := h
  rw [if_pos hfast]
  -- Lists that do not end alike leave the case that replaces the last bar.
  obtain ⟨stable, last, rfl, hprevious | ⟨old, hprevious⟩⟩ := canIncrementallyUpdate_cases hfast
  · rw [hprevious, List.length_append, List.length_singleton] at hlength
    omega
  · subst hprevious
    rw [List.getLast?_concat, List.getLast?_concat] at hends
    rw [List.getLast?_concat]
    rcases lt_or_gt_of_ne fun heq => hends (congrArg some heq) with hlt | hgt
    · left
      -- An older bar than the last one is refused.
      have hbars : updateSeries CandlestickData.time ((stable ++ [old]).map candleData)
          (candleData last) = none := updateSeries_map_lt hlt
      unfold updateLast
      dsimp only
      rw [hbars]
    · -- A later bar is put behind the last one, which stays.
      right
      have hbars : updateSeries CandlestickData.time ((stable ++ [old]).map candleData)
          (candleData last) = some ((stable ++ [old] ++ [last]).map candleData) :=
        updateSeries_map_gt hgt
      have hcounts : updateSeries HistogramData.time ((stable ++ [old]).map updateData)
          (updateData last) = some ((stable ++ [old] ++ [last]).map updateData) :=
        updateSeries_map_gt hgt
      refine ⟨(stable ++ [old] ++ [last]).map candleData, ?_, by simp⟩
      unfold updateLast
      dsimp only
      rw [hbars]
      dsimp only
      rw [hcounts]
      dsimp only
      unfold retitle
      dsimp only
      split_ifs <;> rfl

/-- One call on a renderer that shows a list: it shows the next one if and only if the two end
alike. -/
theorem setCandles_iff (hr : Shows r previous) (hnext : Increasing next) :
    ((r.setCandles next).threw = false ∧
      (r.setCandles next).renderer.display = (new.mount.setCandles next).renderer.display) ↔
      EndsAlike previous next := by
  have hfull : Shows (new.mount.setCandles next).renderer next :=
    (setCandles_shows shows_mount hnext fun hfast =>
      absurd hfast (by simp [canIncrementallyUpdate])).2
  constructor
  · rintro ⟨hthrew, hdisplay⟩
    by_contra hends
    rcases setCandles_differs hr hends with hthrows | ⟨bars, hbars, hlength⟩
    · rw [hthrew] at hthrows
      exact absurd hthrows Bool.false_ne_true
    · -- The series has a bar more than the list.
      obtain ⟨title, hchart⟩ := hfull.chart
      unfold display at hdisplay
      rw [hchart] at hdisplay
      obtain ⟨chart, hchart', rfl⟩ := Option.map_eq_some_iff.1 hbars
      rw [hchart'] at hdisplay
      have hsame : chart.candles = next.map candleData :=
        congrArg Prod.fst (Option.some.inj (congrArg Prod.fst hdisplay))
      rw [hsame, List.length_map] at hlength
      omega
  · intro hends
    obtain ⟨hthrew, hshows⟩ := setCandles_shows hr hnext hends
    exact ⟨hthrew, hshows.display hfull⟩

/-- The calls after one that shows a list. -/
theorem rendersFully_of_shows (hr : Shows r previous)
    (hcalls : ∀ candles ∈ calls, Increasing candles) :
    RendersFully r calls ↔ (previous :: calls).IsChain EndsAlike := by
  induction calls generalizing r previous with
  | nil => exact ⟨fun _ => List.IsChain.singleton _, fun _ => trivial⟩
  | cons next calls ih =>
    have hnext := hcalls next List.mem_cons_self
    have hrest : ∀ candles ∈ calls, Increasing candles :=
      fun candles h => hcalls candles (List.mem_cons_of_mem next h)
    rw [List.isChain_cons_cons, RendersFully, ← and_assoc, setCandles_iff hr hnext]
    exact and_congr_right fun hends => ih (setCandles_shows hr hnext hends).2 hrest

/-- A renderer that is mounted once renders every list of a sequence in full, without an exception,
if and only if no list that differs from the one before in its last bar alone ends in another
second. -/
theorem rendersFully_iff (r : LightweightChartsRenderer) (calls : List (List ChartCandle))
    (hcalls : ∀ candles ∈ calls, Increasing candles) :
    r.mount.RendersFully calls ↔ ([] :: calls).IsChain EndsAlike :=
  rendersFully_of_shows shows_mount hcalls

/-- A bar of a minute. -/
def minuteBar : ChartCandle := ⟨60000, 100, 101, 99, 100, 3, 3, .updates⟩

/-- The bar of the five minutes that the minute is in. -/
def fiveMinuteBar : ChartCandle := { minuteBar with timeMs := 0 }

/-- A minute twice, and the two bars that hold it then. -/
theorem rendersFully_minutes :
    new.mount.RendersFully [[minuteBar], [minuteBar], [fiveMinuteBar, minuteBar]] :=
  (rendersFully_iff new [[minuteBar], [minuteBar], [fiveMinuteBar, minuteBar]]
    (by decide +kernel)).2 (by decide +kernel)

/-- A switch from the minute to the five minutes throws. -/
theorem setCandles_throws :
    ¬∀ calls : List (List ChartCandle), (∀ candles ∈ calls, Increasing candles) →
      new.mount.RendersFully calls := by
  intro h
  have hruns := h [[minuteBar], [fiveMinuteBar]] (by decide +kernel)
  have hthrew : ((new.mount.setCandles [minuteBar]).renderer.setCandles [fiveMinuteBar]).threw =
      true := by decide +kernel
  exact absurd (hruns.2.2.1.symm.trans hthrew) Bool.false_ne_true

end LightweightChartsRenderer

end MarketDataGateway.Chart

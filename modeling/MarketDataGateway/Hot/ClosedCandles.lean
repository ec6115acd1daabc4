import MarketDataGateway.Hot.System

/-!
# Closed candles are stable, if no bucket is read in part

A bucket of a timeframe longer than a minute is stored as many keys, each of which expires a
retention after its own minute. Between the first and the last of these deadlines the bucket is in
part gone, and `get_candles` reports what is left of it as a closed candle (`not_stable`). In runs
in which no call reads a bucket in that state, every candle returned for a settled bucket is the
aggregate of all its quotes, and so any two are equal (`stable_of_wholeRead`).
-/

namespace MarketDataGateway.Hot

open Lib

/-- The candles that a call has returned. -/
def GetCall.candles (g : GetCall) : List Candle :=
  match g.pc with
  | .returned (.ok series) => series.data
  | _ => []

/-- `c` is a closed candle that the call `g` has returned, for a bucket that had ended when `g`
began and of which no quote has been taken in since. -/
def Returned (st : State) (g : GetCall) (c : Candle) : Prop :=
  g ∈ st.gets ∧ c ∈ g.candles ∧ c.closed = true ∧ g.Settled c.openTime st.keys.committed

/-- Each closed candle of a settled bucket is the aggregate over all its quotes that were taken in,
and any two calls return the same. -/
structure Stable (st : State) : Prop where
  aggregate : ∀ g c, Returned st g c →
    c.AggregateOf (bucketQuotes g.timeframe c.openTime st.keys.committed)
  same : ∀ g g' c c', Returned st g c → Returned st g' c' → g.timeframe = g'.timeframe →
    c.openTime = c'.openTime → c = c'

/-- If a call of `get_candles` reads its keys, no settled bucket of its window is in part gone. -/
def WholeRead (st : State) : Label → Prop
  | .get i =>
    match st.gets[i]? with
    | some g => WholeAtMget st.keys g
    | none => True
  | _ => True

instance (st : State) (a : Label) : Decidable (WholeRead st a) := by
  unfold WholeRead
  split
  · split <;> infer_instance
  · infer_instance

section Step

variable {cfg : Settings} {symbol : Symbol} {st st' : State} {a : Label}

/-- Every step takes in quotes, if any, after those taken in before. -/
theorem committed_suffix_step (h : Inv cfg symbol st) (hstep : step cfg symbol st a = some st') :
    st.keys.committed <:+ st'.keys.committed := by
  cases a with
  | startCache event =>
    rw [step] at hstep
    split_ifs at hstep
    obtain rfl := Option.some.inj hstep
    exact List.suffix_refl _
  | startGet timeframe limit «end» =>
    obtain rfl := Option.some.inj hstep
    exact List.suffix_refl _
  | cache i =>
    obtain ⟨call, keys', pc', hi, hcache, rfl⟩ := step_cache hstep
    obtain ⟨hsym, hok⟩ := h.caches call (List.mem_of_getElem? hi)
    exact (cacheStep_inv h.keys hsym hok hcache).2.2.committed_suffix
  | get i =>
    obtain ⟨g, keys', pc', hi, hget, rfl⟩ := step_get hstep
    have hcommitted := (getStep_inv h.keys (h.gets g (List.mem_of_getElem? hi)) hget).2.2.2
    exact hcommitted ▸ List.suffix_refl _
  | tick d =>
    obtain rfl := Option.some.inj hstep
    exact List.suffix_refl _

/-- A step that reads no bucket in part keeps what the calls have read. -/
theorem getReads_step (h : Inv cfg symbol st)
    (hreads : ∀ g ∈ st.gets, GetReads cfg symbol st.keys.committed g) (hwhole : WholeRead st a)
    (hstep : step cfg symbol st a = some st') :
    ∀ g ∈ st'.gets, GetReads cfg symbol st'.keys.committed g := by
  have hsuffix := committed_suffix_step h hstep
  -- What a call has read stays read, as quotes are only ever added.
  have hothers : ∀ g ∈ st.gets, GetReads cfg symbol st'.keys.committed g :=
    fun g hg => (hreads g hg).mono hsuffix
  cases a with
  | startCache event =>
    rw [step] at hstep
    split_ifs at hstep
    obtain rfl := Option.some.inj hstep
    exact hothers
  -- A call that begins has read nothing.
  | startGet timeframe limit «end» =>
    obtain rfl := Option.some.inj hstep
    intro g hg
    rcases List.mem_append.1 hg with hg | hg
    · exact hothers g hg
    · rw [List.mem_singleton.1 hg]
      exact ⟨List.suffix_refl _, trivial⟩
  | cache i =>
    obtain ⟨call, keys', pc', hi, hcache, rfl⟩ := step_cache hstep
    exact hothers
  | get i =>
    obtain ⟨g, keys', pc', hi, hget, rfl⟩ := step_get hstep
    have hg := List.mem_of_getElem? hi
    refine forall_mem_set hothers ?_
    refine getStep_reads h.keys (h.gets g hg) (hreads g hg) ?_ hget
    simpa only [WholeRead, hi] using hwhole
  | tick d =>
    obtain rfl := Option.some.inj hstep
    exact hothers

end Step

/-- In every run in which no bucket is read in part, closed candles are stable. -/
theorem stable_of_wholeRead (cfg : Settings) (symbol : Symbol) (t₀ : Timestamp) {st : State}
    (h : Path (step cfg symbol) WholeRead (.init t₀) st) : Stable st := by
  have hinv : Inv cfg symbol st ∧ ∀ g ∈ st.gets, GetReads cfg symbol st.keys.committed g := by
    refine h.invariant
      (fun st => Inv cfg symbol st ∧ ∀ g ∈ st.gets, GetReads cfg symbol st.keys.committed g)
      ⟨inv_init cfg symbol t₀, fun g hg => absurd hg List.not_mem_nil⟩ ?_
    intro st a st' ⟨hinv, hreads⟩ hok hstep
    exact ⟨inv_step hinv hstep, getReads_step hinv hreads hok hstep⟩
  -- What a call has returned is the candle of all the minutes of the bucket.
  have hbucket : ∀ g c, Returned st g c →
      ∃ ms, WholeBucket ms (bucketQuotes g.timeframe c.openTime st.keys.committed) ∧
        BucketOf symbol g.timeframe c.openTime ms c := by
    rintro g c ⟨hg, hc, -, hsettled⟩
    unfold GetCall.candles at hc
    split at hc
    · next series hpc => exact (hinv.2 g hg).bucketOf hpc hc hsettled
    · exact absurd hc List.not_mem_nil
  constructor
  case aggregate =>
    intro g c hret
    obtain ⟨ms, hwhole, hof⟩ := hbucket g c hret
    exact hof.aggregateOf hwhole
  case same =>
    intro g g' c c' hret hret' htimeframe hopen
    obtain ⟨ms, hwhole, hof⟩ := hbucket g c hret
    obtain ⟨ms', hwhole', hof'⟩ := hbucket g' c' hret'
    rw [htimeframe, hopen] at hwhole hof
    exact hwhole.unique hwhole' hof hof'

/-- The steps of a call that no other call hinders. -/
def runGet (i : ℕ) : List Label := [.get i, .get i, .get i, .get i]

/-- Two quotes in the first and the last minute of five minutes, which are then read. -/
def fiveMinutesRun : List Label :=
  [.startCache (.sample 1 0 100), .cache 0, .cache 0, .cache 0, .cache 0, .tick 240000000,
    .startCache (.sample 2 240000000 101), .cache 1, .cache 1, .cache 1, .cache 1,
    .tick 60000000, .startGet .fiveMinutes 1 300000000] ++ runGet 0

/-- A closed candle of two quotes stays as it is. -/
theorem stable_fiveMinutesRun :
    ∃ st, (∃ g ∈ st.gets, g.candles.map Candle.activityCount = [2]) ∧ Stable st := by
  obtain ⟨st, hpath, hcounts⟩ := Path.exists_of_exec (step {} "AAPL") WholeRead (.init 0)
    fiveMinutesRun (fun st => ∃ g ∈ st.gets, g.candles.map Candle.activityCount = [2]) (by decide)
  exact ⟨st, hcounts, stable_of_wholeRead {} "AAPL" 0 hpath⟩

/-- The five minutes are read once more between the retention deadlines of the first and the last
minute. -/
def retentionEdgeRun : List Label :=
  fiveMinutesRun ++ [.tick (30 * 86400000000 - 200000000), .startGet .fiveMinutes 1 300000000] ++
    runGet 1

/-- A candle that is closed changes in some run. -/
theorem not_stable :
    ¬ ∀ st, Path (step {} "AAPL") anyStep (.init 0) st → Stable st := by
  obtain ⟨st, hpath, g, hg, c, hc, hclosed, hsettled, hcount⟩ := Path.exists_of_exec
    (step {} "AAPL") anyStep (.init 0) retentionEdgeRun
    (fun st => ∃ g ∈ st.gets, ∃ c ∈ g.candles, c.closed = true ∧
      g.Settled c.openTime st.keys.committed ∧ c.activityCount ≠
        (bucketQuotes g.timeframe c.openTime st.keys.committed).length)
    (by decide)
  intro hall
  exact hcount ((hall st hpath).aggregate g c ⟨hg, hc, hclosed, hsettled⟩).activityCount_eq

end MarketDataGateway.Hot

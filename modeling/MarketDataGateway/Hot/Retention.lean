import MarketDataGateway.Hot.ClosedCandles

/-!
# The retention window

A minute candle is to be readable up to the retention deadline of its minute, and gone a second
later. Its own key lasts that long, but the key of the index lasts a retention and a minute from the
last transaction of any minute: a minute that is still to come when it is written has a later
deadline than that. If the index expires first, its candle is there and is not found
(`not_retained_of_path`). In runs in which the index does not expire before the deadline of a minute
that it lists, every read finds what it should (`retained_of_path`); runs in which no quote is
written before its minute has begun are such (`path_of_begun`).
-/

namespace MarketDataGateway.Hot

open Lib

/-- Whether the next command of a call of `cache_quote` is the transaction. -/
def CachePc.isExec : CachePc → Bool
  | .exec .. => true
  | _ => false

/-- If the step is the transaction of a call of `cache_quote`, the retention deadline of its minute
is still to come. -/
def WrittenInTime (cfg : Settings) (st : State) : Label → Prop
  | .cache i => ∀ call ∈ st.caches[i]?, call.pc.isExec = true →
    st.now < retentionDeadline cfg (minuteOf call.event)
  | _ => True

/-- If the key of the index expires in the step, the retention deadline of each minute that it lists
has come. -/
def IndexLasts (cfg : Settings) (st : State) : Label → Prop
  | .tick d => st.keys.indexExpiresAt.any (· ≤ st.now + d) = true →
    ∀ e ∈ st.keys.index.entries, retentionDeadline cfg e.1 ≤ st.now + d
  | _ => True

/-- If the step is the transaction of a call of `cache_quote`, its minute has begun. -/
def Begun (st : State) : Label → Prop
  | .cache i => ∀ call ∈ st.caches[i]?, call.pc.isExec = true → minuteOf call.event ≤ st.now
  | _ => True

instance (cfg : Settings) (st : State) (a : Label) : Decidable (WrittenInTime cfg st a) := by
  unfold WrittenInTime
  split <;> infer_instance

instance (cfg : Settings) (st : State) (a : Label) : Decidable (IndexLasts cfg st a) := by
  unfold IndexLasts
  split <;> infer_instance

/-- What a call of `get_candles` for minutes has returned is kept for the retention window. -/
structure Retained (cfg : Settings) (st : State) : Prop where
  /-- A call that has returned before the retention deadline of a minute of its window that had a
  quote when it began has returned the candle of the quotes that had been taken in when it read. -/
  visible : ∀ g ∈ st.gets, g.timeframe = .oneMinute → ∀ series, g.pc = .returned (.ok series) →
    ∀ start effectiveEnd, historyWindow .oneMinute g.limit g.end = .ok (start, effectiveEnd) →
    ∀ m, minuteQuotes m g.seen ≠ [] → start ≤ m → m + 60 * second ≤ effectiveEnd →
    st.now < retentionDeadline cfg m →
    ∃ c ∈ series.data, c.openTime = m ∧
      ∃ taken, g.seen <:+ taken ∧ taken <:+ st.keys.committed ∧ c.AggregateOf (minuteQuotes m taken)
  /-- A call that begins a second after the retention deadline of a minute, or later, does not
  return its candle. -/
  gone : ∀ g ∈ st.gets, g.timeframe = .oneMinute → ∀ series, g.pc = .returned (.ok series) →
    ∀ c ∈ series.data, g.startedAt < retentionDeadline cfg c.openTime + second

/-! ## What a call finds -/

/-- A minute of a call's window with one of the quotes `seen`, within retention at the time
`now`. -/
structure Due (cfg : Settings) (now : Timestamp) (seen : List QuoteEvent)
    (start effectiveEnd m : Timestamp) : Prop where
  had : minuteQuotes m seen ≠ []
  start_le : start ≤ m
  le_end : m ≤ effectiveEnd
  within : now < retentionDeadline cfg m

/-- The minute candles `base` that a call has read which began at `startedAt`: those of minutes that
were within retention then, among them all that are due. -/
structure MinutesRead (cfg : Settings) (now : Timestamp) (committed : List QuoteEvent)
    (startedAt : Timestamp) (seen : List QuoteEvent) (start effectiveEnd : Timestamp)
    (base : List BaseMinuteCandle) : Prop where
  nodup : (base.map BaseMinuteCandle.openTime).Nodup
  placed : ∀ b ∈ base, b.Placed
  kept : ∀ b ∈ base, startedAt < retentionDeadline cfg b.openTime
  whole : ∀ m, Due cfg now seen start effectiveEnd m → ∃ b ∈ base, b.openTime = m ∧
    ∃ taken, seen <:+ taken ∧ taken <:+ committed ∧ b.Aggregates (minuteQuotes m taken)

/-- What holds of a call between its steps, by its program counter. -/
def Finds (cfg : Settings) (symbol : Symbol) (now : Timestamp) (keys : HotKeys) (g : GetCall) :
    GetPc → Prop
  | .start => True
  | .trim start effectiveEnd read =>
    historyWindow g.timeframe g.limit g.end = .ok (start, effectiveEnd) ∧ g.startedAt ≤ read
  | .range start effectiveEnd =>
    historyWindow g.timeframe g.limit g.end = .ok (start, effectiveEnd) ∧
      ∀ m ∈ keys.index, g.startedAt < retentionDeadline cfg m
  | .mget start effectiveEnd epochs =>
    historyWindow g.timeframe g.limit g.end = .ok (start, effectiveEnd) ∧ epochs.Nodup ∧
      (∀ m ∈ epochs, g.startedAt < retentionDeadline cfg m) ∧
      ∀ m, Due cfg now g.seen start effectiveEnd m → m ∈ epochs
  | .zrem effectiveEnd _ base =>
    ∃ start, historyWindow g.timeframe g.limit g.end = .ok (start, effectiveEnd) ∧
      MinutesRead cfg now keys.committed g.startedAt g.seen start effectiveEnd base
  | .returned result => ∀ series, result = .ok series → ∃ start effectiveEnd base,
    historyWindow g.timeframe g.limit g.end = .ok (start, effectiveEnd) ∧
      MinutesRead cfg now keys.committed g.startedAt g.seen start effectiveEnd base ∧
      aggregateBaseCandles symbol g.timeframe g.limit effectiveEnd
        cfg.candleHistoryRetentionSeconds base = .ok series

section Finds

variable {cfg : Settings} {symbol : Symbol} {now now' startedAt start effectiveEnd m : Timestamp}
  {keys keys' : HotKeys} {committed committed' seen : List QuoteEvent}
  {g : GetCall} {pc pc' : GetPc}
  {base : List BaseMinuteCandle} {series : CandleSeries}

/-- What is due later was due before. -/
theorem Due.mono (h : Due cfg now' seen start effectiveEnd m) (hnow : now ≤ now') :
    Due cfg now seen start effectiveEnd m :=
  ⟨h.had, h.start_le, h.le_end, lt_of_le_of_lt hnow h.within⟩

/-- Fewer minutes are due as time passes, and what was taken in stays taken in. -/
theorem MinutesRead.mono (h : MinutesRead cfg now committed startedAt seen start effectiveEnd base)
    (hnow : now ≤ now') (hcommitted : committed <:+ committed') :
    MinutesRead cfg now' committed' startedAt seen start effectiveEnd base where
  nodup := h.nodup
  placed := h.placed
  kept := h.kept
  whole m hdue := by
    obtain ⟨b, hb, hopen, taken, hseen, htaken, hagg⟩ := h.whole m (hdue.mono hnow)
    exact ⟨b, hb, hopen, taken, hseen, htaken.trans hcommitted, hagg⟩

/-- What a call finds is kept by the steps of others, if these list only minutes within retention,
and by time. -/
theorem Finds.mono (h : Finds cfg symbol now keys g pc) (hstarted : g.startedAt ≤ now)
    (hnow : now ≤ now') (hcommitted : keys.committed <:+ keys'.committed)
    (hindex : ∀ m ∈ keys'.index, m ∈ keys.index ∨ now < retentionDeadline cfg m) :
    Finds cfg symbol now' keys' g pc := by
  cases pc with
  | start => trivial
  | trim start effectiveEnd read => exact h
  | range start effectiveEnd =>
    refine ⟨h.1, fun m hm => ?_⟩
    rcases hindex m hm with hm | hlt
    · exact h.2 m hm
    · exact lt_of_le_of_lt hstarted hlt
  | mget start effectiveEnd epochs =>
    obtain ⟨hwindow, hnodup, hkept, hdue⟩ := h
    exact ⟨hwindow, hnodup, hkept, fun m hm => hdue m (hm.mono hnow)⟩
  | zrem effectiveEnd missing base =>
    obtain ⟨start, hwindow, hread⟩ := h
    exact ⟨start, hwindow, hread.mono hnow hcommitted⟩
  | returned result =>
    intro series hseries
    obtain ⟨start, effectiveEnd, base, hwindow, hread, hresult⟩ := h series hseries
    exact ⟨start, effectiveEnd, base, hwindow, hread.mono hnow hcommitted, hresult⟩

/-- `MGET` of listed minutes, all those that are due among them. -/
theorem minutesRead_mget (h : KeysInv cfg symbol now keys) (hseen : g.seen <:+ keys.committed)
    {epochs : List Timestamp} (hnodup : epochs.Nodup)
    (hkept : ∀ m ∈ epochs, g.startedAt < retentionDeadline cfg m)
    (hdue : ∀ m, Due cfg now g.seen start effectiveEnd m → m ∈ epochs) :
    MinutesRead cfg now keys.committed g.startedAt g.seen start effectiveEnd
    (keys.mget epochs) := by
  constructor
  case nodup => exact h.mget_nodup hnodup
  case placed =>
    intro b hb
    obtain ⟨m, -, cell, -, rfl⟩ := mem_mget.1 hb
    exact placed_of_aggregates cell.value.aggregates
  case kept =>
    intro b hb
    obtain ⟨m, hm, cell, hval, rfl⟩ := mem_mget.1 hb
    rw [h.openTime_eq hval]
    exact hkept m hm
  case whole =>
    intro m hm
    -- The key of a minute within retention has never expired, so it has all the quotes.
    have hlost : keys.lost m = false := by
      by_contra hlost
      exact absurd hm.within (not_lt.2 (h.deadline_le m (Bool.eq_true_of_not_eq_false hlost)))
    have hcomplete := h.complete m hlost
    have hne : keys.committedAt m ≠ [] := by
      obtain ⟨q, hq⟩ := List.exists_mem_of_ne_nil _ hm.had
      exact List.ne_nil_of_mem ((hseen.filter _).subset hq)
    cases hval : keys.candles.value m with
    | none =>
      rw [HotKeys.quotesAt, hval] at hcomplete
      exact absurd hcomplete.symm hne
    | some cell =>
      rw [HotKeys.quotesAt, hval] at hcomplete
      refine ⟨_, mem_mget.2 ⟨m, hdue m hm, cell, hval, rfl⟩, h.openTime_eq hval, keys.committed,
        hseen, List.suffix_refl _, ?_⟩
      rw [← HotKeys.committedAt, ← hcomplete]
      exact cell.value.aggregates

/-- Reading nothing is reading all that is due, if nothing is. -/
theorem minutesRead_nil (hdue : ∀ m, ¬ Due cfg now seen start effectiveEnd m) :
    MinutesRead cfg now committed startedAt seen start effectiveEnd [] where
  nodup := List.nodup_nil
  placed _ hb := absurd hb List.not_mem_nil
  kept _ hb := absurd hb List.not_mem_nil
  whole m hm := absurd hm (hdue m)

/-- A step of a call keeps what it finds, if the index has lost no minute that is within
retention. -/
theorem finds_step (h : KeysInv cfg symbol now keys)
    (hlisted : ∀ m, keys.unlisted m = true → retentionDeadline cfg m ≤ now)
    (hseen : g.seen <:+ keys.committed) (hstarted : g.startedAt ≤ now)
    (hfinds : Finds cfg symbol now keys g g.pc)
    (hstep : getStep cfg symbol now keys g = some (keys', pc')) :
    Finds cfg symbol now keys' g pc' := by
  unfold getStep at hstep
  -- By the command that the call is at; each keeps what the minutes within retention need.
  cases hpc : g.pc with
  | start =>
    simp only [hpc] at hstep
    split at hstep
    · obtain ⟨rfl, rfl⟩ := Prod.mk.inj (Option.some.inj hstep)
      intro series hseries
      cases hseries
    · next start effectiveEnd hwindow =>
      obtain ⟨rfl, rfl⟩ := Prod.mk.inj (Option.some.inj hstep)
      exact ⟨hwindow, hstarted⟩
  | trim start effectiveEnd read =>
    simp only [hpc] at hstep hfinds
    obtain ⟨rfl, rfl⟩ := Prod.mk.inj (Option.some.inj hstep)
    refine ⟨hfinds.1, fun m hm => ?_⟩
    -- What is left in the index is within retention at the time that the call has read.
    obtain ⟨-, hlt⟩ := h.index_score.mem_zremrangebyscore.1 hm
    rw [← not_le, le_expiredBucketScore_iff, not_le] at hlt
    exact lt_of_le_of_lt hfinds.2 hlt
  | range start effectiveEnd =>
    simp only [hpc] at hstep hfinds
    obtain ⟨hwindow, hkept⟩ := hfinds
    -- The index lists the minutes that are due.
    have hdue : ∀ m, Due cfg now g.seen start effectiveEnd m →
        m ∈ keys.index.zrangebyscore start effectiveEnd := by
      intro m hm
      obtain ⟨q, hq⟩ := List.exists_mem_of_ne_nil _ hm.had
      have hne : keys.committedAt m ≠ [] := List.ne_nil_of_mem ((hseen.filter _).subset hq)
      have hunlisted : keys.unlisted m = false := by
        by_contra hunlisted
        exact absurd hm.within (not_lt.2 (hlisted m (Bool.eq_true_of_not_eq_false hunlisted)))
      exact h.index_score.mem_zrangebyscore.2
        ⟨h.indexed m hne hm.within hunlisted, hm.start_le, hm.le_end⟩
    split_ifs at hstep with hnil
    · obtain ⟨rfl, rfl⟩ := Prod.mk.inj (Option.some.inj hstep)
      intro series hseries
      refine ⟨start, effectiveEnd, [], hwindow, minutesRead_nil fun m hm => ?_, hseries⟩
      have hmem := hdue m hm
      rw [hnil] at hmem
      exact absurd hmem List.not_mem_nil
    · obtain ⟨rfl, rfl⟩ := Prod.mk.inj (Option.some.inj hstep)
      refine ⟨hwindow, SortedSet.zrangebyscore_nodup _ _ _, fun m hm => ?_, hdue⟩
      exact hkept m (h.index_score.mem_zrangebyscore.1 hm).1
  | mget start effectiveEnd epochs =>
    -- Every minute that is due is listed, and its candle is read now.
    simp only [hpc] at hstep hfinds
    obtain ⟨hwindow, hnodup, hkept, hdue⟩ := hfinds
    have hread := minutesRead_mget h hseen hnodup hkept hdue
    split_ifs at hstep
    · obtain ⟨rfl, rfl⟩ := Prod.mk.inj (Option.some.inj hstep)
      exact fun series hseries => ⟨start, effectiveEnd, _, hwindow, hread, hseries⟩
    · obtain ⟨rfl, rfl⟩ := Prod.mk.inj (Option.some.inj hstep)
      exact ⟨start, hwindow, hread⟩
  | zrem effectiveEnd missing base =>
    simp only [hpc] at hstep hfinds
    obtain ⟨start, hwindow, hread⟩ := hfinds
    obtain ⟨rfl, rfl⟩ := Prod.mk.inj (Option.some.inj hstep)
    exact fun series hseries => ⟨start, effectiveEnd, base, hwindow, hread, hseries⟩
  | returned result =>
    simp only [hpc] at hstep
    cases hstep

/-- A minute is its own bucket. -/
theorem floorTime_self {b : BaseMinuteCandle} (h : b.Placed) :
    floorTime b.openTime (timeframeSeconds .oneMinute) = b.openTime :=
  le_antisymm (floorTime_le h.second_dvd (by decide))
    (le_floorTime (by decide) h.aligned (le_refl _))

/-- The candle of a minute is the aggregate of the quotes of its minute candle. -/
theorem aggregateOf_of_read {b : BaseMinuteCandle} {c : Candle} {qs : List QuoteEvent}
    (hnodup : (base.map BaseMinuteCandle.openTime).Nodup) (hb : b ∈ base)
    (hagg : b.Aggregates (minuteQuotes b.openTime qs))
    (hc : BucketOf symbol .oneMinute b.openTime (bucketMinutes .oneMinute b.openTime base) c)
    (hplaced : ∀ b' ∈ base, b'.Placed) : c.AggregateOf (minuteQuotes b.openTime qs) := by
  have honly : ∀ b' ∈ bucketMinutes .oneMinute b.openTime base, b' = b := by
    intro b' hb'
    obtain ⟨hb', hfloor⟩ := List.mem_filter.1 hb'
    have hopen : b'.openTime = b.openTime :=
      (floorTime_self (hplaced b' hb')).symm.trans (of_decide_eq_true hfloor)
    exact List.inj_on_of_nodup_map hnodup hb' hb hopen
  have hof : MinutesOf (bucketMinutes .oneMinute b.openTime base)
      (bucketQuotes .oneMinute b.openTime qs) := by
    refine minutesOf_bucketMinutes hnodup (fun b' hb' => ?_) fun q hq => ?_
    · rw [honly b' hb']
      exact hagg
    · exact ⟨b, hb, (of_decide_eq_true (List.mem_filter.1 hq).2).symm⟩
  exact hof.aggregateOf hc

end Finds

/-! ## Runs -/

section Index

variable {cfg : Settings} {symbol : Symbol} {clock : Timestamp} {keys keys' : HotKeys}
  {event : QuoteEvent} {pc pc' : CachePc} {g : GetCall} {gpc' : GetPc}

/-- A step of `cache_quote` lists no minute but one whose transaction is in time, and makes none
unlisted. -/
theorem cacheStep_index (h : KeysInv cfg symbol clock keys)
    (hexec : pc.isExec = true → clock < retentionDeadline cfg (minuteOf event))
    (hstep : cacheStep cfg clock keys event pc = some (keys', pc')) :
    (∀ m ∈ keys'.index, m ∈ keys.index ∨ clock < retentionDeadline cfg m) ∧
      ∀ m, keys'.unlisted m = true → keys.unlisted m = true := by
  rcases cacheStep_effect hstep with ⟨rfl, -⟩ | ⟨-, rfl, -⟩ | ⟨now, left, value, rfl, rfl, -⟩
  · exact ⟨fun m hm => Or.inl hm, fun m hm => hm⟩
  · exact ⟨fun m hm => Or.inl hm, fun m hm => hm⟩
  · constructor
    · intro m hm
      rcases ((mem_index_commit h.index_score).1 hm).1 with rfl | hm
      · exact Or.inr (hexec rfl)
      · exact Or.inl hm
    · intro m hm
      change Function.update keys.unlisted (minuteOf event) false m = true at hm
      by_cases hminute : m = minuteOf event
      · rw [hminute, Function.update_self] at hm
        cases hm
      · rwa [Function.update_of_ne hminute] at hm

/-- A step of `get_candles` lists no minute, makes none unlisted, and sets no time to live. -/
theorem getStep_index (hstep : getStep cfg symbol clock keys g = some (keys', gpc')) :
    (∀ m ∈ keys'.index, m ∈ keys.index) ∧ keys'.unlisted = keys.unlisted ∧
      ∀ t ∈ keys'.indexExpiresAt, t ∈ keys.indexExpiresAt := by
  have hsame : (∀ m ∈ keys.index, m ∈ keys.index) ∧ keys.unlisted = keys.unlisted ∧
      ∀ t ∈ keys.indexExpiresAt, t ∈ keys.indexExpiresAt :=
    ⟨fun m hm => hm, rfl, fun t ht => ht⟩
  have hput (index : SortedSet Timestamp) :
      ∀ t ∈ (keys.putIndex index).indexExpiresAt, t ∈ keys.indexExpiresAt := by
    intro t ht
    unfold HotKeys.putIndex at ht
    dsimp only at ht
    split_ifs at ht
    · cases ht
    · exact ht
  unfold getStep at hstep
  cases hpc : g.pc with
  | start =>
    simp only [hpc] at hstep
    split at hstep
    · obtain ⟨rfl, -⟩ := Prod.mk.inj (Option.some.inj hstep)
      exact hsame
    · obtain ⟨rfl, -⟩ := Prod.mk.inj (Option.some.inj hstep)
      exact hsame
  | trim start effectiveEnd read =>
    -- Only this step and `ZREM` write the index, and both take away from it.
    simp only [hpc] at hstep
    obtain ⟨rfl, -⟩ := Prod.mk.inj (Option.some.inj hstep)
    exact ⟨fun m hm => SortedSet.mem_of_mem_zremrangebyscore hm, rfl, hput _⟩
  | range start effectiveEnd =>
    simp only [hpc] at hstep
    split_ifs at hstep
    · obtain ⟨rfl, -⟩ := Prod.mk.inj (Option.some.inj hstep)
      exact hsame
    · obtain ⟨rfl, -⟩ := Prod.mk.inj (Option.some.inj hstep)
      exact hsame
  | mget start effectiveEnd epochs =>
    simp only [hpc] at hstep
    split_ifs at hstep
    · obtain ⟨rfl, -⟩ := Prod.mk.inj (Option.some.inj hstep)
      exact hsame
    · obtain ⟨rfl, -⟩ := Prod.mk.inj (Option.some.inj hstep)
      exact hsame
  | zrem effectiveEnd missing base =>
    simp only [hpc] at hstep
    obtain ⟨rfl, -⟩ := Prod.mk.inj (Option.some.inj hstep)
    exact ⟨fun m hm => SortedSet.mem_of_mem_keep hm, rfl, hput _⟩
  | returned result =>
    simp only [hpc] at hstep
    cases hstep

end Index

/-- What holds in runs in which the index does not expire early: it has lost minutes beyond
retention only, and so the calls find what is due. -/
structure Finding (cfg : Settings) (symbol : Symbol) (st : State) : Prop where
  inv : Inv cfg symbol st
  unlisted : ∀ m, st.keys.unlisted m = true → retentionDeadline cfg m ≤ st.now
  gets : ∀ g ∈ st.gets, g.seen <:+ st.keys.committed ∧ g.startedAt ≤ st.now ∧
    Finds cfg symbol st.now st.keys g g.pc

section Step

variable {cfg : Settings} {symbol : Symbol} {st st' : State} {a : Label}

/-- What the calls find is kept by what happens to the keys, and by time. -/
theorem Finding.gets_mono (h : Finding cfg symbol st) {now' : Timestamp} {keys' : HotKeys}
    (hnow : st.now ≤ now') (hcommitted : st.keys.committed <:+ keys'.committed)
    (hindex : ∀ m ∈ keys'.index, m ∈ st.keys.index ∨ st.now < retentionDeadline cfg m) :
    ∀ g ∈ st.gets, g.seen <:+ keys'.committed ∧ g.startedAt ≤ now' ∧
      Finds cfg symbol now' keys' g g.pc := by
  intro g hg
  obtain ⟨hseen, hstarted, hfinds⟩ := h.gets g hg
  exact ⟨hseen.trans hcommitted, hstarted.trans hnow,
    hfinds.mono hstarted hnow hcommitted hindex⟩

/-- A step in which no transaction is late and the index does not expire early keeps this. -/
theorem finding_step (h : Finding cfg symbol st) (hwritten : WrittenInTime cfg st a)
    (hlasts : IndexLasts cfg st a) (hstep : step cfg symbol st a = some st') :
    Finding cfg symbol st' := by
  have hinv := inv_step h.inv hstep
  cases a with
  | startCache event =>
    rw [step] at hstep
    split_ifs at hstep
    obtain rfl := Option.some.inj hstep
    exact ⟨hinv, h.unlisted, h.gets⟩
  | startGet timeframe limit «end» =>
    obtain rfl := Option.some.inj hstep
    refine ⟨hinv, h.unlisted, fun g hg => ?_⟩
    rcases List.mem_append.1 hg with hg | hg
    · exact h.gets g hg
    · rw [List.mem_singleton.1 hg]
      exact ⟨List.suffix_refl _, le_refl _, trivial⟩
  | cache i =>
    obtain ⟨call, keys', pc', hi, hcache, rfl⟩ := step_cache hstep
    obtain ⟨hsym, hok⟩ := h.inv.caches call (List.mem_of_getElem? hi)
    have hevolves := (cacheStep_inv h.inv.keys hsym hok hcache).2.2
    -- A write in time lists its minute, so that the reads find it.
    obtain ⟨hindex, hunlisted⟩ := cacheStep_index h.inv.keys (hwritten call hi) hcache
    exact ⟨hinv, fun m hm => h.unlisted m (hunlisted m hm),
      h.gets_mono (le_refl _) hevolves.committed_suffix hindex⟩
  | get i =>
    obtain ⟨g, keys', pc', hi, hget, rfl⟩ := step_get hstep
    have hg := List.mem_of_getElem? hi
    obtain ⟨hindex, hunlisted, -⟩ := getStep_index hget
    have hcommitted := (getStep_inv h.inv.keys (h.inv.gets g hg) hget).2.2.2
    have hsuffix : st.keys.committed <:+ keys'.committed := hcommitted ▸ List.suffix_refl _
    obtain ⟨hseen, hstarted, hfinds⟩ := h.gets g hg
    refine ⟨hinv, fun m hm => h.unlisted m (hunlisted ▸ hm), ?_⟩
    refine forall_mem_set (h.gets_mono (le_refl _) hsuffix fun m hm => Or.inl (hindex m hm)) ?_
    -- A read drops from the index only what is expired or missing.
    have hfinds' := finds_step h.inv.keys h.unlisted hseen hstarted hfinds hget
    exact ⟨hseen.trans hsuffix, hstarted, hfinds'⟩
  | tick d =>
    obtain rfl := Option.some.inj hstep
    have hnow : st.now ≤ st.now + d := by lia
    refine ⟨hinv, fun m hm => ?_, h.gets_mono hnow (List.suffix_refl _) fun m hm => ?_⟩
    · rcases Bool.or_eq_true_iff.1 hm with hm | hm
      · exact (h.unlisted m hm).trans hnow
      · -- The index expires now: what it lists is beyond retention.
        obtain ⟨hgone, hmem⟩ := Bool.and_eq_true_iff.1 hm
        obtain ⟨e, he, rfl⟩ := SortedSet.mem_def.1 (of_decide_eq_true hmem)
        exact hlasts hgone e he
    · unfold HotKeys.expire at hm
      dsimp only at hm
      split_ifs at hm
      · exact absurd hm (SortedSet.not_mem_empty m)
      · exact Or.inl hm

/-- A series that is returned for minute candles in their places is theirs. -/
theorem seriesOf_of_aggregate {timeframe : CandleTimeframe} {limit retentionSeconds : ℤ}
    {start effectiveEnd «end» : Timestamp} {base : List BaseMinuteCandle} {series : CandleSeries}
    (hwindow : historyWindow timeframe limit «end» = .ok (start, effectiveEnd))
    (hplaced : ∀ b ∈ base, b.Placed)
    (h : aggregateBaseCandles symbol timeframe limit «end» retentionSeconds base = .ok series) :
    SeriesOf symbol timeframe start effectiveEnd base series.data := by
  obtain ⟨cs, hcs, hspec⟩ := aggregateBaseCandles_spec symbol retentionSeconds hwindow hplaced
  rw [h, takeLast_eq_self (length_le_of_window hwindow hcs.sorted fun c hc => hcs.room hc)] at hspec
  unfold CandleSeries.validate at hspec
  split_ifs at hspec
  rw [Except.ok.inj hspec]
  exact hcs

/-- What the calls find is retained. -/
theorem Finding.retained (h : Finding cfg symbol st) : Retained cfg st := by
  constructor
  case visible =>
    intro g hg htimeframe series hpc start effectiveEnd hwindow m hhad hstart hend hwithin
    obtain ⟨-, -, hfinds⟩ := h.gets g hg
    rw [hpc] at hfinds
    obtain ⟨start', effectiveEnd', base, hwindow', hread, hresult⟩ := hfinds series rfl
    rw [htimeframe] at hwindow' hresult
    rw [hwindow] at hwindow'
    obtain ⟨rfl, rfl⟩ := Prod.mk.inj (Except.ok.inj hwindow')
    obtain ⟨-, rfl⟩ := historyWindow_aligned hwindow
    -- The minute is due: it lies in the window, and is to be retained.
    have hdue : Due cfg st.now g.seen start g.end m :=
      ⟨hhad, hstart, by unfold second at hend; lia, hwithin⟩
    -- The call has read it whole, and its bucket has come into the series.
    obtain ⟨b, hb, rfl, taken, hseen, htaken, hagg⟩ := hread.whole m hdue
    have hseries := seriesOf_of_aggregate hwindow hread.placed hresult
    have hself := floorTime_self (hread.placed b hb)
    obtain ⟨c, hc, hopen⟩ := hseries.complete b hb (by rwa [hself]) (by rwa [hself])
    rw [hself] at hopen
    have hbucket := hseries.bucket c hc
    rw [hopen] at hbucket
    exact ⟨c, hc, hopen, taken, hseen, htaken,
      aggregateOf_of_read hread.nodup hb hagg hbucket hread.placed⟩
  case gone =>
    intro g hg htimeframe series hpc c hc
    obtain ⟨-, -, hfinds⟩ := h.gets g hg
    rw [hpc] at hfinds
    obtain ⟨start, effectiveEnd, base, hwindow, hread, hresult⟩ := hfinds series rfl
    rw [htimeframe] at hwindow hresult
    obtain ⟨-, rfl⟩ := historyWindow_aligned hwindow
    have hseries := seriesOf_of_aggregate hwindow hread.placed hresult
    -- A candle of the series comes from some minute that has been read.
    obtain ⟨b, hb⟩ := (hseries.bucket c hc).exists_mem
    obtain ⟨hb, hfloor⟩ := List.mem_filter.1 hb
    have hopen : b.openTime = c.openTime := by
      rw [← floorTime_self (hread.placed b hb)]
      exact of_decide_eq_true hfloor
    have hkept := hread.kept b hb
    rw [hopen] at hkept
    exact hkept.trans (by unfold second; lia)

end Step

/-- In every run in which no transaction is late and the index does not expire before the retention
deadline of a minute that it lists, minute candles are retained. -/
theorem retained_of_path (cfg : Settings) (symbol : Symbol) (t₀ : Timestamp) {st : State}
    (h : Path (step cfg symbol) (fun st a => WrittenInTime cfg st a ∧ IndexLasts cfg st a)
      (.init t₀) st) : Retained cfg st := by
  have hfinding : Finding cfg symbol st := by
    refine h.invariant (Finding cfg symbol) ⟨inv_init cfg symbol t₀, ?_, ?_⟩
      fun st a st' hinv hok hstep => finding_step hinv hok.1 hok.2 hstep
    · exact fun m hm => absurd hm Bool.false_ne_true
    · exact fun g hg => absurd hg List.not_mem_nil
  exact hfinding.retained

/-- A quote is cached in its minute, which is read at the minute's end. -/
def minuteRun : List Label :=
  [.startCache (.sample 1 (30 * second) 100), .tick 30000000, .cache 0, .cache 0, .cache 0,
    .cache 0, .tick 30000000, .startGet .oneMinute 1 (60 * second)] ++ runGet 0

/-- A quote of a minute is still read within the retention. -/
theorem retained_minuteRun :
    ∃ st, (∃ g ∈ st.gets, g.candles.map Candle.activityCount = [1]) ∧ Retained {} st := by
  obtain ⟨st, hpath, hcounts⟩ := Path.exists_of_exec (step {} "AAPL")
    (fun st a => WrittenInTime {} st a ∧ IndexLasts {} st a) (.init 0) minuteRun
    (fun st => ∃ g ∈ st.gets, g.candles.map Candle.activityCount = [1]) (by decide)
  exact ⟨st, hcounts, retained_of_path {} "AAPL" 0 hpath⟩

/-! ### Minutes that have begun -/

section Begun

variable {cfg : Settings} {symbol : Symbol} {st st' : State} {a : Label}

/-- What holds in runs in which no quote is written before its minute has begun: the key of the
index lasts as long as the minutes that it lists are within retention. -/
structure Outlives (cfg : Settings) (symbol : Symbol) (st : State) : Prop where
  inv : Inv cfg symbol st
  begun : ∀ m ∈ st.keys.index, m ≤ st.now
  lasts : ∀ t ∈ st.keys.indexExpiresAt, ∀ m ∈ st.keys.index, retentionDeadline cfg m ≤ t

/-- A step of a call of `cache_quote`, its minute having begun, keeps this. -/
theorem outlives_cacheStep (h : Outlives cfg symbol st) {event : QuoteEvent} {pc pc' : CachePc}
    {keys' : HotKeys} (hexec : pc.isExec = true → minuteOf event ≤ st.now)
    (hstep : cacheStep cfg st.now st.keys event pc = some (keys', pc')) :
    (∀ m ∈ keys'.index, m ≤ st.now) ∧
      ∀ t ∈ keys'.indexExpiresAt, ∀ m ∈ keys'.index, retentionDeadline cfg m ≤ t := by
  rcases cacheStep_effect hstep with ⟨rfl, -⟩ | ⟨-, rfl, -⟩ | ⟨now, left, value, rfl, rfl, -⟩
  · exact ⟨h.begun, h.lasts⟩
  · exact ⟨h.begun, h.lasts⟩
  · have hbegun : ∀ m ∈ (st.keys.commit cfg st.now event now value).index, m ≤ st.now := by
      intro m hm
      rcases ((mem_index_commit h.inv.keys.index_score).1 hm).1 with rfl | hm
      · exact hexec rfl
      · exact h.begun m hm
    refine ⟨hbegun, fun t ht m hm => ?_⟩
    have hle := hbegun m hm
    unfold HotKeys.commit at ht
    dsimp only at ht
    split_ifs at ht
    · cases ht
    · obtain rfl := Option.some.inj ht
      unfold retentionDeadline Settings.retention second at *
      lia

/-- A step keeps the index alive as long as its minutes. -/
theorem outlives_step (h : Outlives cfg symbol st) (hbegun : Begun st a)
    (hstep : step cfg symbol st a = some st') : Outlives cfg symbol st' := by
  have hinv := inv_step h.inv hstep
  cases a with
  | startCache event =>
    rw [step] at hstep
    split_ifs at hstep
    obtain rfl := Option.some.inj hstep
    exact ⟨hinv, h.begun, h.lasts⟩
  | startGet timeframe limit «end» =>
    obtain rfl := Option.some.inj hstep
    exact ⟨hinv, h.begun, h.lasts⟩
  | cache i =>
    obtain ⟨call, keys', pc', hi, hcache, rfl⟩ := step_cache hstep
    obtain ⟨hbegun', hlasts'⟩ := outlives_cacheStep h (hbegun call hi) hcache
    exact ⟨hinv, hbegun', hlasts'⟩
  | get i =>
    obtain ⟨g, keys', pc', hi, hget, rfl⟩ := step_get hstep
    -- A reader only takes minutes out of the index.
    obtain ⟨hindex, -, hexpires⟩ := getStep_index hget
    exact ⟨hinv, fun m hm => h.begun m (hindex m hm),
      fun t ht m hm => h.lasts t (hexpires t ht) m (hindex m hm)⟩
  | tick d =>
    obtain rfl := Option.some.inj hstep
    -- What is left after a while has been there before.
    have hsub : ∀ m ∈ (st.keys.expire (st.now + d)).index, m ∈ st.keys.index := by
      intro m hm
      unfold HotKeys.expire at hm
      dsimp only at hm
      split_ifs at hm
      · exact absurd hm (SortedSet.not_mem_empty m)
      · exact hm
    refine ⟨hinv, fun m hm => (h.begun m (hsub m hm)).trans (by lia), fun t ht m hm => ?_⟩
    refine h.lasts t ?_ m (hsub m hm)
    unfold HotKeys.expire at ht
    dsimp only at ht
    split_ifs at ht
    · cases ht
    · exact ht

/-- Runs in which no quote is written before its minute has begun are runs in which the index does
not expire before the retention deadline of a minute that it lists. -/
theorem path_of_begun {t₀ : Timestamp}
    (h : Path (step cfg symbol) (fun st a => WrittenInTime cfg st a ∧ Begun st a) (.init t₀) st) :
    Path (step cfg symbol) (fun st a => WrittenInTime cfg st a ∧ IndexLasts cfg st a)
      (.init t₀) st := by
  refine (h.of_invariant (Outlives cfg symbol) ?_ (fun st a st' hinv hok hstep =>
    outlives_step hinv hok.2 hstep) fun st a hinv hok => ⟨hok.1, ?_⟩).1
  · refine ⟨inv_init cfg symbol t₀, fun m hm => absurd hm (SortedSet.not_mem_empty m), ?_⟩
    exact fun t _ m hm => absurd hm (SortedSet.not_mem_empty m)
  · unfold IndexLasts
    split
    · next d =>
      intro hgone e he
      obtain ⟨t, ht, hle⟩ := (Option.any_eq_true _ _).1 hgone
      exact (hinv.lasts t ht e.1 (SortedSet.mem_def.2 ⟨e, he, rfl⟩)).trans (of_decide_eq_true hle)
    · trivial

end Begun

/-! ### A minute still to come -/

/-- The series that a call has returned. -/
def GetCall.series (g : GetCall) : Option CandleSeries :=
  match g.pc with
  | .returned (.ok series) => some series
  | _ => none

/-- A quote of the day to come is cached, and its minute is read after thirty days and a half. -/
def aheadRun : List Label :=
  [.startCache (.sample 1 (86400 * second) 100), .cache 0, .cache 0, .cache 0, .cache 0,
    .tick (30 * 86400000000 + 43200000000), .startGet .oneMinute 1 (86460 * second),
    .get 0, .get 0, .get 0]

/-- A minute is lost within the retention in some run. -/
theorem not_retained_of_path :
    ¬ ∀ st, Path (step {} "AAPL") (WrittenInTime {}) (.init 0) st → Retained {} st := by
  obtain ⟨st, hpath, g, hg, htimeframe, hlimit, hend, hseries, hhad, hwithin⟩ := Path.exists_of_exec
    (step {} "AAPL") (WrittenInTime {}) (.init 0) aheadRun
    (fun st => ∃ g ∈ st.gets, g.timeframe = .oneMinute ∧ g.limit = 1 ∧ g.end = 86460 * second ∧
      g.series.map CandleSeries.data = some [] ∧ minuteQuotes (86400 * second) g.seen ≠ [] ∧
      st.now < retentionDeadline {} (86400 * second))
    (by decide)
  intro hall
  obtain ⟨series, hseries, hdata⟩ := Option.map_eq_some_iff.1 hseries
  unfold GetCall.series at hseries
  split at hseries
  · next series' hpc =>
    obtain rfl := Option.some.inj hseries
    have hwindow : historyWindow .oneMinute g.limit g.end =
        .ok (86400 * second, 86460 * second) := by
      rw [hlimit, hend]
      rfl
    obtain ⟨c, hc, -⟩ := (hall st hpath).visible g hg htimeframe _ hpc _ _
      hwindow _ hhad (le_refl _)
      (by decide) hwithin
    rw [hdata] at hc
    exact absurd hc List.not_mem_nil
  · cases hseries

end MarketDataGateway.Hot

import MarketDataGateway.Hot.System

/-!
# No update of a minute candle is lost

As long as the key of a minute's candle has not expired, the candle is the fold of exactly the
quotes of the minute whose call has executed its transaction, in whatever order that happened. Such
a call has found the minute within retention. A call that finds it beyond retention returns without
touching the candle, which may still be there for a second, since times to live are whole seconds
(`not_lostUpdateFree`).
-/

namespace MarketDataGateway.Hot

open Lib

/-- Whether the call has returned or raised. -/
def CachePc.hasEnded : CachePc → Bool
  | .returned _ => true
  | .raised _ => true
  | _ => false

/-- The quotes of the minute `m` whose call has returned. -/
def returnedAt (m : Timestamp) (calls : List CacheCall) : List QuoteEvent :=
  minuteQuotes m ((calls.filter fun call => call.pc.isReturned).map CacheCall.event)

/-- The quotes of the minute `m` whose call has returned after its transaction was executed. -/
def takenInAt (m : Timestamp) (calls : List CacheCall) : List QuoteEvent :=
  minuteQuotes m (calls.filterMap CacheCall.takenIn)

/-- When all calls have ended, the candle of a minute whose key has not expired is the fold of
exactly the quotes of the minute whose call has returned, in any order, and the index has the
minute. -/
def LostUpdateFree (st : State) : Prop :=
  (∀ call ∈ st.caches, call.pc.hasEnded = true) →
  (st.caches.map fun call => call.event.eventId).Nodup →
  ∀ m, st.keys.lost m = false →
    (∀ qs, qs.Perm (returnedAt m st.caches) →
      foldQuotes qs = .ok ((st.keys.candles.value m).map fun cell => cell.value.candle)) ∧
    (returnedAt m st.caches ≠ [] → m ∈ st.keys.index)

/-- What holds in a state of a run from the time `t₀`. -/
structure NoUpdateLost (cfg : Settings) (symbol : Symbol) (t₀ : Timestamp) (st : State) :
    Prop where
  /-- The candle of a minute whose key has never expired is the fold of exactly the quotes taken in,
  in any order. -/
  candle : ∀ m, st.keys.lost m = false → ∀ qs, qs.Perm (takenInAt m st.caches) →
    foldQuotes qs = .ok ((st.keys.candles.value m).map fun cell => cell.value.candle)
  /-- So its activity count is their number, its high and low are their extreme prices, and so
  on. -/
  aggregates : ∀ m, st.keys.lost m = false → ∀ cell, st.keys.candles.value m = some cell →
    cell.value.candle.Aggregates (takenInAt m st.caches)
  /-- The index has the minute of a quote taken in up to its retention deadline, if the key of the
  index has not expired since. -/
  index : ∀ m, takenInAt m st.caches ≠ [] → st.now < retentionDeadline cfg m →
    st.keys.unlisted m = false → m ∈ st.keys.index
  /-- A call that has raised has used up its attempts. -/
  exhausted : ∀ call ∈ st.caches, ∀ err, call.pc = .raised err →
    err = retriesExhausted cfg call.event
  /-- None of its steps has changed the latest quote, a candle, or the index. -/
  unchanged : ∀ i st₁ st₂ call err, Path (step cfg symbol) anyStep (.init t₀) st₁ →
    step cfg symbol st₁ (.cache i) = some st₂ → Path (step cfg symbol) anyStep st₂ st →
    st.caches[i]? = some call → call.pc = .raised err → st₂.keys = st₁.keys

section LostUpdates

variable {cfg : Settings} {symbol : Symbol} {st st' : State} {m : Timestamp} {i : ℕ}
  {event : QuoteEvent} {late : Bool}

/-- The quotes taken in have the event ids of their calls. -/
theorem takenIn_nodup {calls : List CacheCall}
    (h : (calls.map fun call => call.event.eventId).Nodup) :
    ((calls.filterMap CacheCall.takenIn).map QuoteEvent.eventId).Nodup := by
  refine h.sublist ?_
  clear h
  induction calls with
  | nil => exact List.Sublist.refl _
  | cons call calls ih =>
    cases htaken : call.takenIn with
    | none =>
      rw [List.filterMap_cons_none htaken, List.map_cons]
      exact ih.cons _
    | some q =>
      have hq : q = call.event := by
        unfold CacheCall.takenIn at htaken
        split at htaken
        · exact (Option.some.inj htaken).symm
        · cases htaken
      rw [List.filterMap_cons_some htaken, List.map_cons, List.map_cons, hq]
      exact ih.cons_cons _

/-- The candle of a minute whose key has never expired is that of the quotes taken in. -/
theorem Inv.candle_eq (h : Inv cfg symbol st) (hlost : st.keys.lost m = false) :
    (st.keys.candles.value m = none ∧ takenInAt m st.caches = []) ∨
    ∃ cell, st.keys.candles.value m = some cell ∧
      cell.value.candle.Aggregates (takenInAt m st.caches) := by
  have hcomplete := h.keys.complete m hlost
  have hperm : (st.keys.quotesAt m).Perm (takenInAt m st.caches) := by
    rw [hcomplete]
    exact h.committed.filter _
  cases hval : st.keys.candles.value m with
  | none =>
    rw [HotKeys.quotesAt, hval] at hperm
    exact Or.inl ⟨rfl, hperm.nil_eq.symm⟩
  | some cell =>
    rw [HotKeys.quotesAt, hval] at hperm
    exact Or.inr ⟨cell, rfl, cell.value.aggregates.perm hperm⟩

/-- The quotes of a minute, in any order, fold to its candle. -/
theorem Inv.foldQuotes_eq (h : Inv cfg symbol st)
    (hid : (st.caches.map fun call => call.event.eventId).Nodup)
    (hlost : st.keys.lost m = false) {qs : List QuoteEvent}
    (hqs : qs.Perm (takenInAt m st.caches)) :
    foldQuotes qs = .ok ((st.keys.candles.value m).map fun cell => cell.value.candle) := by
  rcases h.candle_eq hlost with ⟨hval, hnil⟩ | ⟨cell, hval, hagg⟩
  · rw [hnil] at hqs
    rw [hqs.eq_nil, hval]
    rfl
  · rw [hval]
    have hid' : ((takenInAt m st.caches).map QuoteEvent.eventId).Nodup :=
      (takenIn_nodup hid).sublist (List.filter_sublist.map _)
    exact foldQuotes_eq_of_aggregates (hagg.perm hqs.symm) ((hqs.map _).nodup_iff.2 hid')

/-- The index has the minutes with a quote taken in, up to their retention deadline. -/
theorem Inv.mem_index (h : Inv cfg symbol st) (hne : takenInAt m st.caches ≠ [])
    (hdeadline : st.now < retentionDeadline cfg m) (hlisted : st.keys.unlisted m = false) :
    m ∈ st.keys.index := by
  refine h.keys.indexed m (fun hnil => hne ?_) hdeadline hlisted
  have hperm : (st.keys.committedAt m).Perm (takenInAt m st.caches) := h.committed.filter _
  rw [hnil] at hperm
  exact hperm.nil_eq.symm

/-- A call that has returned stays so. -/
theorem returned_step {a : Label} (h : st.caches[i]? = some ⟨event, .returned late⟩)
    (hstep : step cfg symbol st a = some st') :
    st'.caches[i]? = some ⟨event, .returned late⟩ := by
  cases a with
  | startCache event' =>
    rw [step] at hstep
    split_ifs at hstep
    obtain rfl := Option.some.inj hstep
    obtain ⟨hlt, -⟩ := List.getElem?_eq_some_iff.1 h
    change (st.caches ++ [_])[i]? = _
    rw [List.getElem?_append_left hlt]
    exact h
  | startGet timeframe limit «end» =>
    obtain rfl := Option.some.inj hstep
    exact h
  | cache j =>
    obtain ⟨call, keys', pc', hj, hcache, rfl⟩ := step_cache hstep
    by_cases hij : j = i
    · -- A call that has returned takes no step.
      subst hij
      obtain rfl := Option.some.inj (hj.symm.trans h)
      cases hcache
    · change (st.caches.set j _)[i]? = _
      rw [List.getElem?_set_ne hij]
      exact h
  | get j =>
    obtain ⟨g, keys', pc', -, -, rfl⟩ := step_get hstep
    exact h
  | tick d =>
    obtain rfl := Option.some.inj hstep
    exact h

/-- No step of a call that raises in the end changes the keys. -/
theorem keys_eq_of_raised {st₁ st₂ : State} {call : CacheCall} {err : PyError}
    (hstep : step cfg symbol st₁ (.cache i) = some st₂)
    (hpath : Path (step cfg symbol) anyStep st₂ st) (hi : st.caches[i]? = some call)
    (hpc : call.pc = .raised err) : st₂.keys = st₁.keys := by
  obtain ⟨call₁, keys', pc', hi₁, hcache, rfl⟩ := step_cache hstep
  apply cacheStep_keys_eq hcache
  by_contra hreturned
  -- Otherwise the call has returned, and stays so.
  obtain ⟨late, rfl⟩ : ∃ late, pc' = .returned late := by
    cases pc' with
    | returned late => exact ⟨late, rfl⟩
    | _ => exact absurd rfl hreturned
  obtain ⟨hlt, -⟩ := List.getElem?_eq_some_iff.1 hi₁
  have hstays : st.caches[i]? = some ⟨call₁.event, .returned late⟩ := by
    refine hpath.invariant (fun st => st.caches[i]? = some ⟨call₁.event, .returned late⟩) ?_
      fun _ _ _ h _ hs => returned_step h hs
    exact List.getElem?_set_self hlt
  rw [hi] at hstays
  rw [Option.some.inj hstays] at hpc
  cases hpc

/-- No update is lost in any run in which the quotes have distinct event ids. -/
theorem noUpdateLost_of_path (cfg : Settings) (symbol : Symbol) (t₀ : Timestamp) {st : State}
    (h : Path (step cfg symbol) anyStep (.init t₀) st)
    (hid : (st.caches.map fun call => call.event.eventId).Nodup) :
    NoUpdateLost cfg symbol t₀ st := by
  have hinv : Inv cfg symbol st := inv_of_path h
  constructor
  case candle => exact fun m hlost qs hqs => hinv.foldQuotes_eq hid hlost hqs
  case aggregates =>
    intro m hlost cell hval
    rcases hinv.candle_eq hlost with ⟨hnone, -⟩ | ⟨cell', hval', hagg⟩
    · rw [hnone] at hval
      cases hval
    · obtain rfl := Option.some.inj (hval.symm.trans hval')
      exact hagg
  case index => exact fun m hne hdeadline hlisted => hinv.mem_index hne hdeadline hlisted
  case exhausted =>
    intro call hcall err hpc
    have hok := (hinv.caches call hcall).2
    rw [hpc] at hok
    exact hok
  case unchanged =>
    exact fun i st₁ st₂ call err _ hstep hpath hi hpc => keys_eq_of_raised hstep hpath hi hpc

/-- The steps of a call that finds no conflict. -/
def cacheRun (i : ℕ) : List Label := [.cache i, .cache i, .cache i, .cache i]

/-- Two calls for one minute read the same candle. The second to execute its transaction is refused,
and repeats its attempt. -/
def conflictRun : List Label :=
  [.startCache (.sample 1 5000000 101), .startCache (.sample 2 3000000 99),
    .cache 0, .cache 1, .cache 0, .cache 1, .cache 0, .cache 1, .cache 0, .cache 1,
    .cache 1, .cache 1, .cache 1]

/-- Two updates that conflict are both counted. -/
theorem noUpdateLost_conflictRun :
    ∃ st, (st.keys.candles.value 0).map (fun cell => cell.value.candle.activityCount) = some 2 ∧
      NoUpdateLost {} "AAPL" 0 st := by
  obtain ⟨st, hpath, hid, hcount⟩ := Path.exists_of_exec (step {} "AAPL") anyStep (.init 0)
    conflictRun (fun st => (st.caches.map fun call => call.event.eventId).Nodup ∧
      (st.keys.candles.value 0).map (fun cell => cell.value.candle.activityCount) = some 2)
    (by decide)
  exact ⟨st, hcount, noUpdateLost_of_path {} "AAPL" 0 hpath hid⟩

/-- Minute candles are retained for a minute. -/
def minuteRetention : Settings := .retaining 60 (by decide)

/-- A quote is taken in half a second before the retention deadline of its minute, and its candle is
stored for a second. In the second half of it, another quote of the minute is processed. -/
def lateQuoteRun : List Label :=
  .startCache (.sample 1 0 100) :: cacheRun 0 ++
    [.tick 600000, .startCache (.sample 2 1000000 101), .cache 1, .cache 1]

/-- An update is lost in some run. -/
theorem not_lostUpdateFree :
    ¬ ∀ st, Path (step minuteRetention "AAPL") anyStep (.init 119500000) st →
      LostUpdateFree st := by
  obtain ⟨st, hpath, hended, hid, hlost, hlength, hcount⟩ := Path.exists_of_exec
    (step minuteRetention "AAPL") anyStep (.init 119500000) lateQuoteRun
    (fun st => (∀ call ∈ st.caches, call.pc.hasEnded = true) ∧
      (st.caches.map fun call => call.event.eventId).Nodup ∧ st.keys.lost 0 = false ∧
      (returnedAt 0 st.caches).length = 2 ∧
      (st.keys.candles.value 0).map (fun cell => cell.value.candle.activityCount) = some 1)
    (by decide)
  intro hall
  have hfold := (hall st hpath hended hid 0 hlost).1 _ (List.Perm.refl _)
  obtain ⟨cell, hval, hone⟩ := Option.map_eq_some_iff.1 hcount
  rw [hval] at hfold
  -- The fold counts both quotes, the stored candle only the first.
  have htwo : cell.value.candle.activityCount = (returnedAt 0 st.caches).length :=
    (aggregates_of_foldQuotes hfold).summary.count
  rw [hone, hlength] at htwo
  exact absurd htwo (by decide)

end LostUpdates

end MarketDataGateway.Hot

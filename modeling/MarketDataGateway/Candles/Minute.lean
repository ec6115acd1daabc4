import MarketDataGateway.Domain
import MarketDataGateway.Lib.Summary
import Mathlib.Data.List.Nodup
import Mathlib.Tactic.Ring

/-!
# One-minute candles

`floor_time`, `BaseMinuteCandle.from_quote`, and `BaseMinuteCandle.with_quote` of `candles.py`.

`Aggregates c qs` says what a candle is for: it is the candle of the quotes `qs`, which are all of
its symbol and its minute. Its activity count is their number, its open and close are the prices of
the quotes with the least and the greatest `(provider_timestamp, event_id)`, and its high and low
are the extreme prices. `from_quote` makes the candle of one quote, `with_quote` takes in one more
(`Aggregates.withQuote`), so a fold gives the candle of its quotes (`foldQuotes_spec`), whatever
their order (`foldQuotes_perm`).
-/

namespace MarketDataGateway

open Lib (Summary)

/-- `floor_time`. The epoch is `int(timestamp)`, which truncates towards zero. -/
def floorTime (value : Timestamp) (intervalSeconds : ℤ) : Timestamp :=
  let epoch := value.tdiv second
  (epoch - epoch % intervalSeconds) * second

section FloorTime

variable {value start : Timestamp} {intervalSeconds : ℤ}

/-- A whole second is rounded down to a multiple of the interval. -/
theorem floorTime_of_dvd (h : second ∣ value) :
    floorTime value intervalSeconds =
      value / (second * intervalSeconds) * (second * intervalSeconds) := by
  have hepoch : value.tdiv second = value / second := Int.tdiv_eq_ediv_of_dvd h
  have hmod : value / second - value / second % intervalSeconds =
      intervalSeconds * (value / second / intervalSeconds) :=
    sub_eq_of_eq_add (Int.mul_ediv_add_emod (value / second) intervalSeconds).symm
  have hdiv : value / second / intervalSeconds = value / (second * intervalSeconds) :=
    Int.ediv_ediv_of_nonneg (by decide)
  rw [floorTime, hepoch, hmod, hdiv]
  ring

/-- `floor_time` gives a multiple of the interval. -/
theorem dvd_floorTime (value : Timestamp) (intervalSeconds : ℤ) :
    second * intervalSeconds ∣ floorTime value intervalSeconds := by
  have hdvd : intervalSeconds ∣
      value.tdiv second - value.tdiv second % intervalSeconds := Int.dvd_self_sub_emod
  rw [floorTime, mul_comm second intervalSeconds]
  exact Int.mul_dvd_mul_right _ hdvd

/-- `floor_time` rounds a whole second down. -/
theorem floorTime_le (h : second ∣ value) (hi : 0 < intervalSeconds) :
    floorTime value intervalSeconds ≤ value := by
  rw [floorTime_of_dvd h]
  exact Int.ediv_mul_le _ (by unfold second; omega)

/-- The epoch that `floor_time` truncates is not below the exact quotient. -/
theorem ediv_le_epoch (value : Timestamp) : value / second ≤ value.tdiv second := by
  rw [Int.tdiv_eq_ediv]
  split_ifs <;> simp

/-- `floor_time` rounds down by less than the interval. -/
theorem lt_floorTime_add (value : Timestamp) (hi : 0 < intervalSeconds) :
    value < floorTime value intervalSeconds + second * intervalSeconds := by
  have hepoch := ediv_le_epoch value
  have hvalue : value < (value / second + 1) * second :=
    Int.lt_ediv_add_one_mul_self value (by decide)
  have hmod := Int.emod_lt_of_pos (value.tdiv second) hi
  unfold floorTime second at *
  dsimp only
  lia

/-- A multiple of the interval that is not after an instant is not after its floor. -/
theorem le_floorTime (hi : 0 < intervalSeconds) (hstart : second * intervalSeconds ∣ start)
    (h : start ≤ value) : start ≤ floorTime value intervalSeconds := by
  obtain ⟨k, rfl⟩ := hstart
  have hepoch : intervalSeconds * k ≤ value.tdiv second := by
    refine le_trans ?_ (ediv_le_epoch value)
    rw [Int.le_ediv_iff_mul_le (by decide)]
    lia
  have hk : k ≤ value.tdiv second / intervalSeconds := (Int.le_ediv_iff_mul_le hi).2
    (by rwa [mul_comm])
  have hfloor : value.tdiv second - value.tdiv second % intervalSeconds =
      intervalSeconds * (value.tdiv second / intervalSeconds) :=
    sub_eq_of_eq_add (Int.mul_ediv_add_emod (value.tdiv second) intervalSeconds).symm
  calc second * intervalSeconds * k = intervalSeconds * k * second := by ring
    _ ≤ intervalSeconds * (value.tdiv second / intervalSeconds) * second :=
      Int.mul_le_mul_of_nonneg_right (Int.mul_le_mul_of_nonneg_left hk hi.le) (by decide)
    _ = floorTime value intervalSeconds := by rw [floorTime, hfloor]

/-- A multiple of the interval is not after the floor of a whole second if and only if it is not
after the second. -/
theorem le_floorTime_iff (h : second ∣ value) (hi : 0 < intervalSeconds)
    (hstart : second * intervalSeconds ∣ start) :
    start ≤ floorTime value intervalSeconds ↔ start ≤ value :=
  ⟨fun hle => hle.trans (floorTime_le h hi), le_floorTime hi hstart⟩

/-- `floor_time` keeps the order of instants. -/
theorem floorTime_mono {value' : Timestamp} (hi : 0 < intervalSeconds) (h : value ≤ value') :
    floorTime value intervalSeconds ≤ floorTime value' intervalSeconds := by
  have hsub (e : ℤ) : e - e % intervalSeconds = e / intervalSeconds * intervalSeconds := by
    have := Int.mul_ediv_add_emod e intervalSeconds
    lia
  have hepoch : value.tdiv second ≤ value'.tdiv second := Int.tdiv_le_tdiv (by decide) h
  rw [floorTime, floorTime, hsub, hsub]
  exact Int.mul_le_mul_of_nonneg_right
    (Int.mul_le_mul_of_nonneg_right (Int.ediv_le_ediv hi hepoch) hi.le) (by decide)

/-- Rounding down to an interval that divides another does not change the other's floor. -/
theorem floorTime_floorTime {j k : ℤ} (hj : 0 < j) (hdvd : j ∣ k) (value : Timestamp) :
    floorTime (floorTime value j) k = floorTime value k := by
  obtain ⟨n, rfl⟩ := hdvd
  have hsub (e i : ℤ) : e - e % i = i * (e / i) := by
    have := Int.mul_ediv_add_emod e i
    lia
  unfold floorTime
  dsimp only
  rw [Int.mul_tdiv_cancel _ (by decide)]
  generalize value.tdiv second = epoch
  have hdiv : j * (epoch / j) / (j * n) = epoch / (j * n) := by
    rw [Int.mul_ediv_mul_of_pos _ _ hj, Int.ediv_ediv_of_nonneg hj.le]
  rw [hsub epoch j, hsub (j * (epoch / j)) (j * n), hsub epoch (j * n), hdiv]

end FloorTime

/-- `BaseMinuteCandle`. -/
@[ext]
structure BaseMinuteCandle where
  /-- `symbol`. -/
  symbol : Symbol
  /-- `open_time`. -/
  openTime : Timestamp
  /-- `open`. -/
  «open» : ℚ
  /-- `high`. -/
  high : ℚ
  /-- `low`. -/
  low : ℚ
  /-- `close`. -/
  close : ℚ
  /-- `activity_count`. -/
  activityCount : ℕ
  /-- `first_provider_timestamp`. -/
  firstProviderTimestamp : Timestamp
  /-- `last_provider_timestamp`. -/
  lastProviderTimestamp : Timestamp
  /-- `first_event_id`. -/
  firstEventId : EventId
  /-- `last_event_id`. -/
  lastEventId : EventId
  deriving DecidableEq

namespace BaseMinuteCandle

/-- `BaseMinuteCandle.from_quote`. -/
def fromQuote (event : QuoteEvent) : BaseMinuteCandle where
  symbol := event.symbol
  openTime := floorTime event.providerTimestamp 60
  «open» := event.price
  high := event.price
  low := event.price
  close := event.price
  activityCount := 1
  firstProviderTimestamp := event.providerTimestamp
  lastProviderTimestamp := event.providerTimestamp
  firstEventId := event.eventId
  lastEventId := event.eventId

/-- The pair `(first_provider_timestamp, str(first_event_id))`. -/
def firstKey (c : BaseMinuteCandle) : Timestamp ×ₗ EventId :=
  toLex (c.firstProviderTimestamp, c.firstEventId)

/-- The pair `(last_provider_timestamp, str(last_event_id))`. -/
def lastKey (c : BaseMinuteCandle) : Timestamp ×ₗ EventId :=
  toLex (c.lastProviderTimestamp, c.lastEventId)

/-- The update of `with_quote`, for a quote that belongs to the candle. -/
def update (c : BaseMinuteCandle) (event : QuoteEvent) : BaseMinuteCandle where
  symbol := c.symbol
  openTime := c.openTime
  high := max c.high event.price
  low := min c.low event.price
  activityCount := c.activityCount + 1
  «open» := if event.key < c.firstKey then event.price else c.open
  firstProviderTimestamp :=
    if event.key < c.firstKey then event.providerTimestamp else c.firstProviderTimestamp
  firstEventId := if event.key < c.firstKey then event.eventId else c.firstEventId
  close := if c.lastKey < event.key then event.price else c.close
  lastProviderTimestamp :=
    if c.lastKey < event.key then event.providerTimestamp else c.lastProviderTimestamp
  lastEventId := if c.lastKey < event.key then event.eventId else c.lastEventId

/-- `BaseMinuteCandle.with_quote`. -/
def withQuote (c : BaseMinuteCandle) (event : QuoteEvent) : Except PyError BaseMinuteCandle :=
  if event.symbol ≠ c.symbol then
    .error (.valueError "quote symbol does not match candle symbol")
  else if floorTime event.providerTimestamp 60 ≠ c.openTime then
    .error (.valueError "quote does not belong to this minute candle")
  else
    .ok (c.update event)

/-- The candle's data as a summary of keyed prices. -/
def summary (c : BaseMinuteCandle) : Summary (Timestamp ×ₗ EventId) ℚ where
  count := c.activityCount
  first := c.firstKey
  last := c.lastKey
  opening := c.open
  closing := c.close
  high := c.high
  low := c.low

/-- `event` is of the candle's symbol and minute. -/
def Covers (c : BaseMinuteCandle) (event : QuoteEvent) : Prop :=
  event.symbol = c.symbol ∧ floorTime event.providerTimestamp 60 = c.openTime

/-- `c` is the candle of the quotes `qs`. -/
structure Aggregates (c : BaseMinuteCandle) (qs : List QuoteEvent) : Prop where
  /-- The quotes are of the candle's symbol and minute. -/
  covers : ∀ q ∈ qs, c.Covers q
  /-- The candle's data summarize the quotes' prices in the order of their keys. -/
  summary : c.summary.Of QuoteEvent.key QuoteEvent.price qs

end BaseMinuteCandle

open BaseMinuteCandle

/-- `from_quote` and then `with_quote`, folded over a list of quotes; no candle for none. -/
def foldQuotes : List QuoteEvent → Except PyError (Option BaseMinuteCandle)
  | [] => .ok none
  | q :: qs => some <$> qs.foldlM withQuote (fromQuote q)

/-! ## What the two operations do -/

/-- The summary of an updated candle takes in the quote. -/
theorem BaseMinuteCandle.summary_update (c : BaseMinuteCandle) (event : QuoteEvent) :
    (c.update event).summary = c.summary.add event.key event.price := by
  have hfirst : (c.update event).firstKey =
      if event.key < c.firstKey then event.key else c.firstKey := by
    change toLex (if event.key < c.firstKey then event.providerTimestamp
      else c.firstProviderTimestamp, if event.key < c.firstKey then event.eventId
      else c.firstEventId) = _
    split_ifs <;> rfl
  have hlast : (c.update event).lastKey =
      if c.lastKey < event.key then event.key else c.lastKey := by
    change toLex (if c.lastKey < event.key then event.providerTimestamp
      else c.lastProviderTimestamp, if c.lastKey < event.key then event.eventId
      else c.lastEventId) = _
    split_ifs <;> rfl
  ext1
  · rfl
  · exact hfirst
  · exact hlast
  · rfl
  · rfl
  · rfl
  · rfl

/-- `from_quote` makes the candle of one quote. -/
theorem aggregates_fromQuote (event : QuoteEvent) : (fromQuote event).Aggregates [event] where
  covers q hq := by
    obtain rfl := List.mem_singleton.1 hq
    exact ⟨rfl, rfl⟩
  summary := Summary.of_single QuoteEvent.key QuoteEvent.price event

/-- `with_quote` accepts a quote that the candle covers. -/
theorem BaseMinuteCandle.Covers.withQuote_eq {c : BaseMinuteCandle} {event : QuoteEvent}
    (h : c.Covers event) : c.withQuote event = .ok (c.update event) := by
  obtain ⟨hs, hm⟩ := h
  simp [BaseMinuteCandle.withQuote, hs, hm]

/-- `with_quote` rejects a quote that the candle does not cover. -/
theorem BaseMinuteCandle.covers_of_withQuote_eq {c c' : BaseMinuteCandle} {event : QuoteEvent}
    (h : c.withQuote event = .ok c') : c.Covers event ∧ c' = c.update event := by
  unfold BaseMinuteCandle.withQuote at h
  split_ifs at h with hs hm
  · exact ⟨⟨not_not.1 hs, not_not.1 hm⟩, (Except.ok.inj h).symm⟩

/-- An updated candle is the candle of one more quote. -/
theorem BaseMinuteCandle.Aggregates.update {c : BaseMinuteCandle} {qs : List QuoteEvent}
    (h : c.Aggregates qs) {event : QuoteEvent} (hc : c.Covers event) :
    (c.update event).Aggregates (event :: qs) where
  covers q hq := by
    rcases List.mem_cons.1 hq with rfl | hq
    · exact hc
    · exact h.covers q hq
  summary := by
    rw [summary_update]
    exact h.summary.add event

/-- `with_quote`, on a quote that the candle covers, makes the candle of one more quote. -/
theorem BaseMinuteCandle.Aggregates.withQuote {c : BaseMinuteCandle} {qs : List QuoteEvent}
    (h : c.Aggregates qs) {event : QuoteEvent} (hc : c.Covers event) :
    ∃ c', c.withQuote event = .ok c' ∧ c'.Aggregates (event :: qs) :=
  ⟨_, hc.withQuote_eq, h.update hc⟩

/-- The order of the quotes does not matter. -/
theorem BaseMinuteCandle.Aggregates.perm {c : BaseMinuteCandle} {qs qs' : List QuoteEvent}
    (h : c.Aggregates qs) (hp : qs.Perm qs') : c.Aggregates qs' where
  covers q hq := h.covers q (hp.mem_iff.2 hq)
  summary := h.summary.perm hp

/-- Distinct event ids make the keys of a list's quotes distinct. -/
theorem key_injOn_of_nodup {qs : List QuoteEvent} (h : (qs.map QuoteEvent.eventId).Nodup) :
    Set.InjOn QuoteEvent.key {q | q ∈ qs} := by
  intro q hq q' hq' hk
  exact List.inj_on_of_nodup_map h hq hq' (QuoteEvent.eventId_eq_of_key_eq hk)

/-- Quotes with distinct event ids have one candle. -/
theorem BaseMinuteCandle.Aggregates.unique {c c' : BaseMinuteCandle} {qs : List QuoteEvent}
    (h : c.Aggregates qs) (h' : c'.Aggregates qs) (hid : (qs.map QuoteEvent.eventId).Nodup) :
    c = c' := by
  have hsum : c.summary = c'.summary := h.summary.unique h'.summary (key_injOn_of_nodup hid)
  -- The symbol and the minute are those of any of the quotes.
  obtain ⟨q, hq⟩ := List.exists_mem_of_ne_nil _ h.summary.ne_nil
  obtain ⟨hs, ho⟩ := h.covers q hq
  obtain ⟨hs', ho'⟩ := h'.covers q hq
  have hfirst : c.firstKey = c'.firstKey := congrArg Summary.first hsum
  have hlast : c.lastKey = c'.lastKey := congrArg Summary.last hsum
  ext1
  · rw [← hs, hs']
  · rw [← ho, ho']
  · exact congrArg Summary.opening hsum
  · exact congrArg Summary.high hsum
  · exact congrArg Summary.low hsum
  · exact congrArg Summary.closing hsum
  · exact congrArg Summary.count hsum
  · exact congrArg (fun k => (ofLex k).1) hfirst
  · exact congrArg (fun k => (ofLex k).1) hlast
  · exact congrArg (fun k => (ofLex k).2) hfirst
  · exact congrArg (fun k => (ofLex k).2) hlast

/-! ## Folds -/

/-- `with_quote` folded over quotes that a candle covers makes the candle of them all. -/
theorem foldlM_withQuote_spec {c : BaseMinuteCandle} {qs₀ : List QuoteEvent}
    (h : c.Aggregates qs₀) (qs : List QuoteEvent) (hc : ∀ q ∈ qs, c.Covers q) :
    ∃ c', qs.foldlM withQuote c = .ok c' ∧ c'.Aggregates (qs ++ qs₀) := by
  -- `update` keeps the symbol and the minute, so the candle covers the rest of the quotes too.
  induction qs generalizing c qs₀ with
  | nil => exact ⟨c, rfl, h⟩
  | cons q qs ih =>
    have hq : c.Covers q := hc q List.mem_cons_self
    obtain ⟨c', hfold, hagg⟩ := ih (h.update hq)
      (fun q' hq' => hc q' (List.mem_cons_of_mem _ hq'))
    refine ⟨c', ?_, hagg.perm ?_⟩
    · rw [List.foldlM_cons, hq.withQuote_eq]
      exact hfold
    · simp

/-- What `with_quote` folded over quotes gives, if it raises nothing, is the candle of them all. -/
theorem aggregates_of_foldlM {c c' : BaseMinuteCandle} {qs₀ qs : List QuoteEvent}
    (h : c.Aggregates qs₀) (hfold : qs.foldlM BaseMinuteCandle.withQuote c = .ok c') :
    c'.Aggregates (qs ++ qs₀) := by
  induction qs generalizing c qs₀ with
  | nil =>
    obtain rfl : c = c' := Except.ok.inj hfold
    exact h
  | cons q qs ih =>
    rw [List.foldlM_cons] at hfold
    cases hq : c.withQuote q with
    | error err =>
      rw [hq] at hfold
      cases hfold
    | ok c₁ =>
      rw [hq] at hfold
      obtain ⟨hcovers, rfl⟩ := covers_of_withQuote_eq hq
      exact (ih (h.update hcovers) hfold).perm List.perm_middle

/-- What a fold gives, if it raises nothing, is the candle of the quotes. -/
theorem aggregates_of_foldQuotes {c : BaseMinuteCandle} {qs : List QuoteEvent}
    (h : foldQuotes qs = .ok (some c)) : c.Aggregates qs := by
  cases qs with
  | nil => cases h
  | cons q qs =>
    rw [foldQuotes] at h
    cases hfold : qs.foldlM BaseMinuteCandle.withQuote (fromQuote q) with
    | error err =>
      rw [hfold] at h
      cases h
    | ok c' =>
      rw [hfold] at h
      obtain rfl : c' = c := Option.some.inj (Except.ok.inj h)
      exact (aggregates_of_foldlM (aggregates_fromQuote q) hfold).perm
        (List.perm_append_singleton q qs)

/-- A fold over one more quote goes on with `with_quote`. -/
theorem foldQuotes_append_singleton {c : BaseMinuteCandle} {qs : List QuoteEvent}
    (h : foldQuotes qs = .ok (some c)) (q : QuoteEvent) :
    foldQuotes (qs ++ [q]) = some <$> c.withQuote q := by
  cases qs with
  | nil => cases h
  | cons q₀ qs =>
    rw [foldQuotes] at h
    rw [List.cons_append, foldQuotes, List.foldlM_append]
    cases hfold : qs.foldlM BaseMinuteCandle.withQuote (fromQuote q₀) with
    | error err =>
      rw [hfold] at h
      cases h
    | ok c' =>
      rw [hfold] at h
      obtain rfl : c' = c := Option.some.inj (Except.ok.inj h)
      change some <$> [q].foldlM BaseMinuteCandle.withQuote c' = _
      rw [List.foldlM_cons]
      cases c'.withQuote q <;> rfl

/-- Quotes of one symbol and one minute. -/
def SameMinute (symbol : Symbol) (minute : Timestamp) (qs : List QuoteEvent) : Prop :=
  ∀ q ∈ qs, q.symbol = symbol ∧ floorTime q.providerTimestamp 60 = minute

/-- A fold over quotes of one symbol and minute gives their candle, and none for no quote. -/
theorem foldQuotes_spec {symbol : Symbol} {minute : Timestamp} {qs : List QuoteEvent}
    (h : SameMinute symbol minute qs) (hne : qs ≠ []) :
    ∃ c, foldQuotes qs = .ok (some c) ∧ c.Aggregates qs ∧ c.symbol = symbol ∧
      c.openTime = minute := by
  cases qs with
  | nil => exact absurd rfl hne
  | cons q qs =>
    obtain ⟨hs, hm⟩ := h q List.mem_cons_self
    have hc : ∀ q' ∈ qs, (fromQuote q).Covers q' := fun q' hq' => by
      obtain ⟨hs', hm'⟩ := h q' (List.mem_cons_of_mem _ hq')
      exact ⟨hs'.trans hs.symm, hm'.trans hm.symm⟩
    obtain ⟨c, hfold, hagg⟩ := foldlM_withQuote_spec (aggregates_fromQuote q) qs hc
    obtain ⟨hcs, hco⟩ := hagg.covers q (by simp)
    refine ⟨c, ?_, hagg.perm (List.perm_append_singleton q qs), hcs.symm.trans hs,
      hco.symm.trans hm⟩
    rw [foldQuotes, hfold]
    rfl

/-- With distinct event ids, the candle of a list of quotes is what the fold gives. -/
theorem foldQuotes_eq_of_aggregates {c : BaseMinuteCandle} {qs : List QuoteEvent}
    (h : c.Aggregates qs) (hid : (qs.map QuoteEvent.eventId).Nodup) :
    foldQuotes qs = .ok (some c) := by
  obtain ⟨c', hfold, hagg, -, -⟩ := foldQuotes_spec (fun q hq => h.covers q hq) h.summary.ne_nil
  rw [hfold, hagg.unique h hid]

/-- With distinct event ids, the fold does not depend on the order of the quotes. -/
theorem foldQuotes_perm {symbol : Symbol} {minute : Timestamp} {qs qs' : List QuoteEvent}
    (h : SameMinute symbol minute qs) (hid : (qs.map QuoteEvent.eventId).Nodup)
    (hp : qs.Perm qs') : foldQuotes qs' = foldQuotes qs := by
  by_cases hne : qs = []
  · subst hne
    rw [hp.nil_eq]
  · obtain ⟨c, hfold, hagg, -, -⟩ := foldQuotes_spec h hne
    rw [hfold]
    exact foldQuotes_eq_of_aggregates (hagg.perm hp) ((hp.map _).nodup_iff.1 hid)

end MarketDataGateway

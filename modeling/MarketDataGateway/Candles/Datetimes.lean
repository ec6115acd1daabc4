import MarketDataGateway.Candles.Series
import MarketDataGateway.Lib.Calendar
import MarketDataGateway.Lib.Loops
import MarketDataGateway.Models.Quote

/-!
# Buckets and windows of datetimes

`floor_time`, `history_window` and the dates of `historical_candles` on the datetimes of Python,
which have a first and a last one. A timestamp is the exact number of seconds.

`int` cuts the fraction of a second off, so that before 1970 a time in the last second before a
bucket falls into the bucket: `Cut` is the condition. Where it does not hold `floorTime` is the
floor (`floorTime_isFloor_iff`). The dates of a window are dates if there is room for the window
after `datetime.min` (`requestWindow_iff`).
-/

namespace MarketDataGateway.Datetimes

open Lib Models

/-! ## The code -/

/-- The exceptions that the operations on datetimes raise. -/
inductive DatetimeError
  /-- `ValueError`. -/
  | valueError (message : String)
  /-- `OverflowError`. -/
  | overflowError
  deriving DecidableEq, Repr

/-- `datetime.min`, in UTC. -/
def minInstant : Timestamp := dayNumber 1 1 1 * 86400 * second

/-- `datetime.max`, in UTC. -/
def maxInstant : Timestamp := (dayNumber 9999 12 31 + 1) * 86400 * second - 1

/-- A datetime in UTC. -/
abbrev UtcDatetime := { t : Timestamp // minInstant ≤ t ∧ t ≤ maxInstant }

/-- A datetime in UTC as a datetime. -/
def toDatetime (t : UtcDatetime) : Datetime := ⟨t.1, some 0⟩

/-- The datetime in UTC of an instant, if there is one. -/
def inRange (t : Timestamp) (error : DatetimeError) : Except DatetimeError UtcDatetime :=
  if h : minInstant ≤ t ∧ t ≤ maxInstant then .ok ⟨t, h⟩ else .error error

/-- `value.astimezone(UTC)`, for an aware value. -/
def astimezone (value : Datetime) : Except DatetimeError UtcDatetime :=
  inRange value.instant .overflowError

/-- `datetime.fromtimestamp(epoch, tz=UTC)`. -/
def fromtimestamp (epoch : ℤ) : Except DatetimeError UtcDatetime :=
  inRange (epoch * second) (.valueError "year is out of range")

/-- `value - timedelta(seconds=seconds)`. -/
def minusSeconds (value : UtcDatetime) (seconds : ℤ) : Except DatetimeError UtcDatetime :=
  inRange (value.1 - seconds * second) .overflowError

/-- `floor_time`. -/
def floorTime (value : Datetime) (intervalSeconds : ℤ) : Except DatetimeError UtcDatetime :=
  match value.utcoffset with
  | none => .error (.valueError "timestamps must include timezone information")
  | some _ => do
    let utcValue ← astimezone value
    let epoch := utcValue.1.tdiv second
    fromtimestamp (epoch - epoch % intervalSeconds)

/-- `history_window`. -/
def historyWindow (timeframe : CandleTimeframe) (limit : ℤ) («end» : Datetime) :
    Except DatetimeError (UtcDatetime × UtcDatetime) :=
  if limit < 1 then
    .error (.valueError "limit must be positive")
  else
    match «end».utcoffset with
    | none => .error (.valueError "end must include timezone information")
    | some _ => do
      let intervalSeconds := timeframeSeconds timeframe
      let effectiveEnd ← astimezone «end»
      let bucket ← floorTime (toDatetime effectiveEnd) intervalSeconds
      let lastClosedBucket ← minusSeconds bucket intervalSeconds
      let start ← minusSeconds lastClosedBucket (intervalSeconds * (limit - 1))
      return (start, effectiveEnd)

/-- How a request for candles fails on its dates. -/
inductive RequestError
  /-- The answer has the status 422. -/
  | unprocessable (detail : String)
  /-- The handler raises. -/
  | raised (error : DatetimeError)
  deriving DecidableEq, Repr

/-- The effective end of `historical_candles`. -/
def requestEnd (now : UtcDatetime) : Option Datetime → Except RequestError UtcDatetime
  | none => .ok now
  | some «end» =>
    match «end».utcoffset with
    | none => .error (.unprocessable "end must include timezone information")
    | some _ => do
      let effectiveEnd ← (astimezone «end»).mapError .raised
      if now.1 < effectiveEnd.1 then .error (.unprocessable "end must not be in the future")
      else return effectiveEnd

/-- The window that `historical_candles` reads. -/
def requestWindow (now : UtcDatetime) (timeframe : CandleTimeframe) (limit : ℤ)
    («end» : Option Datetime) :
    Except RequestError (UtcDatetime × UtcDatetime) := do
  let effectiveEnd ← requestEnd now «end»
  (historyWindow timeframe limit (toDatetime effectiveEnd)).mapError .raised

/-! ## The floor of an instant -/

variable {v f k limit : ℤ} {timeframe : CandleTimeframe} {value : Datetime}

/-- `f` is the start of the interval of `k` seconds that `v` is in. -/
def IsFloor (k v f : ℤ) : Prop := second * k ∣ f ∧ f ≤ v ∧ v < f + second * k

/-- The instant is before 1970, and less than a second before the start of an interval. -/
def Cut (k v : ℤ) : Prop := v < 0 ∧ ∃ start, second * k ∣ start ∧ start - second < v ∧ v < start

/-- There is one floor at most. -/
theorem IsFloor.unique {g : ℤ} (hf : IsFloor k v f) (hg : IsFloor k v g) : f = g := by
  obtain ⟨⟨m, rfl⟩, hle, hlt⟩ := hf
  obtain ⟨⟨n, rfl⟩, hle', hlt'⟩ := hg
  generalize second * k = width at *
  have hpos : 0 < width := by omega
  have hmn : m < n + 1 := lt_of_mul_lt_mul_left (by rw [mul_add, mul_one]; omega) hpos.le
  have hnm : n < m + 1 := lt_of_mul_lt_mul_left (by rw [mul_add, mul_one]; omega) hpos.le
  obtain rfl : m = n := by omega
  rfl

/-- Only the whole seconds of an instant count. -/
theorem floorTime_whole (v k : ℤ) :
    MarketDataGateway.floorTime (v.tdiv second * second) k = MarketDataGateway.floorTime v k := by
  unfold MarketDataGateway.floorTime
  rw [Int.mul_tdiv_cancel _ (by decide)]

/-- The whole seconds are less than a second from the instant. They are after it before 1970 only,
and never before it then. -/
theorem whole_bounds (v : ℤ) :
    v.tdiv second * second < v + second ∧ v - second < v.tdiv second * second ∧
      (v < v.tdiv second * second → v < 0) ∧ (v < 0 → v ≤ v.tdiv second * second) := by
  rw [Int.tdiv_eq_ediv]
  unfold second
  split_ifs with h
  · omega
  · rw [show (1000000 : ℤ).sign = 1 from rfl]
    omega

/-- `floor_time` gives the floor unless the fraction of the second is cut off upwards. -/
theorem floorTime_isFloor_iff (hk : 0 < k) (v : ℤ) :
    IsFloor k v (MarketDataGateway.floorTime v k) ↔ ¬Cut k v := by
  obtain ⟨hupper, hlower, hneg, hnotBefore⟩ := whole_bounds v
  have hwhole : second ∣ v.tdiv second * second := Dvd.intro_left _ rfl
  generalize hw : v.tdiv second * second = whole at *
  have hsame : MarketDataGateway.floorTime whole k = MarketDataGateway.floorTime v k := by
    rw [← hw, floorTime_whole]
  constructor
  · rintro ⟨-, hle, -⟩ ⟨hold, start, hdvd, hbefore, hafter⟩
    -- The start of the interval is the next whole second.
    have hstart : start ≤ whole := by
      have hnotBefore := hnotBefore hold
      obtain ⟨m, rfl⟩ := (Dvd.intro k rfl).trans hdvd
      obtain ⟨n, rfl⟩ := hwhole
      unfold second at *
      omega
    have hfloor := (le_floorTime_iff hwhole hk hdvd).2 hstart
    rw [hsame] at hfloor
    exact (hfloor.trans hle).not_gt hafter
  · intro hcut
    have hfloor := floorTime_le hwhole hk
    rw [hsame] at hfloor
    refine ⟨dvd_floorTime v k, ?_, lt_floorTime_add v hk⟩
    by_contra hlate
    have hafter := not_le.1 hlate
    exact hcut ⟨hneg (hafter.trans_le hfloor), _, dvd_floorTime v k,
      sub_lt_iff_lt_add.2 (hfloor.trans_lt hupper), hafter⟩

/-! ## The code and the floor -/

/-- Steps after each other succeed if each one does. -/
theorem bind_eq_ok_iff {E A B : Type} {m : Except E A} {g : A → Except E B} {b : B} :
    m.bind g = .ok b ↔ ∃ a, m = .ok a ∧ g a = .ok b := bind_eq_ok

/-- A value within the bounds is in range. -/
theorem inRange_of_mem {error : DatetimeError} (h : minInstant ≤ v ∧ v ≤ maxInstant) :
    inRange v error = .ok ⟨v, h⟩ := dif_pos h

/-- What is made in range is the datetime of the instant. -/
theorem inRange_eq_ok_iff {error : DatetimeError} {t : UtcDatetime} :
    inRange v error = .ok t ↔ v = t.1 := by
  unfold inRange
  split_ifs with h
  · rw [Except.ok.injEq, Subtype.ext_iff]
  · constructor
    · exact fun hok => nomatch hok
    · rintro rfl
      exact absurd t.2 h

/-- A result with another error is given if the result is. -/
theorem mapError_eq_ok_iff {E F A : Type} {m : Except E A} {g : E → F} {a : A} :
    m.mapError g = .ok a ↔ m = .ok a := by
  cases m with
  | error e => exact ⟨(fun h => nomatch h), fun h => nomatch h⟩
  | ok a' => exact ⟨fun h => congrArg _ (Except.ok.inj h), fun h => congrArg _ (Except.ok.inj h)⟩

/-- `floor_time` of an aware datetime is that of its instant, if that is a date. -/
theorem floorTime_eq {offset : ℤ} (haware : value.utcoffset = some offset)
    (hvalue : minInstant ≤ value.instant ∧ value.instant ≤ maxInstant) (k : ℤ) :
    floorTime value k =
      inRange (MarketDataGateway.floorTime value.instant k)
      (.valueError "year is out of range") := by
  unfold floorTime astimezone
  rw [haware, inRange_of_mem hvalue]
  rfl

/-- The first instant starts an interval of each timeframe. -/
theorem dvd_minInstant (hday : k ∣ 86400) : second * k ∣ minInstant := by
  rw [mul_comm]
  exact Int.mul_dvd_mul (hday.trans (Dvd.intro_left _ rfl)) (dvd_refl _)

/-- So the floor of a date is a date. -/
theorem floorTime_mem (hv : minInstant ≤ v ∧ v ≤ maxInstant) (hk : 0 < k) (hday : k ∣ 86400) :
    minInstant ≤ MarketDataGateway.floorTime v k ∧
    MarketDataGateway.floorTime v k ≤ maxInstant := by
  obtain ⟨hupper, -, hneg, -⟩ := whole_bounds v
  constructor
  · exact le_floorTime hk (dvd_minInstant hday) hv.1
  · have hfloor := @floorTime_le (v.tdiv second * second) k (Dvd.intro_left _ rfl) hk
    rw [floorTime_whole] at hfloor
    refine hfloor.trans ?_
    rcases le_or_gt (v.tdiv second * second) v with hle | hgt
    · exact hle.trans hv.2
    · calc v.tdiv second * second ≤ v + second := hupper.le
        _ ≤ 0 + second := Int.add_le_add_right (hneg hgt).le second
        _ ≤ maxInstant := by decide

/-- A day is made of whole candles of every timeframe. -/
theorem timeframeSeconds_dvd_day (timeframe : CandleTimeframe) :
    timeframeSeconds timeframe ∣ 86400 := by
  cases timeframe <;> decide

/-- `floor_time` gives the one start of the interval that the datetime is in, and to go by way of
the minute changes nothing. -/
def FloorsRightly (value : Datetime) (timeframe : CandleTimeframe) : Prop :=
  (∃ f : UtcDatetime, floorTime value (timeframeSeconds timeframe) = .ok f ∧
    IsFloor (timeframeSeconds timeframe) value.instant f.1 ∧
    ∀ g, IsFloor (timeframeSeconds timeframe) value.instant g → g = f.1) ∧
  ∀ k, 0 < k → 60 ∣ k →
    ((floorTime value 60).bind fun minute => floorTime (toDatetime minute) k) = floorTime value k

/-- The minute of a datetime falls into the intervals that the datetime falls into. -/
theorem floorTime_minute {offset : ℤ} (haware : value.utcoffset = some offset)
    (hvalue : minInstant ≤ value.instant ∧ value.instant ≤ maxInstant) (hk : 60 ∣ k) :
    ((floorTime value 60).bind fun minute => floorTime (toDatetime minute) k) =
    floorTime value k := by
  have hminute := floorTime_mem hvalue (show (0 : ℤ) < 60 by decide) (by decide)
  have hinstant (t : UtcDatetime) : (toDatetime t).instant = t.1 := sub_zero _
  rw [floorTime_eq haware hvalue, floorTime_eq haware hvalue, inRange_of_mem hminute, Except.bind,
    floorTime_eq rfl (by rw [hinstant]; exact hminute), hinstant,
    floorTime_floorTime (by decide) hk]

/-- `floor_time` floors rightly unless a fraction of a second is cut off upwards. -/
theorem floorTime_rightly_iff {offset : ℤ} (haware : value.utcoffset = some offset)
    (hvalue : minInstant ≤ value.instant ∧ value.instant ≤ maxInstant)
    (timeframe : CandleTimeframe) :
    FloorsRightly value timeframe ↔ ¬Cut (timeframeSeconds timeframe) value.instant := by
  have hpos := timeframeSeconds_pos timeframe
  have hmem := floorTime_mem hvalue hpos (timeframeSeconds_dvd_day timeframe)
  have hfloor : floorTime value (timeframeSeconds timeframe) = .ok ⟨_, hmem⟩ := by
    rw [floorTime_eq haware hvalue, inRange_of_mem hmem]
  rw [← floorTime_isFloor_iff hpos]
  constructor
  · rintro ⟨⟨f, hf, hisFloor, -⟩, -⟩
    obtain rfl := Except.ok.inj (hfloor.symm.trans hf)
    exact hisFloor
  · exact fun h => ⟨⟨_, hfloor, h, fun g hg => hg.unique h⟩,
      fun k _ hk => floorTime_minute haware hvalue hk⟩

/-- In the last second of 1969, by the clock of a place east of Greenwich. -/
theorem floorTime_rightly_iff_sample : FloorsRightly ⟨3599000000, some 3600000000⟩ .oneDay ↔
    ¬Cut (timeframeSeconds .oneDay) (Datetime.instant ⟨3599000000, some 3600000000⟩) :=
  floorTime_rightly_iff rfl (by decide) .oneDay

/-- Half a second before 1970 is put into the first minute of 1970. -/
theorem not_floorsRightly : ¬∀ (value : Datetime) (offset : ℤ), value.utcoffset = some offset →
    minInstant ≤ value.instant ∧ value.instant ≤ maxInstant →
    ∀ timeframe, FloorsRightly value timeframe := by
  intro h
  obtain ⟨⟨f, hf, ⟨-, hle, -⟩, -⟩, -⟩ := h ⟨-500000, some 0⟩ 0 rfl (by decide) .oneMinute
  have hzero : floorTime ⟨-500000, some 0⟩ 60 = .ok ⟨0, by decide⟩ := rfl
  obtain rfl := Except.ok.inj (hzero.symm.trans hf)
  exact absurd hle (by decide)

/-! ## The window of a request -/

variable {now start effectiveEnd : UtcDatetime} {«end» : Datetime}

/-- What `history_window` returns: the effective end, and the start as many intervals before the
bucket of the end as the limit says. -/
theorem historyWindow_eq_ok_iff {offset : ℤ} (haware : «end».utcoffset = some offset)
    (hlimit : 1 ≤ limit) :
    historyWindow timeframe limit «end» = .ok (start, effectiveEnd) ↔
    «end».instant = effectiveEnd.1 ∧
      MarketDataGateway.floorTime «end».instant (timeframeSeconds timeframe) -
        limit * (timeframeSeconds timeframe * second) = start.1 := by
  have hpos := timeframeSeconds_pos timeframe
  have hinstant (t : UtcDatetime) : (toDatetime t).instant = t.1 := sub_zero _
  have hsplit (a : ℤ) : a - timeframeSeconds timeframe * second -
      timeframeSeconds timeframe * (limit - 1) * second =
      a - limit * (timeframeSeconds timeframe * second) := by
    ring
  unfold historyWindow
  rw [if_neg (by omega), haware]
  show (astimezone «end»).bind _ = _ ↔ _
  rw [bind_eq_ok_iff]
  constructor
  · rintro ⟨e, he, h⟩
    obtain ⟨bucket, hbucket, h⟩ := bind_eq_ok_iff.1 h
    obtain ⟨last, hlast, h⟩ := bind_eq_ok_iff.1 h
    obtain ⟨s, hs, h⟩ := bind_eq_ok_iff.1 h
    obtain ⟨rfl, rfl⟩ := Prod.mk.inj (Except.ok.inj h)
    have hend := inRange_eq_ok_iff.1 he
    rw [floorTime_eq rfl (by rw [hinstant]; exact e.2), hinstant, inRange_eq_ok_iff] at hbucket
    have hlast := inRange_eq_ok_iff.1 hlast
    have hs := inRange_eq_ok_iff.1 hs
    refine ⟨hend, ?_⟩
    rw [hend, hbucket, ← hs, ← hlast, hsplit]
  · rintro ⟨hend, hstart⟩
    have hmem := floorTime_mem effectiveEnd.2 hpos (timeframeSeconds_dvd_day timeframe)
    have hbucket : floorTime (toDatetime effectiveEnd) (timeframeSeconds timeframe) =
        .ok ⟨_, hmem⟩ := by
      rw [floorTime_eq rfl (by rw [hinstant]; exact effectiveEnd.2), hinstant, inRange_of_mem hmem]
    rw [hend, ← hsplit] at hstart
    -- The last closed bucket starts between the start of the window and the bucket of the end.
    have hwidth : 0 ≤ timeframeSeconds timeframe * second := by unfold second; omega
    have hrest : 0 ≤ timeframeSeconds timeframe * (limit - 1) * second :=
      Int.mul_nonneg (Int.mul_nonneg hpos.le (by omega)) (by decide)
    have hlast : minInstant ≤
      MarketDataGateway.floorTime effectiveEnd.1 (timeframeSeconds timeframe) -
          timeframeSeconds timeframe * second ∧
        MarketDataGateway.floorTime effectiveEnd.1 (timeframeSeconds timeframe) -
          timeframeSeconds timeframe * second ≤ maxInstant :=
      ⟨start.2.1.trans (hstart ▸ Int.sub_le_self _ hrest), (Int.sub_le_self _ hwidth).trans hmem.2⟩
    refine ⟨effectiveEnd, inRange_eq_ok_iff.2 hend, bind_eq_ok_iff.2 ⟨_, hbucket, ?_⟩⟩
    refine bind_eq_ok_iff.2 ⟨_, inRange_of_mem hlast, bind_eq_ok_iff.2 ⟨start, ?_, rfl⟩⟩
    exact inRange_eq_ok_iff.2 hstart

/-- The window of datetimes is that of their instants. -/
theorem historyWindow_instant {offset : ℤ} (haware : «end».utcoffset = some offset)
    (hlimit : 1 ≤ limit)
    (h : historyWindow timeframe limit «end» = .ok (start, effectiveEnd)) :
    MarketDataGateway.historyWindow timeframe limit «end».instant =
    .ok (start.1, effectiveEnd.1) := by
  obtain ⟨hend, hstart⟩ := (historyWindow_eq_ok_iff haware hlimit).1 h
  unfold MarketDataGateway.historyWindow
  rw [if_neg (by omega), ← hend, ← hstart]
  refine congrArg Except.ok (Prod.ext ?_ rfl)
  dsimp only
  ring

/-- The request gets its window: from an aligned start on as many intervals as the limit says, the
last of which is the last one that the end of the request does not cut short. -/
def GetsWindow (now : UtcDatetime) (timeframe : CandleTimeframe) (limit : ℤ)
    («end» : Datetime) : Prop :=
  ∃ start effectiveEnd : UtcDatetime,
    requestWindow now timeframe limit (some «end») = .ok (start, effectiveEnd) ∧
      effectiveEnd.1 = «end».instant ∧ second * timeframeSeconds timeframe ∣ start.1 ∧
      start.1 + limit * (timeframeSeconds timeframe * second) ≤ effectiveEnd.1 ∧
      effectiveEnd.1 < start.1 + limit * (timeframeSeconds timeframe * second) +
        timeframeSeconds timeframe * second

/-- The end that a request is let through with. -/
theorem requestEnd_eq_ok_iff {offset : ℤ} (haware : «end».utcoffset = some offset)
    (hnow : «end».instant ≤ now.1) : requestEnd now (some «end») = .ok effectiveEnd ↔
      «end».instant = effectiveEnd.1 := by
  rw [← @inRange_eq_ok_iff _ .overflowError]
  unfold requestEnd astimezone
  dsimp only
  rw [haware]
  dsimp only
  unfold inRange
  split_ifs with hrange
  · show (if now.1 < «end».instant then _ else _) = _ ↔ _
    rw [if_neg (not_lt.2 hnow)]
    exact ⟨fun h => congrArg _ (Except.ok.inj h), fun h => congrArg _ (Except.ok.inj h)⟩
  · exact ⟨(fun h => nomatch h), fun h => nomatch h⟩

/-- A request gets its window if there is room for it after `datetime.min`, and no fraction of a
second is cut off upwards. -/
theorem requestWindow_iff {offset : ℤ} (haware : «end».utcoffset = some offset)
    (hnow : «end».instant ≤ now.1) (timeframe : CandleTimeframe)
    (hlimit : 1 ≤ limit ∧ limit ≤ 1000) :
    GetsWindow now timeframe limit «end» ↔
      minInstant + limit * (timeframeSeconds timeframe * second) ≤ «end».instant ∧
        ¬Cut (timeframeSeconds timeframe) «end».instant := by
  have hpos := timeframeSeconds_pos timeframe
  have hwindow (start effectiveEnd : UtcDatetime) :
      requestWindow now timeframe limit (some «end») = .ok (start, effectiveEnd) ↔
        «end».instant = effectiveEnd.1 ∧
          MarketDataGateway.floorTime «end».instant (timeframeSeconds timeframe) -
            limit * (timeframeSeconds timeframe * second) = start.1 := by
    have hinstant (t : UtcDatetime) : (toDatetime t).instant = t.1 := sub_zero _
    refine bind_eq_ok_iff.trans ⟨fun ⟨e, he, h⟩ => ?_, fun ⟨hend, hstart⟩ => ⟨effectiveEnd, ?_, ?_⟩⟩
    · have hend := (requestEnd_eq_ok_iff haware hnow).1 he
      rw [mapError_eq_ok_iff, historyWindow_eq_ok_iff rfl hlimit.1, hinstant, ← hend] at h
      exact h
    · exact (requestEnd_eq_ok_iff haware hnow).2 hend
    · rw [mapError_eq_ok_iff, historyWindow_eq_ok_iff rfl hlimit.1, hinstant, ← hend]
      exact ⟨rfl, hstart⟩
  rw [← floorTime_isFloor_iff hpos]
  have hdvd := dvd_floorTime «end».instant (timeframeSeconds timeframe)
  have hafter := lt_floorTime_add «end».instant hpos
  have hmin := dvd_minInstant (timeframeSeconds_dvd_day timeframe)
  have hgreatest (n : ℤ) := @le_floorTime «end».instant (minInstant + n) _ hpos
  unfold GetsWindow IsFloor
  simp only [hwindow]
  rw [mul_comm (timeframeSeconds timeframe) second] at *
  have hwidth : 0 < second * timeframeSeconds timeframe := Int.mul_pos (by decide) hpos
  generalize MarketDataGateway.floorTime «end».instant (timeframeSeconds timeframe) = floor at *
  generalize second * timeframeSeconds timeframe = width at *
  have hslots : 0 ≤ limit * width := Int.mul_nonneg (by omega) hwidth.le
  generalize hn : limit * width = slots at *
  constructor
  · rintro ⟨start, effectiveEnd, ⟨hend, hstart⟩, -, -, hle, -⟩
    have hstartMin := start.2.1
    exact ⟨by lia, hdvd, by lia, hafter⟩
  · rintro ⟨hroom, -, hle, -⟩
    have hdvdSlots : width ∣ slots := hn ▸ Dvd.intro_left _ rfl
    -- The window starts where an interval does, so it starts before the floor of the end if it does
    -- before the end.
    have hfits : minInstant + slots ≤ floor := hgreatest slots (Int.dvd_add hmin hdvdSlots) hroom
    have hmax : «end».instant ≤ maxInstant := hnow.trans now.2.2
    exact ⟨⟨floor - slots, by lia, by lia⟩, ⟨«end».instant, by lia, hmax⟩, ⟨rfl, rfl⟩, rfl,
      Int.dvd_sub hdvd hdvdSlots, by lia, by lia⟩

/-- An hour of one-minute candles that ends in the year 2024. -/
theorem requestWindow_iff_sample :
    GetsWindow ⟨1800000000000000, by decide⟩ .oneMinute 60 ⟨1704067230000000, some 0⟩ ↔
      minInstant + 60 * (timeframeSeconds .oneMinute * second) ≤
          Datetime.instant ⟨1704067230000000, some 0⟩ ∧
        ¬Cut (timeframeSeconds .oneMinute) (Datetime.instant ⟨1704067230000000, some 0⟩) :=
  requestWindow_iff rfl (by decide) .oneMinute (by decide)

/-- A thousand days that end at noon of the first day. -/
theorem not_getsWindow :
    ¬∀ (now : UtcDatetime) (timeframe : CandleTimeframe) (limit : ℤ) («end» : Datetime)
    (offset : ℤ), «end».utcoffset = some offset → «end».instant ≤ now.1 → 1 ≤ limit ∧ limit ≤ 1000 →
    GetsWindow now timeframe limit «end» := by
  intro h
  obtain ⟨start, effectiveEnd, hwindow, -⟩ := h ⟨0, by decide⟩ .oneDay 1000
    ⟨minInstant + 43200 * second, some 0⟩ 0 rfl (by decide) (by decide)
  have hraises : requestWindow ⟨0, by decide⟩ .oneDay 1000
      (some ⟨minInstant + 43200 * second, some 0⟩) = .error (.raised .overflowError) := rfl
  exact nomatch hraises.symm.trans hwindow

end MarketDataGateway.Datetimes

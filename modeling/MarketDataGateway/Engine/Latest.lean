import MarketDataGateway.Engine.Store
import MarketDataGateway.Lib.Transition

/-!
# The latest quote

A run of the store takes points and connection statuses. A change of the generation clears the
latest points, and a duplicate may bring one back. `Ordered` says how what a store keeps of a symbol
lies in time: the retained events are up to the newest one, and the latest point is as new as that.
Each step keeps it and never takes the newest event back (`step_ordered`), as long as a symbol has
one stream, and no duplicate brings an older event back than the newest one (`Steady`). So what is
on display is never replaced by an older quote (`latestQuotes_le`).
-/

namespace MarketDataGateway.Engine

open Lib (Dict Path)
open MarketData (JsString MarketDataPoint NormalizedQuote Runtime SourceStatus js)

/-- The calls of a feed. -/
inductive FeedCall
  /-- `ingest(point)`. -/
  | ingest (point : MarketDataPoint)
  /-- `setConnectionStatus(status)`. -/
  | setConnectionStatus (status : SourceStatus)

namespace MarketDataStore

/-- One call. An exception of `ingest` leaves the store as it is then. -/
def feed (rt : Runtime) (s : MarketDataStore) : FeedCall → Option MarketDataStore
  | .ingest point => some (s.ingest rt point).store
  | .setConnectionStatus status => some (s.setConnectionStatus status)

/-- Each symbol is fed by its provider. -/
def FedBy (rt : Runtime) (provider : JsString → JsString) (_ : MarketDataStore) : FeedCall → Prop
  | .ingest point => point.quote.provider = provider (rt.normalize point.quote.symbol)
  | .setConnectionStatus _ => True

/-- The timestamp of the newest retained event of a symbol. -/
def newestMs (s : MarketDataStore) (symbol : JsString) : Option ℤ :=
  (s.retained symbol).getLast?.map fun newest => newest.quote.providerTimestampMs

/-- A duplicate that comes while no point of its symbol is the latest does not bring an older event
back than the newest one. -/
def RefreshesNewest (rt : Runtime) (s : MarketDataStore) (point : MarketDataPoint) : Prop :=
  let symbol := rt.normalize point.quote.symbol
  (s.integrityGuard.watermarkOf point).generation ≤ point.generation →
    point.quote.eventId ∈ s.integrityGuard.seenEventOrder → s.latestBySymbol.get symbol = none →
    ∀ candidate ∈ s.refreshable symbol point, candidate.generation ≤ point.generation →
      s.newestMs symbol = some candidate.quote.providerTimestampMs

instance (rt : Runtime) (s : MarketDataStore) (point : MarketDataPoint) :
    Decidable (s.RefreshesNewest rt point) := inferInstanceAs (Decidable (_ → _ → _ → _))

/-- Each symbol is fed by its provider and spelled in one way, and no duplicate brings an older
event back. -/
def Steady (rt : Runtime) (provider spelling : JsString → JsString) (s : MarketDataStore) :
    FeedCall → Prop
  | .ingest point =>
    point.quote.provider = provider (rt.normalize point.quote.symbol) ∧
      point.quote.symbol = spelling (rt.normalize point.quote.symbol) ∧ s.RefreshesNewest rt point
  | .setConnectionStatus _ => True

instance (rt : Runtime) (provider : JsString → JsString) (s : MarketDataStore) (call : FeedCall) :
    Decidable (FedBy rt provider s call) :=
  match call with
  | .ingest _ => inferInstanceAs (Decidable (_ = _))
  | .setConnectionStatus _ => inferInstanceAs (Decidable True)

instance (rt : Runtime) (provider spelling : JsString → JsString) (s : MarketDataStore)
    (call : FeedCall) : Decidable (Steady rt provider spelling s call) :=
  match call with
  | .ingest _ => inferInstanceAs (Decidable (_ ∧ _ ∧ _))
  | .setConnectionStatus _ => inferInstanceAs (Decidable True)

/-- The stream of a symbol. -/
def streamOf (provider spelling : JsString → JsString) (symbol : JsString) : JsString :=
  provider symbol ++ js ":" ++ spelling symbol

/-- How what a store keeps of its symbols lies in time. -/
structure Ordered (stream : JsString → JsString) (s : MarketDataStore) : Prop where
  depth : s.batchDepth = 0
  /-- The events are not newer than the last one of the stream. -/
  watermark : ∀ symbol p, p ∈ s.retained symbol →
    ∃ last, s.integrityGuard.lastTimestamp (stream symbol) = some last ∧
      p.quote.providerTimestampMs ≤ last
  /-- The latest point is as new as the newest event. -/
  latest : ∀ symbol p, s.latestBySymbol.get symbol = some p →
    s.newestMs symbol = some p.quote.providerTimestampMs
  /-- The point on display is not newer. -/
  shown : ∀ symbol p, s.snapshot.latestPoints.get symbol = some p →
    ∃ newest, s.newestMs symbol = some newest ∧ p.quote.providerTimestampMs ≤ newest

/-- One state after another: no newest event is taken back, and what is on display is what was, or
the latest points. -/
structure Forward (s t : MarketDataStore) : Prop where
  newest : ∀ symbol n, s.newestMs symbol = some n → ∃ n', t.newestMs symbol = some n' ∧ n ≤ n'
  display : t.snapshot.latestPoints = s.snapshot.latestPoints ∨
    t.snapshot.latestPoints = t.latestBySymbol

variable {rt : Runtime} {provider spelling stream : JsString → JsString} {s t : MarketDataStore}
  {point p : MarketDataPoint} {symbol : JsString} {call : FeedCall}

/-- What is on display is not newer than the newest event, after a step that keeps the rest. -/
theorem Forward.ordered (h : Forward s t) (hs : Ordered stream s) (hdepth : t.batchDepth = 0)
    (hwatermark : ∀ symbol p, p ∈ t.retained symbol →
      ∃ last, t.integrityGuard.lastTimestamp (stream symbol) = some last ∧
        p.quote.providerTimestampMs ≤ last)
    (hlatest : ∀ symbol p, t.latestBySymbol.get symbol = some p →
      t.newestMs symbol = some p.quote.providerTimestampMs) : Ordered stream t := by
  refine ⟨hdepth, hwatermark, hlatest, fun symbol p hp => ?_⟩
  rcases h.display with hsame | hlatest'
  · obtain ⟨newest, hnewest, hle⟩ := hs.shown symbol p (hsame ▸ hp)
    obtain ⟨newest', hnewest', hle'⟩ := h.newest symbol newest hnewest
    exact ⟨newest', hnewest', hle.trans hle'⟩
  · exact ⟨_, hlatest symbol p (hlatest' ▸ hp), le_rfl⟩

/-- Nothing that the invariant speaks of has changed but the latest points, which are on display. -/
theorem ordered_of_keep (hs : Ordered stream s) (hdepth : t.batchDepth = 0)
    (hevents : t.eventsBySymbol = s.eventsBySymbol)
    (hwatermarks : t.integrityGuard.watermarks = s.integrityGuard.watermarks)
    (hlatest : ∀ symbol p, t.latestBySymbol.get symbol = some p →
      s.newestMs symbol = some p.quote.providerTimestampMs)
    (hdisplay : t.snapshot.latestPoints = s.snapshot.latestPoints ∨
      t.snapshot.latestPoints = t.latestBySymbol) : Ordered stream t ∧ Forward s t := by
  have hretained : t.retained = s.retained := funext fun _ => retained_of_eq hevents
  have hnewest : t.newestMs = s.newestMs := by
    unfold newestMs
    rw [hretained]
  have hlast : t.integrityGuard.lastTimestamp = s.integrityGuard.lastTimestamp := by
    unfold TemporalIntegrityGuard.lastTimestamp
    rw [hwatermarks]
  have hforward : Forward s t := ⟨fun symbol n hn => ⟨n, hnewest ▸ hn, le_rfl⟩, hdisplay⟩
  refine ⟨hforward.ordered hs hdepth ?_ ?_, hforward⟩
  · rw [hretained, hlast]
    exact hs.watermark
  · rw [hnewest]
    exact hlatest

/-- Outside a batch the latest points are on display. -/
theorem publish_latestPoints (h : s.batchDepth = 0) :
    s.publish.snapshot.latestPoints = s.publish.latestBySymbol := by
  rw [publish_snapshot h]
  rfl

/-- A point that is retained is the last of its symbol. -/
theorem retained_retain_self :
    ∃ front, (s.retain rt point).retained (rt.normalize point.quote.symbol) = front ++ [point] ∧
      front.Sublist (s.retained (rt.normalize point.quote.symbol)) := by
  obtain ⟨front, hfront, hsub⟩ := @trimStart_concat _ (s.retained (rt.normalize point.quote.symbol))
    point s.eventRetentionPerSymbol
  refine ⟨front, ?_, hsub⟩
  unfold retain
  show ((s.eventsBySymbol.set _ _).get _).getD [] = _
  rw [Lib.InsertionMap.get_set_self, ← hfront]
  rfl

/-- A point that is retained leaves those of the other symbols. -/
theorem retained_retain_ne (h : symbol ≠ rt.normalize point.quote.symbol) :
    (s.retain rt point).retained symbol = s.retained symbol := by
  show ((s.eventsBySymbol.set _ _).get _).getD [] = _
  rw [Lib.InsertionMap.get_set_ne h]
  rfl

/-- A point that the guard accepts is not older than the events of its symbol. -/
theorem Ordered.le_of_accepts (hs : Ordered stream s) (h : s.integrityGuard.Accepts point)
    (hstream : streamKey point = stream (rt.normalize point.quote.symbol))
    (hp : p ∈ s.retained (rt.normalize point.quote.symbol)) :
    p.quote.providerTimestampMs ≤ point.quote.providerTimestampMs := by
  obtain ⟨last, hlast, hle⟩ := hs.watermark _ p hp
  rw [← hstream, TemporalIntegrityGuard.lastTimestamp_eq] at hlast
  exact hle.trans (h.le hlast)

/-- A point that is accepted becomes the newest event and the latest point of its symbol. -/
theorem ordered_of_arrive (hs : Ordered stream s) (h : s.integrityGuard.Accepts point)
    (hstream : streamKey point = stream (rt.normalize point.quote.symbol))
    (hdepth : t.batchDepth = 0) (hevents : t.eventsBySymbol = (s.retain rt point).eventsBySymbol)
    (hguard : t.integrityGuard = s.integrityGuard.accept point h.unseen)
    (hlatest : t.latestBySymbol =
      s.latestBySymbol.insert (rt.normalize point.quote.symbol) point)
    (hdisplay : t.snapshot.latestPoints = s.snapshot.latestPoints ∨
      t.snapshot.latestPoints = t.latestBySymbol) : Ordered stream t ∧ Forward s t := by
  have hretained : t.retained = (s.retain rt point).retained :=
    funext fun _ => retained_of_eq hevents
  obtain ⟨front, hfront, hsub⟩ := @retained_retain_self rt s point
  -- The point that has come is the newest of its symbol, and no other symbol is touched.
  have hself : t.newestMs (rt.normalize point.quote.symbol) =
      some point.quote.providerTimestampMs := by
    unfold newestMs
    rw [hretained, hfront, List.getLast?_concat]
    rfl
  have hother (symbol : JsString) (hne : symbol ≠ rt.normalize point.quote.symbol) :
      t.newestMs symbol = s.newestMs symbol := by
    unfold newestMs
    rw [hretained, retained_retain_ne hne]
  have hforward : Forward s t := by
    refine ⟨fun symbol n hn => ?_, hdisplay⟩
    rcases eq_or_ne symbol (rt.normalize point.quote.symbol) with rfl | hne
    · obtain ⟨last, hlast, rfl⟩ := Option.map_eq_some_iff.1 hn
      exact ⟨_, hself, hs.le_of_accepts h hstream (List.mem_of_getLast? hlast)⟩
    · exact ⟨n, (hother symbol hne).trans hn, le_rfl⟩
  refine ⟨hforward.ordered hs hdepth (fun symbol p hp => ?_) (fun symbol p hp => ?_), hforward⟩
  · rw [hretained] at hp
    rcases eq_or_ne symbol (rt.normalize point.quote.symbol) with rfl | hne
    · -- The watermark of the stream is at the point that has come.
      refine ⟨point.quote.providerTimestampMs, ?_, ?_⟩
      · rw [hguard, ← hstream]
        exact TemporalIntegrityGuard.lastTimestamp_accept h
      · rw [hfront] at hp
        rcases List.mem_append.1 hp with hold | hnew
        · exact hs.le_of_accepts h hstream (hsub.subset hold)
        · rw [List.mem_singleton.1 hnew]
    · rw [retained_retain_ne hne] at hp
      obtain ⟨last, hlast, hle⟩ := hs.watermark symbol p hp
      by_cases hkey : stream symbol = streamKey point
      · rw [hguard, hkey, TemporalIntegrityGuard.lastTimestamp_accept h]
        rw [hkey, TemporalIntegrityGuard.lastTimestamp_eq] at hlast
        exact ⟨_, rfl, hle.trans (h.le hlast)⟩
      · rw [hguard, TemporalIntegrityGuard.lastTimestamp_accept_ne h hkey]
        exact ⟨last, hlast, hle⟩
  · -- It is the latest point as well.
    rw [hlatest] at hp
    rcases eq_or_ne symbol (rt.normalize point.quote.symbol) with rfl | hne
    · rw [Dict.get_insert_self] at hp
      rw [hself, Option.some.inj hp]
    · rw [Dict.get_insert_ne hne] at hp
      rw [hother symbol hne]
      exact hs.latest symbol p hp

/-- What a duplicate makes the latest point is as new as the newest event. -/
theorem Ordered.refreshed (hs : Ordered stream s)
    (hseen : point.quote.eventId ∈ s.integrityGuard.seenEventOrder)
    (hgeneration : (s.integrityGuard.watermarkOf point).generation ≤ point.generation)
    (hok : s.RefreshesNewest rt point)
    (hp : (s.refreshed (rt.normalize point.quote.symbol) point).get symbol = some p) :
    s.newestMs symbol = some p.quote.providerTimestampMs := by
  unfold MarketDataStore.refreshed at hp
  -- Only the event of the duplicate itself is put in place of the latest point.
  cases hcandidate : s.refreshable (rt.normalize point.quote.symbol) point with
  | none =>
    rw [hcandidate] at hp
    exact hs.latest symbol p hp
  | some candidate =>
    rw [hcandidate] at hp
    dsimp only at hp
    split_ifs at hp with hsame
    · rcases eq_or_ne symbol (rt.normalize point.quote.symbol) with rfl | hne
      · rw [Dict.get_insert_self] at hp
        obtain rfl := Option.some.inj hp
        show _ = some candidate.quote.providerTimestampMs
        cases hlatest : s.latestBySymbol.get (rt.normalize point.quote.symbol) with
        | none => exact hok hgeneration hseen hlatest candidate hcandidate hsame.2
        | some latest =>
          unfold refreshable at hcandidate
          rw [hlatest] at hcandidate
          obtain rfl := Option.some.inj hcandidate
          exact hs.latest _ _ hlatest
      · rw [Dict.get_insert_ne hne] at hp
        exact hs.latest symbol p hp
    · exact hs.latest symbol p hp

/-- One call keeps the order, and takes no newest event back. -/
theorem feed_ordered (hs : Ordered (streamOf provider spelling) s)
    (hok : Steady rt provider spelling s call) (h : s.feed rt call = some t) :
    Ordered (streamOf provider spelling) t ∧ Forward s t := by
  cases call with
  | setConnectionStatus status =>
    obtain rfl : s.setConnectionStatus status = t := Option.some.inj h
    unfold setConnectionStatus
    split_ifs with hsame
    · exact ⟨hs, ⟨fun symbol n hn => ⟨n, hn, le_rfl⟩, Or.inl rfl⟩⟩
    · refine ordered_of_keep hs (publish_batchDepth.trans hs.depth) publish_eventsBySymbol
        (by rw [publish_integrityGuard]) (fun symbol p hp => ?_)
        (Or.inr (publish_latestPoints (by exact hs.depth)))
      rw [publish_latestBySymbol] at hp
      dsimp only at hp
      split_ifs at hp
      · exact nomatch hp
      · exact hs.latest symbol p hp
  | ingest point =>
    obtain rfl : (s.ingest rt point).store = t := Option.some.inj h
    obtain ⟨hprovider, hspelling, hrefresh⟩ := hok
    have hstream : streamKey point =
        streamOf provider spelling (rt.normalize point.quote.symbol) := by
      unfold streamKey streamOf
      rw [← hprovider, ← hspelling]
    have hends := s.ingest_cases rt point
    generalize s.ingest rt point = result at hends
    -- Only an accepted point moves the watermark, and it is retained with it.
    cases hends with
    | quarantined g entry hno hwatermarks hseen =>
      refine ordered_of_keep hs (publish_batchDepth.trans hs.depth) publish_eventsBySymbol
        (by rw [ingestQuarantined, publish_integrityGuard, hwatermarks])
        (fun symbol p hp => ?_) (Or.inr (publish_latestPoints (by exact hs.depth)))
      rw [ingestQuarantined, publish_latestBySymbol] at hp
      exact hs.latest symbol p hp
    | duplicate hgeneration hseen =>
      refine ordered_of_keep hs (publish_batchDepth.trans hs.depth) publish_eventsBySymbol
        (by rw [ingestDuplicate, publish_integrityGuard])
        (fun symbol p hp => ?_) (Or.inr (publish_latestPoints (by exact hs.depth)))
      rw [ingestDuplicate, publish_latestBySymbol] at hp
      exact hs.refreshed hseen hgeneration hrefresh hp
    | threw haccepts hlt =>
      exact ordered_of_arrive hs haccepts hstream hs.depth rfl rfl rfl (Or.inl rfl)
    | accepted haccepts agg update reason gap hge hagg =>
      exact ordered_of_arrive hs haccepts hstream (publish_batchDepth.trans hs.depth)
        publish_eventsBySymbol publish_integrityGuard publish_latestBySymbol
        (Or.inr (publish_latestPoints (by exact hs.depth)))

/-- A new store is in order. -/
theorem ordered_new (options : MarketDataStoreOptions) : Ordered stream (new options) :=
  ⟨rfl, fun _ _ hp => absurd hp List.not_mem_nil, (fun _ _ hp => nomatch hp),
    fun _ _ hp => nomatch hp⟩

/-- In the runs of a steady feed the quote on display is never replaced by an older one: whatever is
on display later for a symbol is as new. -/
theorem latestQuotes_le (rt : Runtime) (options : MarketDataStoreOptions)
    (provider spelling : JsString → JsString) (s t : MarketDataStore)
    (hs : Path (feed rt) (Steady rt provider spelling) (new options) s)
    (ht : Path (feed rt) (Steady rt provider spelling) s t)
    (symbol : JsString) (q q' : NormalizedQuote) (hq : s.snapshot.latestQuotes symbol = some q)
    (hq' : t.snapshot.latestQuotes symbol = some q') :
    q.providerTimestampMs ≤ q'.providerTimestampMs := by
  have hordered : Ordered (streamOf provider spelling) s := hs.invariant _ (ordered_new options)
    fun u call u' hu hok hstep => (feed_ordered hu hok hstep).1
  obtain ⟨p, hp, rfl⟩ := Option.map_eq_some_iff.1 hq
  obtain ⟨p', hp', rfl⟩ := Option.map_eq_some_iff.1 hq'
  -- From `s` on, the newest event and what is on display are as new as the point on display in `s`.
  let inv (u : MarketDataStore) : Prop := Ordered (streamOf provider spelling) u ∧
    (∃ newest, u.newestMs symbol = some newest ∧ p.quote.providerTimestampMs ≤ newest) ∧
    ∀ p', u.snapshot.latestPoints.get symbol = some p' →
      p.quote.providerTimestampMs ≤ p'.quote.providerTimestampMs
  have hinv : inv t := by
    refine ht.invariant inv ⟨hordered, hordered.shown symbol p hp, fun p' hp' => ?_⟩ ?_
    · rw [Option.some.inj (hp.symm.trans hp')]
    · rintro u call u' ⟨hu, ⟨newest, hnewest, hle⟩, hshown⟩ hok hstep
      obtain ⟨hu', hforward⟩ := feed_ordered hu hok hstep
      obtain ⟨newest', hnewest', hle'⟩ := hforward.newest symbol newest hnewest
      refine ⟨hu', ⟨newest', hnewest', hle.trans hle'⟩, fun p' hp' => ?_⟩
      rcases hforward.display with hsame | hlatest
      · exact hshown p' (hsame ▸ hp')
      · have hnew := hu'.latest symbol p' (hlatest ▸ hp')
        rw [← Option.some.inj (hnewest'.symm.trans hnew)]
        exact hle.trans hle'
  exact hinv.2.2 p' hp'

/-- A quote of one symbol and one provider, by its event and its time. -/
def sampleQuote (eventId : String) (providerTimestampMs : ℤ) : NormalizedQuote where
  schemaVersion := js "1.0"
  eventId := js eventId
  symbol := js "A"
  price := 1
  bid := none
  ask := none
  providerTimestampMs := providerTimestampMs
  receivedAtMs := providerTimestampMs
  sequence := none
  provider := js "p"
  lastSize := none
  cumulativeVolume := none
  tradeCount := none

/-- Such a quote as a live point of a generation. -/
def samplePoint (eventId : String) (providerTimestampMs : ℤ) (generation : ℕ) : MarketDataPoint :=
  ⟨sampleQuote eventId providerTimestampMs, .live, generation, false, 0, none⟩

/-- Two quotes, and the second one again after a reconnect. -/
theorem latestQuotes_le_sample :
    ∃ s t : MarketDataStore, ∃ q q' : NormalizedQuote,
      s.snapshot.latestQuotes (js "A") = some q ∧ t.snapshot.latestQuotes (js "A") = some q' ∧
        q.providerTimestampMs ≤ q'.providerTimestampMs := by
  let ok := Steady Runtime.ascii (fun _ => js "p") id
  obtain ⟨s, hs, hshown, hrest⟩ := Path.exists_of_exec (feed Runtime.ascii) ok (new {})
    [.ingest (samplePoint "1" 1 1), .ingest (samplePoint "2" 2 1)]
    (fun s => s.snapshot.latestQuotes (js "A") = some (sampleQuote "2" 2) ∧
      ((Lib.exec (feed Runtime.ascii) ok s
        [.setConnectionStatus ⟨.reconnecting, 2, 1, none, none⟩, .ingest (samplePoint "2" 2 2)]).any
          fun t => t.snapshot.latestQuotes (js "A") = some (sampleQuote "2" 2)) = true)
    (by decide +kernel)
  obtain ⟨t, ht, hshown'⟩ := Path.exists_of_exec (feed Runtime.ascii) ok s _ _ hrest
  exact ⟨s, t, _, _, hshown, hshown',
    latestQuotes_le Runtime.ascii {} (fun _ => js "p") id s t hs ht (js "A") _ _ hshown hshown'⟩

/-- An older event that comes again after a reconnect is displayed in place of the newer quote. -/
theorem latestQuotes_goes_back :
    ¬∀ (rt : Runtime) (options : MarketDataStoreOptions) (provider : JsString → JsString)
      (s t : MarketDataStore), Path (feed rt) (FedBy rt provider) (new options) s →
        Path (feed rt) (FedBy rt provider) s t → ∀ (symbol : JsString) (q q' : NormalizedQuote),
          s.snapshot.latestQuotes symbol = some q → t.snapshot.latestQuotes symbol = some q' →
            q.providerTimestampMs ≤ q'.providerTimestampMs := by
  intro h
  let ok := FedBy Runtime.ascii fun _ => js "p"
  obtain ⟨s, hs, hshown, hrest⟩ := Path.exists_of_exec (feed Runtime.ascii) ok (new {})
    [.ingest (samplePoint "1" 1 1), .ingest (samplePoint "2" 2 1)]
    (fun s => s.snapshot.latestQuotes (js "A") = some (sampleQuote "2" 2) ∧
      ((Lib.exec (feed Runtime.ascii) ok s
        [.setConnectionStatus ⟨.reconnecting, 2, 1, none, none⟩, .ingest (samplePoint "1" 1 2)]).any
          fun t => t.snapshot.latestQuotes (js "A") = some (sampleQuote "1" 1)) = true)
    (by decide +kernel)
  obtain ⟨t, ht, hshown'⟩ := Path.exists_of_exec (feed Runtime.ascii) ok s _ _ hrest
  have hle : (2 : ℤ) ≤ 1 :=
    h Runtime.ascii {} (fun _ => js "p") s t hs ht (js "A") _ _ hshown hshown'
  omega

end MarketDataStore

end MarketDataGateway.Engine

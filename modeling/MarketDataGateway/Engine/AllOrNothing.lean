import MarketDataGateway.Engine.Rebuild
import MarketDataGateway.MarketData.Wire

/-!
# What an exception leaves behind

`ingest` throws where the aggregator does, for an accepted point before 1970, and has then updated
the guard, the retained events, and the latest points (`allOrNothing_iff`). The event stays
retained, so that a later `setTimeframe` throws too. It also throws where a listener does to which
the change is published, and has then updated everything. In the runs of which no accepted point is
before 1970 and no listener throws, no call throws (`calls_complete`): the retained events are from
1970 on in every state of such a run.

The listeners are what `commitPublish` comes to last, and it is the last thing that a call does. So
what a listener does with the store comes after the call, and is a call of its own in the run.
-/

namespace MarketDataGateway.Engine

open Lib (InsertionMap Path)
open MarketData (JsString MarketDataPoint Runtime SourceStatus)

/-- The calls of a store. -/
inductive StoreCall
  /-- `ingest(point)`. -/
  | ingest (point : MarketDataPoint)
  /-- `ingestMany(points)`. -/
  | ingestMany (points : List MarketDataPoint)
  /-- `setTimeframe(timeframe)`. -/
  | setTimeframe (timeframe : Timeframe)
  /-- `setConnectionStatus(status)`. -/
  | setConnectionStatus (status : SourceStatus)
  /-- `clear()`. -/
  | clear

namespace MarketDataStore

/-- A call: the store after it, and whether it has thrown. -/
def call (rt : Runtime) (s : MarketDataStore) : StoreCall → MarketDataStore × Bool
  | .ingest point => ((s.ingest rt point).store, (s.ingest rt point).decision.isNone)
  | .ingestMany points => ((s.ingestMany rt points).1, (s.ingestMany rt points).2.isNone)
  | .setTimeframe timeframe => s.setTimeframe rt timeframe
  | .setConnectionStatus status => (s.setConnectionStatus status, false)
  | .clear => (s.clear, false)

/-- A call, and whether a listener throws if the change is published to it. -/
structure HeardCall where
  /-- The call. -/
  call : StoreCall
  /-- A listener throws. -/
  listenerThrows : Bool

/-- A call with its listeners: the store after it, and whether it has thrown. `commitPublish` raises
the revision, and nothing else does; nothing catches what a listener throws. -/
def heard (rt : Runtime) (s : MarketDataStore) (c : HeardCall) : MarketDataStore × Bool :=
  let result := s.call rt c.call
  (result.1, result.2 || (result.1.revision != s.revision && c.listenerThrows))

/-- The point is from 1970 on, or the guard does not accept it. -/
def Datable (s : MarketDataStore) (point : MarketDataPoint) : Prop :=
  s.integrityGuard.Accepts point → 0 ≤ point.quote.providerTimestampMs

/-- All points that the guard accepts in a call are from 1970 on. -/
def DatableCall (s : MarketDataStore) : StoreCall → Prop
  | .ingest point => s.Datable point
  | .ingestMany points =>
    ∀ point ∈ acceptedPoints s.integrityGuard points, 0 ≤ point.quote.providerTimestampMs
  | _ => True

instance (s : MarketDataStore) (point : MarketDataPoint) : Decidable (s.Datable point) :=
  inferInstanceAs (Decidable (_ → _))

instance (s : MarketDataStore) (c : StoreCall) : Decidable (s.DatableCall c) :=
  match c with
  | .ingest _ => inferInstanceAs (Decidable (Datable _ _))
  | .ingestMany _ => inferInstanceAs (Decidable (∀ _ ∈ _, _))
  | .setTimeframe _ => inferInstanceAs (Decidable True)
  | .setConnectionStatus _ => inferInstanceAs (Decidable True)
  | .clear => inferInstanceAs (Decidable True)

/-- A call that has not thrown has updated the guard, and for a point that it accepts the retained
events, the latest point, the candles, and the log together. -/
def Completed (rt : Runtime) (s : MarketDataStore) (point : MarketDataPoint)
    (t : MarketDataStore) : IntegrityDecision → Prop
  | .accepted reason _ _ =>
    let symbol := rt.normalize point.quote.symbol
    t.integrityGuard = (s.integrityGuard.evaluate point).1 ∧
      (t.retained symbol).getLast? = some point ∧ t.latestBySymbol.get symbol = some point ∧
      (s.aggregator.ingest rt point).map Prod.fst = some t.aggregator ∧
      t.candleSnapshotsBySymbol.get symbol = some (t.aggregator.getCandles rt symbol) ∧
      t.acceptedEntries.getLast? = some ⟨point.quote, point.generation, reason⟩
  | _ =>
    t.integrityGuard = (s.integrityGuard.evaluate point).1 ∧ t.eventsBySymbol = s.eventsBySymbol ∧
      t.aggregator = s.aggregator ∧ t.candleSnapshotsBySymbol = s.candleSnapshotsBySymbol ∧
      t.acceptedEntries = s.acceptedEntries

/-- `ingest` completes, or throws and leaves the store as it was. -/
def AllOrNothing (rt : Runtime) (s : MarketDataStore) (point : MarketDataPoint)
    (listenerThrows : Bool) : Prop :=
  let result := s.heard rt ⟨.ingest point, listenerThrows⟩
  if result.2 = true then result.1 = s
  else ∃ decision, (s.ingest rt point).decision = some decision ∧
    Completed rt s point result.1 decision

variable {rt : Runtime} {s t : MarketDataStore} {point : MarketDataPoint}
  {points : List MarketDataPoint} {symbol : JsString}

/-- To record a decision leaves the events. -/
theorem record_eventsBySymbol {agg : CandleAggregator} {reason : IntegrityAcceptedReason} :
    (record rt s point agg reason).eventsBySymbol = s.eventsBySymbol := publish_eventsBySymbol

/-- A call that does not throw completes. -/
theorem completed_of_decision {decision : IntegrityDecision}
    (h : (s.ingest rt point).decision = some decision) :
    Completed rt s point (s.ingest rt point).store decision := by
  have hguard := @ingest_integrityGuard rt s point
  have hends := s.ingest_cases rt point
  generalize s.ingest rt point = result at h hguard hends
  cases hends with
  -- Nothing but the guard changes, whatever is published.
  | quarantined g entry hno hwatermarks hseen =>
    obtain rfl := Option.some.inj h
    exact ⟨hguard, publish_eventsBySymbol, publish_aggregator, publish_candleSnapshotsBySymbol,
      publish_acceptedEntries⟩
  | duplicate hgeneration hseen =>
    obtain rfl := Option.some.inj h
    exact ⟨hguard, publish_eventsBySymbol, publish_aggregator, publish_candleSnapshotsBySymbol,
      publish_acceptedEntries⟩
  | threw haccepts hlt => exact nomatch h
  | accepted haccepts agg update reason gap hge hagg =>
    obtain rfl := Option.some.inj h
    refine ⟨hguard, ?_, ?_, ?_, ?_, ?_⟩
    · -- The point is the last one that is retained, by any trimming.
      obtain ⟨front, hfront, -⟩ := @retained_retain_self rt s point
      let s' :=
      retain rt { s with integrityGuard := s.integrityGuard.accept point haccepts.unseen } point
      have hretained : (record rt s' point agg reason).retained (rt.normalize point.quote.symbol) =
          s'.retained (rt.normalize point.quote.symbol) := retained_of_eq record_eventsBySymbol
      exact (congrArg List.getLast? (hretained.trans hfront)).trans List.getLast?_concat
    · unfold record
      rw [publish_latestBySymbol]
      exact Lib.Dict.get_insert_self
    · unfold record
      rw [hagg, publish_aggregator]
      rfl
    · unfold record
      rw [publish_candleSnapshotsBySymbol, publish_aggregator]
      exact Lib.Dict.get_insert_self
    · unfold record
      rw [publish_acceptedEntries]
      dsimp only
      -- The entry is the last one of the log.
      obtain ⟨front, hfront, -⟩ := @trimStart_concat _ s.acceptedEntries
        ⟨point.quote, point.generation, reason⟩ s.logRetention
      exact (congrArg List.getLast? hfront).trans List.getLast?_concat

/-- A call that throws has changed the guard. -/
theorem ingest_ne_of_threw (h : (s.ingest rt point).decision = none) :
    (s.ingest rt point).store ≠ s := by
  have hends := s.ingest_cases rt point
  generalize s.ingest rt point = result at h hends
  cases hends with
  | quarantined => exact nomatch h
  | duplicate => exact nomatch h
  | threw haccepts hlt =>
    exact fun heq => TemporalIntegrityGuard.accept_ne haccepts (congrArg integrityGuard heq)
  | accepted => exact nomatch h

/-- `ingest` throws for an accepted point before 1970. -/
theorem ingest_decision_eq_none : (s.ingest rt point).decision = none ↔ ¬s.Datable point := by
  have hends := s.ingest_cases rt point
  generalize s.ingest rt point = result at hends
  unfold Datable
  cases hends with
  | quarantined g entry hno hwatermarks hseen =>
    exact ⟨(fun h => nomatch h), fun h => absurd (fun haccepts => absurd haccepts hno) h⟩
  | duplicate hgeneration hseen =>
    exact ⟨(fun h => nomatch h), fun h => absurd (fun haccepts => absurd hseen haccepts.unseen) h⟩
  | threw haccepts hlt => exact ⟨fun _ h => absurd (h haccepts) (by omega), fun _ => rfl⟩
  | accepted haccepts agg update reason gap hge hagg =>
    exact ⟨(fun h => nomatch h), fun h => absurd (fun _ => hge) h⟩

/-- A change is published outside a batch. -/
theorem publish_revision_ne : s.publish.revision ≠ s.revision ↔ s.batchDepth = 0 := by
  unfold publish
  split_ifs with hdepth
  · exact iff_of_false (fun hne => hne rfl) (by omega)
  · exact iff_of_true (Nat.succ_ne_self _) (by omega)

/-- The change of an `ingest` is published outside a batch, unless the call throws. -/
theorem ingest_revision_ne : (s.ingest rt point).store.revision ≠ s.revision ↔
    s.batchDepth = 0 ∧ (s.ingest rt point).decision ≠ none := by
  have hpublish {s' t : MarketDataStore} (decision : IntegrityDecision) (ht : t = s'.publish)
      (hdepth : s'.batchDepth = s.batchDepth) (hrevision : s'.revision = s.revision) :
      t.revision ≠ s.revision ↔ s.batchDepth = 0 ∧ some decision ≠ none := by
    rw [ht, ← hdepth, ← hrevision, publish_revision_ne]
    exact (and_iff_left nofun).symm
  have hends := s.ingest_cases rt point
  generalize s.ingest rt point = result at hends
  cases hends with
  | quarantined g entry hno hwatermarks hseen => exact hpublish _ rfl rfl rfl
  | duplicate hgeneration hseen => exact hpublish _ rfl rfl rfl
  | threw haccepts hlt => exact iff_of_false (fun hne => hne rfl) fun hand => hand.2 rfl
  | accepted haccepts agg update reason gap hge hagg => exact hpublish _ rfl rfl rfl

/-- With its listeners, `ingest` throws where it does without them, or where one of them throws to
which the change is published. -/
theorem heard_ingest {listenerThrows : Bool} :
    (s.heard rt ⟨.ingest point, listenerThrows⟩).2 = true ↔
    ¬s.Datable point ∨ s.batchDepth = 0 ∧ listenerThrows = true := by
  have hthrows : (s.heard rt ⟨.ingest point, listenerThrows⟩).2 =
      ((s.ingest rt point).decision.isNone ||
        ((s.ingest rt point).store.revision != s.revision && listenerThrows)) := rfl
  rw [hthrows, ← @ingest_decision_eq_none rt s point, Bool.or_eq_true, Option.isNone_iff_eq_none,
    Bool.and_eq_true, bne_iff_ne, ingest_revision_ne]
  exact or_congr_right' fun hsome => and_congr_left' (and_iff_left hsome)

/-- `ingest` is all or nothing for the points that the guard does not accept or that are from 1970
on, if no listener throws to which the change is published, and for no others. -/
theorem allOrNothing_iff {listenerThrows : Bool} : AllOrNothing rt s point listenerThrows ↔
    s.Datable point ∧ (s.batchDepth = 0 → listenerThrows = false) := by
  have hchanged (h : (s.heard rt ⟨.ingest point, listenerThrows⟩).2 = true) :
      (s.ingest rt point).store ≠ s := by
    cases hdecision : (s.ingest rt point).decision with
    | none => exact ingest_ne_of_threw hdecision
    | some decision =>
      -- The change has been published, so that the revision is another one.
      have hdatable : s.Datable point := by
        by_contra hno
        exact nomatch hdecision.symm.trans ((@ingest_decision_eq_none rt s point).2 hno)
      have hdepth := ((heard_ingest.1 h).resolve_left (not_not.2 hdatable)).1
      refine fun heq => ingest_revision_ne.2 ⟨hdepth, ?_⟩ (congrArg revision heq)
      rw [hdecision]
      exact nofun
  have hcondition : ¬(s.heard rt ⟨.ingest point, listenerThrows⟩).2 = true ↔
      s.Datable point ∧ (s.batchDepth = 0 → listenerThrows = false) := by
    rw [heard_ingest, not_or, not_not, not_and, Bool.not_eq_true]
  unfold AllOrNothing
  rw [← hcondition]
  dsimp only
  split_ifs with hthrows
  · exact iff_of_false (hchanged hthrows) (not_not.2 hthrows)
  · refine iff_of_true ?_ hthrows
    cases hdecision : (s.ingest rt point).decision with
    | none =>
      exact absurd (hcondition.1 hthrows).1 ((@ingest_decision_eq_none rt s point).1 hdecision)
    | some decision => exact ⟨decision, rfl, completed_of_decision hdecision⟩

/-! ## Runs -/

/-- The retained events are from 1970 on. -/
def RetainedDatable (s : MarketDataStore) : Prop :=
  ∀ symbol, ∀ point ∈ s.retained symbol, 0 ≤ point.quote.providerTimestampMs

/-- What is retained stays datable with the same events. -/
theorem retainedDatable_of_eq (h : s.RetainedDatable) (heq : t.eventsBySymbol = s.eventsBySymbol) :
    t.RetainedDatable := by
  intro symbol point hpoint
  rw [retained_of_eq heq] at hpoint
  exact h symbol point hpoint

/-- What is retained stays datable with a point that is. -/
theorem RetainedDatable.retain (h : s.RetainedDatable)
    (hpoint : 0 ≤ point.quote.providerTimestampMs) :
    (s.retain rt point).RetainedDatable := by
  intro symbol p hp
  rcases eq_or_ne symbol (rt.normalize point.quote.symbol) with rfl | hne
  · obtain ⟨front, hfront, hsub⟩ := @retained_retain_self rt s point
    rw [hfront] at hp
    rcases List.mem_append.1 hp with hold | hnew
    · exact h _ p (hsub.subset hold)
    · rw [List.mem_singleton.1 hnew]
      exact hpoint
  · rw [retained_retain_ne hne] at hp
    exact h symbol p hp

/-- What is retained stays datable while points are. -/
theorem RetainedDatable.ingest (h : s.RetainedDatable) (hpoint : s.Datable point) :
    (s.ingest rt point).store.RetainedDatable := by
  have hends := s.ingest_cases rt point
  generalize s.ingest rt point = result at hends
  cases hends with
  | quarantined g entry hno hwatermarks hseen =>
    exact retainedDatable_of_eq h publish_eventsBySymbol
  | duplicate hgeneration hseen => exact retainedDatable_of_eq h publish_eventsBySymbol
  | threw haccepts hlt => exact absurd (hpoint haccepts) (by omega)
  | accepted haccepts agg update reason gap hge hagg =>
    have hretained : (s.retain rt point).RetainedDatable := h.retain hge
    exact retainedDatable_of_eq hretained publish_eventsBySymbol

/-- The loop of `ingestMany` completes if the points that the guard accepts are from 1970 on. -/
theorem ingestEach_completes (h : s.RetainedDatable)
    (hpoints : ∀ p ∈ acceptedPoints s.integrityGuard points, 0 ≤ p.quote.providerTimestampMs) :
    (s.ingestEach rt points).1.RetainedDatable ∧ (s.ingestEach rt points).2 ≠ none := by
  induction points generalizing s with
  | nil => exact ⟨h, by simp [ingestEach]⟩
  | cons point points ih =>
    rw [acceptedPoints] at hpoints
    -- The first point can be given a bucket if the guard accepts it.
    have hdatable : s.Datable point := by
      intro haccepts
      rw [if_pos haccepts] at hpoints
      exact hpoints point List.mem_cons_self
    have hrest : ∀ p ∈ acceptedPoints (s.ingest rt point).store.integrityGuard points,
        0 ≤ p.quote.providerTimestampMs := by
      intro p hp
      rw [ingest_integrityGuard] at hp
      refine hpoints p ?_
      split_ifs
      · exact List.mem_cons_of_mem point hp
      · exact hp
    have hstep : (s.ingest rt point).store.RetainedDatable := h.ingest hdatable
    obtain ⟨hstore, hcompletes⟩ := ih hstep hrest
    have hdecision := mt (@ingest_decision_eq_none rt s point).1 (not_not.2 hdatable)
    rw [ingestEach]
    obtain ⟨decision, hsome⟩ := Option.ne_none_iff_exists'.1 hdecision
    generalize s.ingest rt point = result at hstore hcompletes hsome
    obtain ⟨store, decision'⟩ := result
    obtain rfl : decision' = some decision := hsome
    refine ⟨hstore, fun hnone => hcompletes ?_⟩
    exact Option.map_eq_none_iff.1 hnone

/-- A point that is held is retained for a symbol. -/
theorem mem_flatten_values (h : point ∈ s.eventsBySymbol.values.flatten) :
    ∃ symbol, point ∈ s.retained symbol := by
  obtain ⟨l, hl, hpoint⟩ := List.mem_flatten.1 h
  obtain ⟨e, he, rfl⟩ := List.mem_map.1 hl
  have hget : s.eventsBySymbol.get e.1 = some e.2 := InsertionMap.mem_entries_iff.1 he
  refine ⟨e.1, ?_⟩
  unfold retained
  rw [hget]
  exact hpoint

/-- A call whose accepted points are from 1970 on does not throw, and retains no other events. -/
theorem call_completes (h : s.RetainedDatable) {c : StoreCall} (hc : s.DatableCall c) :
    (s.call rt c).1.RetainedDatable ∧ (s.call rt c).2 = false := by
  cases c with
  | ingest point =>
    -- Only the guard could make it throw.
    have hdecision := mt (@ingest_decision_eq_none rt s point).1 (not_not.2 hc)
    exact ⟨h.ingest hc, Option.isNone_eq_false_iff.2 (Option.isSome_iff_ne_none.2 hdecision)⟩
  | ingestMany points =>
    have hbegin : RetainedDatable { s with batchDepth := s.batchDepth + 1 } := h
    obtain ⟨hstore, hcompletes⟩ := @ingestEach_completes rt _ points hbegin hc
    show (s.ingestMany rt points).1.RetainedDatable ∧ (s.ingestMany rt points).2.isNone = false
    unfold ingestMany
    dsimp only
    have hsome := Option.isNone_eq_false_iff.2 (Option.isSome_iff_ne_none.2 hcompletes)
    split_ifs
    · exact ⟨hstore, hsome⟩
    · exact ⟨hstore, hsome⟩
  | setTimeframe timeframe =>
    have hflatten : ∀ p ∈ sortPoints rt s.eventsBySymbol.values.flatten,
        0 ≤ p.quote.providerTimestampMs := by
      intro p hp
      obtain ⟨symbol, hsymbol⟩ := mem_flatten_values (CandleAggregator.mem_sortPoints.1 hp)
      exact h symbol p hsymbol
    show (s.setTimeframe rt timeframe).1.RetainedDatable ∧ (s.setTimeframe rt timeframe).2 = false
    unfold setTimeframe
    split_ifs with hsame
    · exact ⟨h, rfl⟩
    · -- The candles are rebuilt from points that have been accepted, so all are datable.
      have hthrew : ((CandleAggregator.new timeframe s.candleRetentionPerSymbol).rebuild rt
          s.eventsBySymbol.values.flatten).2 = false := CandleAggregator.ingestAll_snd hflatten
      dsimp only
      rw [hthrew, Bool.cond_false]
      refine ⟨retainedDatable_of_eq h ?_, rfl⟩
      unfold rebuildCandleSnapshots
      rw [publish_eventsBySymbol, foldl_refreshCandleSnapshot]
  | setConnectionStatus status =>
    show (s.setConnectionStatus status).RetainedDatable ∧ false = false
    unfold setConnectionStatus
    split_ifs
    · exact ⟨h, rfl⟩
    · exact ⟨retainedDatable_of_eq h publish_eventsBySymbol, rfl⟩
  | clear =>
    refine ⟨fun symbol point hpoint => ?_, rfl⟩
    rw [show (s.call rt .clear).1.retained symbol =
      [] from retained_of_eq publish_eventsBySymbol] at hpoint
    exact absurd hpoint List.not_mem_nil

/-- A new store retains nothing. -/
theorem retainedDatable_new (options : MarketDataStoreOptions) : (new options).RetainedDatable :=
  fun _ _ h => absurd h List.not_mem_nil

/-- The points that the guard accepts in a call are from 1970 on, and no listener throws. -/
def Orderly (s : MarketDataStore) (c : HeardCall) : Prop :=
  s.DatableCall c.call ∧ c.listenerThrows = false

instance (s : MarketDataStore) (c : HeardCall) : Decidable (s.Orderly c) :=
  inferInstanceAs (Decidable (_ ∧ _))

/-- In every state, `ingest` is all or nothing for the points that are from 1970 on or that the
guard does not accept, if no listener throws to which the change is published, and for no others;
and in the runs whose calls accept no other points and of which no listener throws, no call
throws. -/
theorem calls_complete (rt : Runtime) (options : MarketDataStoreOptions) :
    (∀ s point listenerThrows, AllOrNothing rt s point listenerThrows ↔
      s.Datable point ∧ (s.batchDepth = 0 → listenerThrows = false)) ∧
      ∀ s, Path (fun s c => some (s.heard rt c).1) Orderly (new options) s →
        ∀ c, s.Orderly c → (s.heard rt c).2 = false := by
  refine ⟨fun s point listenerThrows => allOrNothing_iff, fun s hs c hc => ?_⟩
  have hretained : s.RetainedDatable := by
    refine hs.invariant RetainedDatable (retainedDatable_new options) fun s c t h hc hstep => ?_
    obtain rfl : (s.call rt c.call).1 = t := Option.some.inj hstep
    exact (call_completes h hc.1).1
  have hthrows : (s.heard rt c).2 =
      ((s.call rt c.call).2 || ((s.call rt c.call).1.revision != s.revision && c.listenerThrows)) :=
      rfl
  rw [hthrows, (call_completes hretained hc.1).2, hc.2, Bool.and_false, Bool.or_false]

/-- The store takes a quote of 1970 in, and then shows five minutes. -/
theorem calls_complete_sample :
    AllOrNothing Runtime.ascii (new {}) (samplePoint "1" 0 1) false ∧
      (heard Runtime.ascii (heard Runtime.ascii (new {}) ⟨.ingest (samplePoint "1" 0 1), false⟩).1
        ⟨.setTimeframe .fiveMinutes, false⟩).2 = false := by
  have horderly : Orderly (new {}) ⟨.ingest (samplePoint "1" 0 1), false⟩ := by decide +kernel
  refine ⟨((calls_complete Runtime.ascii {}).1 _ _ _).2 ⟨horderly.1, fun _ => rfl⟩, ?_⟩
  exact (calls_complete Runtime.ascii {}).2 _ (Lib.Path.refl.tail _ horderly rfl) _ ⟨trivial, rfl⟩

/-- A quote on the wire, a second before 1970. -/
def earlyQuote : Lib.Json := .dict (Lib.object
  [("schema_version", .str (Lib.text "1.0")),
    ("event_id", .str (Lib.text "00000000-0000-4000-8000-000000000001")),
    ("symbol", .str (Lib.text "A")),
    ("price", .str (Lib.text "1")), ("provider_timestamp", .str (Lib.text "1969-12-31T23:59:59Z")),
    ("received_at", .str (Lib.text "2024-01-01T00:00:00Z")), ("provider", .str (Lib.text "p"))])

/-- A quote that the browser accepts makes `ingest` throw, with the store changed, and a later
`setTimeframe` too. -/
theorem not_allOrNothing_early : ¬∀ (rt : Runtime) (options : MarketDataStoreOptions) (v : Lib.Json)
    (w : MarketData.WireQuote) (point : MarketDataPoint), MarketData.wireQuoteSchema v = some w →
      point.quote = MarketData.normalizeWireQuote w →
        AllOrNothing rt (new options) point false ∨ ∀ timeframe,
          (((new options).heard rt ⟨.ingest point, false⟩).1.heard rt
            ⟨.setTimeframe timeframe, false⟩).2 = false := by
  intro h
  have hthrows : ((MarketData.wireQuoteSchema earlyQuote).any fun w =>
      let point : MarketDataPoint := ⟨MarketData.normalizeWireQuote w, .live, 1, false, 0, none⟩
      !decide (Datable (new {}) point) &&
        (((new {}).heard Runtime.ascii ⟨.ingest point, false⟩).1.heard Runtime.ascii
          ⟨.setTimeframe .fiveMinutes, false⟩).2) = true := by decide +kernel
  obtain ⟨w, hw, hpoint⟩ := (Option.any_eq_true _ _).1 hthrows
  rw [Bool.and_eq_true, Bool.not_eq_true', decide_eq_false_iff_not] at hpoint
  rcases h Runtime.ascii {} earlyQuote w ⟨MarketData.normalizeWireQuote w, .live, 1,
    false, 0, none⟩ hw rfl
    with hatomic | hlater
  · exact hpoint.1 (allOrNothing_iff.1 hatomic).1
  · exact Bool.false_ne_true ((hlater .fiveMinutes).symm.trans hpoint.2)

end MarketDataStore

end MarketDataGateway.Engine

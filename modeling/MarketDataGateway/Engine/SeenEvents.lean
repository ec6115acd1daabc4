import MarketDataGateway.Engine.Integrity
import Mathlib.Data.Finset.Basic
import Mathlib.Data.Finset.Lattice.Lemmas

/-!
# The seen events of the guard

`TemporalIntegrityGuard` with the two containers in which it keeps the events that it has accepted:
the set `seenEventIds`, which `evaluate` asks, and the list `seenEventOrder`, from which
`rememberEvent` takes the events that it forgets. `GuardState` has the fields of the class.

The containers have the same elements, and none twice, in every state that a guard comes to
(`Consistent`). So a guard state is one of `TemporalIntegrityGuard`, and `evaluate` does the same to
it (`evaluate_toGuard`).
-/

namespace MarketDataGateway.Engine

open Lib (InsertionMap)
open MarketData (JsString MarketDataPoint)

/-- `seenEventIds` and `seenEventOrder`. -/
structure SeenEvents where
  /-- `seenEventIds`. -/
  seenEventIds : Finset JsString
  /-- `seenEventOrder`. -/
  seenEventOrder : List JsString

namespace SeenEvents

/-- The loop of `rememberEvent`. -/
def expire (retention : ℕ+) (ids : Finset JsString) : List JsString → SeenEvents
  | [] => ⟨ids, []⟩
  | expired :: rest =>
    if (retention : ℕ) < (expired :: rest).length then expire retention (ids.erase expired) rest
    else ⟨ids, expired :: rest⟩

/-- `rememberEvent`. -/
def rememberEvent (s : SeenEvents) (retention : ℕ+) (eventId : JsString) : SeenEvents :=
  expire retention (insert eventId s.seenEventIds) (s.seenEventOrder ++ [eventId])

/-- The set has the elements of the list, and the list has none twice. -/
structure Consistent (s : SeenEvents) : Prop where
  ids : s.seenEventIds = s.seenEventOrder.toFinset
  nodup : s.seenEventOrder.Nodup

variable {s : SeenEvents} {retention : ℕ+} {eventId : JsString} {order : List JsString}

/-- To expire trims the order, and the set with it. -/
theorem expire_eq (hnodup : order.Nodup) :
    expire retention order.toFinset order =
      ⟨(trimStart order retention).toFinset, trimStart order retention⟩ := by
  induction order with
  | nil =>
    have hnil : trimStart ([] : List JsString) retention = [] := List.drop_nil
    rw [hnil]
    rfl
  | cons expired rest ih =>
    obtain ⟨hfresh, hrest⟩ := List.nodup_cons.1 hnodup
    rw [expire]
    split_ifs with hlong
    · have herase : (expired :: rest).toFinset.erase expired = rest.toFinset := by
        rw [List.toFinset_cons, Finset.erase_insert (fun h => hfresh (List.mem_toFinset.1 h))]
      have htrim : trimStart (expired :: rest) retention = trimStart rest retention := by
        have hlength : (expired :: rest).length - retention = rest.length - retention + 1 := by
          rw [List.length_cons] at hlong ⊢
          omega
        unfold trimStart
        rw [hlength, List.drop_succ_cons]
      rw [herase, ih hrest, htrim]
    · rw [trimStart_eq (not_lt.1 hlong)]

/-- An event that has not been seen is remembered in both containers, and the oldest ones are
forgotten in both. -/
theorem rememberEvent_eq (h : s.Consistent) (hfresh : eventId ∉ s.seenEventOrder) :
    s.rememberEvent retention eventId =
      ⟨(trimStart (s.seenEventOrder ++ [eventId]) retention).toFinset,
        trimStart (s.seenEventOrder ++ [eventId]) retention⟩ := by
  have hnodup : (s.seenEventOrder ++ [eventId]).Nodup :=
    List.nodup_append.2 ⟨h.nodup, List.nodup_singleton eventId, fun a ha b hb heq =>
      hfresh (List.mem_singleton.1 hb ▸ heq ▸ ha)⟩
  have hinsert : insert eventId s.seenEventIds = (s.seenEventOrder ++ [eventId]).toFinset := by
    rw [List.toFinset_append, h.ids, List.toFinset_cons, List.toFinset_nil, Finset.insert_empty,
      Finset.insert_eq, Finset.union_comm]
  unfold rememberEvent
  rw [hinsert, expire_eq hnodup]

end SeenEvents

/-- The fields of `TemporalIntegrityGuard`. -/
structure GuardState where
  /-- `watermarks`. -/
  watermarks : InsertionMap JsString StreamWatermark
  /-- `seenEventIds` and `seenEventOrder`. -/
  seen : SeenEvents
  /-- `quarantineEntries`. -/
  quarantineEntries : List QuarantinedMarketData
  /-- `seenEventRetention`. -/
  seenEventRetention : ℕ+
  /-- `quarantineRetention`. -/
  quarantineRetention : ℕ+
  /-- `allowSequenceResetOnGeneration`. -/
  allowSequenceResetOnGeneration : Bool

namespace GuardState

open TemporalIntegrityGuard (rollsBack advance)

/-- `new TemporalIntegrityGuard(options)`. -/
def new (seenEventRetention quarantineRetention : ℕ+) (allowSequenceResetOnGeneration : Bool) :
    GuardState where
  watermarks := InsertionMap.empty
  seen := ⟨∅, []⟩
  quarantineEntries := []
  seenEventRetention := seenEventRetention
  quarantineRetention := quarantineRetention
  allowSequenceResetOnGeneration := allowSequenceResetOnGeneration

/-- `quarantine`. -/
def quarantine (g : GuardState) (reason : QuarantineReason) (point : MarketDataPoint)
    (watermark : StreamWatermark) : GuardState × IntegrityDecision :=
  let entry : QuarantinedMarketData :=
    ⟨reason, point, watermark.generation, watermark.providerTimestampMs, watermark.sequence,
      point.quote.receivedAtMs⟩
  ({ g with quarantineEntries := trimStart (g.quarantineEntries ++ [entry]) g.quarantineRetention },
    .quarantined entry)

/-- The `reason` and the `sequenceGap` of a point that is accepted. -/
def acceptance (point : MarketDataPoint) (watermark : StreamWatermark)
    (generationAdvanced canResetSequence : Bool) : IntegrityAcceptedReason × Option ℕ :=
  let byTimestamp : IntegrityAcceptedReason :=
    if watermark.providerTimestampMs = some point.quote.providerTimestampMs then .sameTimestamp
    else .advanced
  if watermark.providerTimestampMs = none then (.initial, none)
  else if generationAdvanced || canResetSequence then (.generationAdvanced, none)
  else
    match watermark.sequence, point.quote.sequence with
    | some last, some n =>
      if last + 1 < n then (.sequenceGap, some (n - last - 1)) else (byTimestamp, none)
    | _, _ => (byTimestamp, none)

/-- `evaluate`. -/
def evaluate (g : GuardState) (point : MarketDataPoint) : GuardState × IntegrityDecision :=
  let key := streamKey point
  let watermark := (g.watermarks.get key).getD ⟨point.generation, none, none, none⟩
  if point.generation < watermark.generation then g.quarantine .staleGeneration point watermark
  else
    let generationAdvanced : Bool := watermark.generation < point.generation
    let canResetSequence :=
      (generationAdvanced || watermark.pendingSequenceResetGeneration = some point.generation) &&
        g.allowSequenceResetOnGeneration
    if point.quote.eventId ∈ g.seen.seenEventIds then (g, .duplicate point)
    else if rollsBack point watermark = true then
      g.quarantine .timestampRollback point watermark
    else if (!canResetSequence &&
        watermark.sequence.any fun last => point.quote.sequence.any fun n => n ≤ last) = true then
      g.quarantine .sequenceRegression point watermark
    else
      let accepted := acceptance point watermark generationAdvanced canResetSequence
      ({ g with
        watermarks := g.watermarks.set key (advance watermark point)
        seen := g.seen.rememberEvent g.seenEventRetention point.quote.eventId },
        .accepted accepted.1 point accepted.2)

/-- A guard state whose containers are consistent, with the events in one list. -/
def toGuard (g : GuardState) (h : g.seen.Consistent) : TemporalIntegrityGuard where
  watermarks := g.watermarks
  seenEventOrder := g.seen.seenEventOrder
  quarantineEntries := g.quarantineEntries
  seenEventRetention := g.seenEventRetention
  quarantineRetention := g.quarantineRetention
  allowSequenceResetOnGeneration := g.allowSequenceResetOnGeneration
  nodup := h.nodup

/-- A new guard has seen nothing. -/
theorem consistent_new (seenEventRetention quarantineRetention : ℕ+) (allow : Bool) :
    (new seenEventRetention quarantineRetention allow).seen.Consistent :=
  ⟨rfl, List.nodup_nil⟩

variable {g : GuardState}

/-- The guards with and without the set accept alike. -/
theorem acceptance_eq (h : g.seen.Consistent) (point : MarketDataPoint) (w : StreamWatermark) :
    acceptance point w (w.generation < point.generation) ((g.toGuard h).canResetSequence point w) =
      (g.toGuard h).acceptance point w := by
  unfold acceptance TemporalIntegrityGuard.acceptance
  simp only [Bool.or_eq_true, decide_eq_true_eq]
  split_ifs
  · rfl
  · rfl
  · rfl
  · cases w.sequence <;> cases point.quote.sequence <;> rfl

/-- `evaluate` keeps the containers consistent, and does what it does to a guard with one list. -/
theorem evaluate_toGuard (h : g.seen.Consistent) (point : MarketDataPoint) :
    ∃ h' : (g.evaluate point).1.seen.Consistent,
      (g.evaluate point).1.toGuard h' = ((g.toGuard h).evaluate point).1 ∧
        (g.evaluate point).2 = ((g.toGuard h).evaluate point).2 := by
  -- The set of ids and the order hold the same ids.
  have hmem : point.quote.eventId ∈ g.seen.seenEventIds ↔
      point.quote.eventId ∈ g.seen.seenEventOrder := by
    rw [h.ids, List.mem_toFinset]
  -- The evaluation, with one branch for each decision of the source.
  have hliteral : g.evaluate point =
      let w := (g.toGuard h).watermarkOf point
      if point.generation < w.generation then g.quarantine .staleGeneration point w
      else if point.quote.eventId ∈ g.seen.seenEventIds then (g, .duplicate point)
      else if rollsBack point w = true then g.quarantine .timestampRollback point w
      else if (g.toGuard h).regresses point w = true then g.quarantine .sequenceRegression point w
      else
        let accepted := acceptance point w (w.generation < point.generation)
          ((g.toGuard h).canResetSequence point w)
        ({ g with
          watermarks := g.watermarks.set (streamKey point) (advance w point)
          seen := g.seen.rememberEvent g.seenEventRetention point.quote.eventId },
          .accepted accepted.1 point accepted.2) := rfl
  rw [hliteral]
  unfold TemporalIntegrityGuard.evaluate
  dsimp only
  rw [acceptance_eq h]
  generalize hw : (g.toGuard h).watermarkOf point = w
  rcases lt_or_ge point.generation w.generation with hgeneration | hgeneration
  · rw [if_pos hgeneration, if_pos hgeneration]
    exact ⟨h, rfl, rfl⟩
  rw [if_neg (not_lt.2 hgeneration), if_neg (not_lt.2 hgeneration)]
  rcases Decidable.em (point.quote.eventId ∈ g.seen.seenEventOrder) with hseen | hseen
  · have hseen' : point.quote.eventId ∈ (g.toGuard h).seenEventOrder := hseen
    rw [if_pos (hmem.2 hseen), dif_pos hseen']
    exact ⟨h, rfl, rfl⟩
  have hseen' : point.quote.eventId ∉ (g.toGuard h).seenEventOrder := hseen
  rw [if_neg (mt hmem.1 hseen), dif_neg hseen']
  rcases Bool.eq_false_or_eq_true (rollsBack point w) with hrollback | hrollback
  · rw [if_pos hrollback, if_pos hrollback]
    exact ⟨h, rfl, rfl⟩
  rw [if_neg (Bool.eq_false_iff.1 hrollback), if_neg (Bool.eq_false_iff.1 hrollback)]
  rcases Bool.eq_false_or_eq_true ((g.toGuard h).regresses point w) with hregression | hregression
  · rw [if_pos hregression, if_pos hregression]
    exact ⟨h, rfl, rfl⟩
  rw [if_neg (Bool.eq_false_iff.1 hregression), if_neg (Bool.eq_false_iff.1 hregression)]
  -- Only the acceptance writes into them.
  have haccept : (g.toGuard h).accept point hseen' =
      TemporalIntegrityGuard.rememberEvent
        { g.toGuard h with watermarks := g.watermarks.set (streamKey point) (advance w point) }
        point.quote.eventId hseen' := by
    rw [← hw]
    rfl
  have hremember := @SeenEvents.rememberEvent_eq g.seen g.seenEventRetention _ h hseen
  have hconsistent : (g.seen.rememberEvent g.seenEventRetention
      point.quote.eventId).Consistent := by
    rw [hremember]
    exact ⟨rfl, ((g.toGuard h).accept point hseen').nodup⟩
  refine ⟨hconsistent, ?_, rfl⟩
  rw [haccept]
  unfold toGuard TemporalIntegrityGuard.rememberEvent
  simp only [hremember]

end GuardState

end MarketDataGateway.Engine

import MarketDataGateway.Lib.InsertionMap
import MarketDataGateway.MarketData.Source
import Mathlib.Data.PNat.Basic

/-!
# The temporal integrity guard

`TemporalIntegrityGuard` of `engine/temporal-integrity.ts`. The guard keeps a watermark for each
stream, which is a provider and a symbol as the quote spells it, and the ids of the events that it
has accepted, the oldest of which it forgets.

`evaluate_cases` says all that `evaluate` can do: it quarantines the point, finds that the event is
a duplicate, or accepts it. Only the last changes the watermarks and the ids.
-/

namespace MarketDataGateway.Engine

open Lib (InsertionMap)
open MarketData (JsString MarketDataPoint js)

/-- `trimStart`, and the loop of `rememberEvent`. -/
def trimStart {α : Type*} (items : List α) (maximum : ℕ+) : List α :=
  items.drop (items.length - maximum)

section TrimStart

variable {α : Type*} {items : List α} {x : α} {maximum : ℕ+}

/-- A list within the maximum is not trimmed. -/
theorem trimStart_eq (h : items.length ≤ maximum) : trimStart items maximum = items := by
  unfold trimStart
  rw [Nat.sub_eq_zero_of_le h, List.drop_zero]

/-- What is left of a list has been in it. -/
theorem mem_of_mem_trimStart (h : x ∈ trimStart items maximum) : x ∈ items := List.mem_of_mem_drop h

/-- The last item stays. -/
theorem trimStart_concat :
    ∃ front, trimStart (items ++ [x]) maximum = front ++ [x] ∧ front.Sublist items := by
  have hpos := maximum.pos
  refine ⟨items.drop ((items ++ [x]).length - maximum), ?_, List.drop_sublist _ _⟩
  unfold trimStart
  rw [List.drop_append_of_le_length]
  rw [List.length_append, List.length_singleton]
  omega

end TrimStart

/-- `IntegrityAcceptedReason`. -/
inductive IntegrityAcceptedReason
  | initial
  | advanced
  | sameTimestamp
  | generationAdvanced
  | sequenceGap
  deriving DecidableEq

/-- `QuarantineReason`. -/
inductive QuarantineReason
  | staleGeneration
  | timestampRollback
  | sequenceRegression
  deriving DecidableEq

/-- `QuarantinedMarketData`. -/
structure QuarantinedMarketData where
  /-- `reason`. -/
  reason : QuarantineReason
  /-- `point`. -/
  point : MarketDataPoint
  /-- `expectedGeneration`. -/
  expectedGeneration : ℕ
  /-- `previousProviderTimestampMs`. -/
  previousProviderTimestampMs : Option ℤ
  /-- `previousSequence`. -/
  previousSequence : Option ℕ
  /-- `quarantinedAtMs`. -/
  quarantinedAtMs : ℤ
  deriving DecidableEq

/-- `IntegrityDecision`. -/
inductive IntegrityDecision
  /-- `AcceptedDecision`. -/
  | accepted (reason : IntegrityAcceptedReason) (point : MarketDataPoint) (sequenceGap : Option ℕ)
  /-- `DuplicateDecision`. -/
  | duplicate (point : MarketDataPoint)
  /-- `QuarantinedDecision`. -/
  | quarantined (quarantine : QuarantinedMarketData)
  deriving DecidableEq

/-- `StreamWatermark`. -/
structure StreamWatermark where
  /-- `generation`. -/
  generation : ℕ
  /-- `providerTimestampMs`. -/
  providerTimestampMs : Option ℤ
  /-- `sequence`. -/
  sequence : Option ℕ
  /-- `pendingSequenceResetGeneration`. -/
  pendingSequenceResetGeneration : Option ℕ
  deriving DecidableEq

/-- `streamKey`. -/
def streamKey (point : MarketDataPoint) : JsString :=
  point.quote.provider ++ js ":" ++ point.quote.symbol

/-- `TemporalIntegrityGuard`. -/
structure TemporalIntegrityGuard where
  /-- `watermarks`. -/
  watermarks : InsertionMap JsString StreamWatermark
  /-- `seenEventOrder`. Its entries are the members of `seenEventIds`. -/
  seenEventOrder : List JsString
  /-- `quarantineEntries`. -/
  quarantineEntries : List QuarantinedMarketData
  /-- `seenEventRetention`. -/
  seenEventRetention : ℕ+
  /-- `quarantineRetention`. -/
  quarantineRetention : ℕ+
  /-- `allowSequenceResetOnGeneration`. -/
  allowSequenceResetOnGeneration : Bool
  nodup : seenEventOrder.Nodup

namespace TemporalIntegrityGuard

/-- `quarantine`. -/
def quarantine (g : TemporalIntegrityGuard) (reason : QuarantineReason) (point : MarketDataPoint)
    (watermark : StreamWatermark) : TemporalIntegrityGuard × IntegrityDecision :=
  let entry : QuarantinedMarketData :=
    ⟨reason, point, watermark.generation, watermark.providerTimestampMs, watermark.sequence,
      point.quote.receivedAtMs⟩
  ({ g with quarantineEntries := trimStart (g.quarantineEntries ++ [entry]) g.quarantineRetention },
    .quarantined entry)

/-- `rememberEvent`, of an event that has not been seen. -/
def rememberEvent (g : TemporalIntegrityGuard) (eventId : JsString)
    (h : eventId ∉ g.seenEventOrder) : TemporalIntegrityGuard :=
  { g with
    seenEventOrder := trimStart (g.seenEventOrder ++ [eventId]) g.seenEventRetention
    nodup := (List.nodup_append.2 ⟨g.nodup, List.nodup_singleton eventId, fun _ ha _ hb heq =>
      h (List.mem_singleton.1 hb ▸ heq ▸ ha)⟩).sublist (List.drop_sublist _ _) }

/-- `this.watermarks.get(key) ?? { generation: point.generation }`. -/
def watermarkOf (g : TemporalIntegrityGuard) (point : MarketDataPoint) : StreamWatermark :=
  (g.watermarks.get (streamKey point)).getD ⟨point.generation, none, none, none⟩

/-- `canResetSequence`. -/
def canResetSequence (g : TemporalIntegrityGuard) (point : MarketDataPoint)
    (watermark : StreamWatermark) : Bool :=
  (watermark.generation < point.generation ||
    watermark.pendingSequenceResetGeneration = some point.generation) &&
    g.allowSequenceResetOnGeneration

/-- The point is older than the last one of its stream. -/
def rollsBack (point : MarketDataPoint) (watermark : StreamWatermark) : Bool :=
  watermark.providerTimestampMs.any fun t => point.quote.providerTimestampMs < t

/-- The sequence does not advance, and may not be reset. -/
def regresses (g : TemporalIntegrityGuard) (point : MarketDataPoint)
    (watermark : StreamWatermark) : Bool :=
  !g.canResetSequence point watermark &&
    watermark.sequence.any fun last => point.quote.sequence.any fun n => n ≤ last

/-- The `reason` and the `sequenceGap` of a point that is accepted. -/
def acceptance (g : TemporalIntegrityGuard) (point : MarketDataPoint)
    (watermark : StreamWatermark) :
    IntegrityAcceptedReason × Option ℕ :=
  if watermark.providerTimestampMs = none then (.initial, none)
  else if watermark.generation < point.generation ∨ g.canResetSequence point watermark = true then
    (.generationAdvanced, none)
  else
    match watermark.sequence, point.quote.sequence with
    | some last, some n =>
      if last + 1 < n then (.sequenceGap, some (n - last - 1))
      else if watermark.providerTimestampMs = some point.quote.providerTimestampMs then
        (.sameTimestamp, none)
      else (.advanced, none)
    | _, _ =>
      if watermark.providerTimestampMs = some point.quote.providerTimestampMs then
        (.sameTimestamp, none)
      else (.advanced, none)

/-- The watermark after a point that is accepted. -/
def advance (watermark : StreamWatermark) (point : MarketDataPoint) : StreamWatermark where
  generation := point.generation
  providerTimestampMs := some (watermark.providerTimestampMs.elim point.quote.providerTimestampMs
    (max · point.quote.providerTimestampMs))
  sequence := point.quote.sequence.or watermark.sequence
  pendingSequenceResetGeneration := none

/-- The guard after a point that it accepts. -/
def accept (g : TemporalIntegrityGuard) (point : MarketDataPoint)
    (h : point.quote.eventId ∉ g.seenEventOrder) : TemporalIntegrityGuard :=
  let watermark := g.watermarkOf point
  rememberEvent
    { g with watermarks := g.watermarks.set (streamKey point) (advance watermark point) }
    point.quote.eventId h

/-- `evaluate`. -/
def evaluate (g : TemporalIntegrityGuard) (point : MarketDataPoint) :
    TemporalIntegrityGuard × IntegrityDecision :=
  let watermark := g.watermarkOf point
  if point.generation < watermark.generation then g.quarantine .staleGeneration point watermark
  else if h : point.quote.eventId ∈ g.seenEventOrder then (g, .duplicate point)
  else if rollsBack point watermark = true then g.quarantine .timestampRollback point watermark
  else if g.regresses point watermark = true then g.quarantine .sequenceRegression point watermark
  else
    let acceptance := g.acceptance point watermark
    (g.accept point h, .accepted acceptance.1 point acceptance.2)

/-- `reset`. -/
def reset (g : TemporalIntegrityGuard) : TemporalIntegrityGuard :=
  { g with
    watermarks := InsertionMap.empty
    seenEventOrder := []
    quarantineEntries := []
    nodup := List.nodup_nil }

/-- The guard accepts the point: it is not of an old generation, its event has not been seen, and
neither its timestamp nor its sequence goes back. -/
structure Accepts (g : TemporalIntegrityGuard) (point : MarketDataPoint) : Prop where
  generation : (g.watermarkOf point).generation ≤ point.generation
  unseen : point.quote.eventId ∉ g.seenEventOrder
  timestamp : rollsBack point (g.watermarkOf point) = false
  sequence : g.regresses point (g.watermarkOf point) = false

instance (g : TemporalIntegrityGuard) (point : MarketDataPoint) : Decidable (g.Accepts point) :=
  decidable_of_iff ((g.watermarkOf point).generation ≤ point.generation ∧
      point.quote.eventId ∉ g.seenEventOrder ∧ rollsBack point (g.watermarkOf point) = false ∧
      g.regresses point (g.watermarkOf point) = false)
    ⟨fun ⟨h₁, h₂, h₃, h₄⟩ => ⟨h₁, h₂, h₃, h₄⟩, fun ⟨h₁, h₂, h₃, h₄⟩ => ⟨h₁, h₂, h₃, h₄⟩⟩

variable {g g' : TemporalIntegrityGuard} {point : MarketDataPoint} {decision : IntegrityDecision}

/-- How `evaluate` can end. -/
inductive Evaluated (g : TemporalIntegrityGuard) (point : MarketDataPoint) :
    TemporalIntegrityGuard × IntegrityDecision → Prop
  /-- The point is in quarantine. -/
  | quarantined (g' : TemporalIntegrityGuard) (entry : QuarantinedMarketData) :
    ¬g.Accepts point → g'.watermarks = g.watermarks → g'.seenEventOrder = g.seenEventOrder →
      Evaluated g point (g', .quarantined entry)
  /-- The event has been seen. -/
  | duplicate : (g.watermarkOf point).generation ≤ point.generation →
    point.quote.eventId ∈ g.seenEventOrder → Evaluated g point (g, .duplicate point)
  /-- The point is accepted. -/
  | accepted (h : g.Accepts point) (reason : IntegrityAcceptedReason) (sequenceGap : Option ℕ) :
    Evaluated g point (g.accept point h.unseen, .accepted reason point sequenceGap)

/-- How a guard decides on a point. -/
theorem evaluate_cases (g : TemporalIntegrityGuard) (point : MarketDataPoint) :
    Evaluated g point (g.evaluate point) := by
  unfold evaluate
  dsimp only
  split_ifs with hgeneration hseen hrollback hregression
  · exact .quarantined _ _ (fun h => absurd h.generation (by omega)) rfl rfl
  · exact .duplicate (not_lt.1 hgeneration) hseen
  · exact .quarantined _ _ (fun h => absurd (h.timestamp.symm.trans hrollback) Bool.false_ne_true)
      rfl rfl
  · exact .quarantined _ _ (fun h => absurd (h.sequence.symm.trans hregression) Bool.false_ne_true)
      rfl rfl
  · have haccepts : g.Accepts point :=
      ⟨by omega, hseen, Bool.eq_false_iff.2 hrollback, Bool.eq_false_iff.2 hregression⟩
    exact .accepted haccepts _ _

/-- A point that is accepted is not older than the last one of its stream. -/
theorem Accepts.le (h : g.Accepts point) {t : ℤ}
    (ht : (g.watermarkOf point).providerTimestampMs = some t) :
    t ≤ point.quote.providerTimestampMs := by
  have hroll := h.timestamp
  unfold rollsBack at hroll
  rw [ht, Option.any_some, decide_eq_false_iff_not] at hroll
  omega

/-- The timestamp of the last point of a stream. -/
def lastTimestamp (g : TemporalIntegrityGuard) (key : JsString) : Option ℤ :=
  (g.watermarks.get key).bind StreamWatermark.providerTimestampMs

/-- The last timestamp of a key is that of its watermark. -/
theorem lastTimestamp_eq :
    g.lastTimestamp (streamKey point) = (g.watermarkOf point).providerTimestampMs := by
  unfold lastTimestamp watermarkOf
  cases g.watermarks.get (streamKey point) <;> rfl

/-- The point that has been accepted is the last one of its stream. -/
theorem lastTimestamp_accept (h : g.Accepts point) :
    (g.accept point h.unseen).lastTimestamp (streamKey point) =
      some point.quote.providerTimestampMs := by
  show (((g.watermarks.set (streamKey point) (advance (g.watermarkOf point) point)).get
    (streamKey point)).bind StreamWatermark.providerTimestampMs) = _
  rw [InsertionMap.get_set_self]
  show some ((g.watermarkOf point).providerTimestampMs.elim point.quote.providerTimestampMs
    (max · point.quote.providerTimestampMs)) = _
  cases ht : (g.watermarkOf point).providerTimestampMs with
  | none => rfl
  | some t => exact congrArg some (max_eq_right (h.le ht))

/-- An accepted point leaves the last timestamps of the other keys. -/
theorem lastTimestamp_accept_ne (h : g.Accepts point) {key : JsString}
    (hkey : key ≠ streamKey point) :
    (g.accept point h.unseen).lastTimestamp key = g.lastTimestamp key := by
  show (((g.watermarks.set (streamKey point) (advance (g.watermarkOf point) point)).get
    key).bind StreamWatermark.providerTimestampMs) = _
  rw [InsertionMap.get_set_ne hkey]
  rfl

/-- A guard that has accepted an event is not as it was. -/
theorem accept_ne (h : g.Accepts point) : g.accept point h.unseen ≠ g := by
  intro heq
  obtain ⟨front, hfront, -⟩ := @trimStart_concat _ g.seenEventOrder point.quote.eventId
    g.seenEventRetention
  have hsame : trimStart (g.seenEventOrder ++ [point.quote.eventId]) g.seenEventRetention =
      g.seenEventOrder := congrArg TemporalIntegrityGuard.seenEventOrder heq
  rw [hfront] at hsame
  exact h.unseen (hsame ▸ List.mem_append_right front (List.mem_singleton_self _))

end TemporalIntegrityGuard

end MarketDataGateway.Engine

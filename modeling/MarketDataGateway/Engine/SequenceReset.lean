import MarketDataGateway.Engine.GuardRuns

/-!
# Sequences after a reconnect

A point of a new generation may reset the sequence of its stream, if the guard allows it. The
permission is for the point that brings the generation: `evaluate` clears
`pendingSequenceResetGeneration` when it accepts a point, and sets it nowhere. So the first sequence
of a generation is accepted whatever it is only if no point without a sequence has brought the
generation before it (`restarts_iff`).
-/

namespace MarketDataGateway.Engine

open Lib (InsertionMap final outputs)
open MarketData (JsString MarketDataPoint js)

namespace TemporalIntegrityGuard

/-- The guard accepts the point, and after it the sequences of its generation only advance. -/
def RestartsWith (g : TemporalIntegrityGuard) (point : MarketDataPoint) : Prop :=
  (g.evaluate point).2.acceptedPoint = some point ∧
    ∀ later, (point :: (g.evaluate point).1.accepted later).Pairwise (Precedes true)

variable {g : TemporalIntegrityGuard} {w : StreamWatermark} {point : MarketDataPoint}
  {points : List MarketDataPoint} {n : ℕ}

/-- After a point that is accepted, the order of the sequences is strict. -/
theorem restartsWith_iff (hallow : g.allowSequenceResetOnGeneration = true) :
    g.RestartsWith point ↔ g.Accepts point := by
  constructor
  · exact fun h => acceptedPoint_iff.1 h.1
  · intro h
    refine ⟨acceptedPoint_iff.2 h, fun later => ?_⟩
    have hrecalls := recalls_final g (point :: later)
    have haccepted := @accepted_cons g point later
    rw [acceptedPoint_iff.2 h, Option.toList_some, List.singleton_append] at haccepted
    have hprecedes := hrecalls.precedes
    rw [haccepted, hallow] at hprecedes
    exact hprecedes

/-- The first point with a sequence of a new generation is accepted, and the order of the sequences
applies after it, if and only if it brings the generation itself, or its sequence is after the last
one of the stream all the same. -/
theorem restarts_iff (hallow : g.allowSequenceResetOnGeneration = true)
    (hstream : ∀ q ∈ points, streamKey q = streamKey point)
    (hw : g.watermarks.get (streamKey point) = some w) (hadvance : w.generation < point.generation)
    (hfirst : ∀ q ∈ g.accepted points, q.generation < point.generation ∨
      q.generation = point.generation ∧ q.quote.sequence = none)
    (hn : point.quote.sequence = some n)
    (hnew : point.quote.eventId ∉ (final evaluate g points).seenEventOrder)
    (htime : ∀ t ∈ (final evaluate g points).lastTimestamp (streamKey point),
      t ≤ point.quote.providerTimestampMs) :
    (final evaluate g points).RestartsWith point ↔
      (∀ q ∈ g.accepted points, q.generation < point.generation) ∨
        ∀ last ∈ (final evaluate g points).lastSequence (streamKey point), last < n := by
  have hrecalls := recalls_final g points
  generalize final evaluate g points = g₁ at hnew htime hrecalls ⊢
  have hallow₁ : g₁.allowSequenceResetOnGeneration = true := hrecalls.allow.trans hallow
  have hlast : g₁.lastSequence (streamKey point) = (g₁.watermarkOf point).sequence :=
    lastSequence_eq
  have htimestamp : rollsBack point (g₁.watermarkOf point) = false := by
    unfold rollsBack
    rw [← lastTimestamp_eq]
    cases ht : g₁.lastTimestamp (streamKey point) with
    | none => rfl
    | some t => simpa using htime t ht
  -- Apart from the sequence nothing stands against the point.
  have haccepts (hgeneration : (g₁.watermarkOf point).generation ≤ point.generation) :
      g₁.Accepts point ↔ g₁.canResetSequence point (g₁.watermarkOf point) = true ∨
        ∀ last ∈ g₁.lastSequence (streamKey point), last < n := by
    have hsequence := @regresses_eq_false_iff g₁ point (g₁.watermarkOf point)
    rw [hn] at hsequence
    rw [hlast]
    constructor
    · intro h
      refine (hsequence.1 h.sequence).imp_right fun hlt last hl => hlt last hl n rfl
    · intro h
      refine ⟨hgeneration, hnew, htimestamp, hsequence.2 (h.imp_right fun hlt last hl m hm => ?_)⟩
      exact Option.some.inj hm ▸ hlt last hl
  rw [restartsWith_iff hallow₁]
  rcases eq_or_ne (g.accepted points) [] with hnil | hne
  · -- No point of the run has been accepted, and this one brings the generation.
    have hmark : g₁.watermarkOf point = w := by
      rw [hnil] at hrecalls
      exact watermarkOf_eq ((hrecalls.untouched _ fun p hp => absurd hp List.not_mem_nil).trans hw)
    have hreset : g₁.canResetSequence point w = true := by
      unfold canResetSequence
      rw [hallow₁, decide_eq_true hadvance]
      rfl
    rw [haccepts (hmark ▸ hadvance.le), hmark, hnil]
    exact iff_of_true (Or.inl hreset) (Or.inl fun q hq => absurd hq List.not_mem_nil)
  · -- The watermark is that of an accepted point, of the greatest generation.
    obtain ⟨p, hp⟩ := List.exists_mem_of_ne_nil _ hne
    obtain ⟨w₁, hw₁, hcovers, q, hq, -, hnewest⟩ := hrecalls.covers p hp
    have hkey : streamKey p = streamKey point := hstream p (mem_of_mem_accepted hp)
    have hmark : g₁.watermarkOf point = w₁ := watermarkOf_eq (hkey ▸ hw₁)
    have hbelow : ∀ q ∈ g.accepted points, q.generation ≤ w₁.generation := by
      intro q hq
      obtain ⟨w', hw', hcovers', -⟩ := hrecalls.covers q hq
      have hkey' : streamKey q = streamKey point := hstream q (mem_of_mem_accepted hq)
      have hsame : some w' = some w₁ := by rw [← hw', ← hw₁, hkey, hkey']
      exact Option.some.inj hsame ▸ hcovers'.generation
    have hreset : g₁.canResetSequence point w₁ = decide (w₁.generation < point.generation) := by
      have hnone : (none : Option ℕ) ≠ some point.generation := (Option.some_ne_none _).symm
      unfold canResetSequence
      rw [hallow₁, hcovers.pending, Bool.and_true, decide_eq_false hnone, Bool.or_false]
    have hle : w₁.generation ≤ point.generation := by
      rcases hfirst q hq with hlt | ⟨heq, -⟩ <;> omega
    rw [haccepts (hmark ▸ hle), hmark, hreset, decide_eq_true_eq]
    -- The generation is the point's own as soon as one accepted point has had it.
    refine or_congr_left ⟨fun hlt q hq => (hbelow q hq).trans_lt hlt, fun h => ?_⟩
    exact hnewest ▸ h q hq

/-- A sequence that starts again with the point that brings the generation. -/
theorem restarts_iff_sample :
    (final evaluate (final evaluate (new 10 10 true) [streamPoint "p" "A" "1" 1 1 (some 10)]) []
        ).RestartsWith (streamPoint "p" "A" "2" 2 2 (some 1)) ↔
      (∀ q ∈ (final evaluate (new 10 10 true) [streamPoint "p" "A" "1" 1 1 (some 10)]).accepted [],
          q.generation < 2) ∨
        ∀ last ∈ (final evaluate (final evaluate (new 10 10 true)
            [streamPoint "p" "A" "1" 1 1 (some 10)]) []).lastSequence (js "p:A"), last < 1 :=
  @restarts_iff _ ⟨1, some 1, some 10, none⟩ (streamPoint "p" "A" "2" 2 2 (some 1)) [] 1 rfl
    (by decide) (by decide) (by decide) (by decide) rfl (by decide) (by decide)

/-- A sequence that starts again after a point without one has brought the generation is refused. -/
theorem restart_refused :
    ¬∀ (g : TemporalIntegrityGuard) (w : StreamWatermark) (points : List MarketDataPoint)
      (point : MarketDataPoint) (n : ℕ), g.allowSequenceResetOnGeneration = true →
        (∀ q ∈ points, streamKey q = streamKey point) →
        g.watermarks.get (streamKey point) = some w → w.generation < point.generation →
        (∀ q ∈ g.accepted points, q.generation < point.generation ∨
          q.generation = point.generation ∧ q.quote.sequence = none) →
        point.quote.sequence = some n →
        point.quote.eventId ∉ (final evaluate g points).seenEventOrder →
        (∀ t ∈ (final evaluate g points).lastTimestamp (streamKey point),
          t ≤ point.quote.providerTimestampMs) →
        (final evaluate g points).RestartsWith point := by
  intro h
  have hrestarts := h (final evaluate (new 10 10 true) [streamPoint "p" "A" "1" 1 1 (some 10)])
    ⟨1, some 1, some 10, none⟩ [streamPoint "p" "A" "2" 2 2 none]
    (streamPoint "p" "A" "3" 3 2 (some 1)) 1 rfl (by decide) (by decide) (by decide) (by decide) rfl
    (by decide) (by decide)
  exact absurd hrestarts.1 (by decide)

end TemporalIntegrityGuard

end MarketDataGateway.Engine

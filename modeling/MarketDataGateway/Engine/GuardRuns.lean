import MarketDataGateway.Engine.SeenEvents
import MarketDataGateway.Lib.Machines
import Mathlib.Order.Interval.Finset.Nat

/-!
# Runs of the integrity guard

What a guard holds after any number of points is what the points that it has accepted make of what
it held before (`Recalls`): the last of their event ids, and for each stream a watermark that is not
behind any of them. Each step keeps this (`recalls_step`), so it holds after a run
(`recalls_final`).
-/

namespace MarketDataGateway.Engine

open Lib (InsertionMap final outputs)
open MarketData (JsString MarketDataPoint)

/-- The point of a decision that accepts it. -/
def IntegrityDecision.acceptedPoint : IntegrityDecision → Option MarketDataPoint
  | .accepted _ point _ => some point
  | _ => none

section TrimStart

variable {α : Type*} {items : List α} {x : α} {maximum : ℕ+}

/-- A list that is trimmed on the way is trimmed to the same end. -/
theorem trimStart_trimStart_concat :
    trimStart (trimStart items maximum ++ [x]) maximum = trimStart (items ++ [x]) maximum := by
  have hpos := maximum.pos
  unfold trimStart
  rw [← List.drop_append_of_le_length (by omega : items.length - maximum ≤ items.length),
    List.drop_drop]
  congr 1
  simp only [List.length_drop, List.length_append, List.length_singleton]
  omega

/-- A trimmed list has at most the maximum. -/
theorem length_trimStart : (trimStart items maximum).length = min items.length maximum := by
  unfold trimStart
  rw [List.length_drop]
  omega

end TrimStart

namespace TemporalIntegrityGuard

/-- The points that a guard accepts of those that come one after the other. -/
def accepted (g : TemporalIntegrityGuard) (points : List MarketDataPoint) : List MarketDataPoint :=
  (outputs evaluate g points).filterMap IntegrityDecision.acceptedPoint

/-- A point and one that is accepted later: in one stream neither the generation nor the timestamp
goes back, and the sequence advances in one generation, or in any if it may not be reset. -/
def Precedes (allowReset : Bool) (p q : MarketDataPoint) : Prop :=
  streamKey p = streamKey q →
    p.generation ≤ q.generation ∧ p.quote.providerTimestampMs ≤ q.quote.providerTimestampMs ∧
      (p.generation = q.generation ∨ allowReset = false →
        ∀ m ∈ p.quote.sequence, ∀ n ∈ q.quote.sequence, m < n)

/-- The watermark is not behind the point. -/
structure Covers (allowReset : Bool) (w : StreamWatermark) (p : MarketDataPoint) : Prop where
  generation : p.generation ≤ w.generation
  timestamp : ∃ t ∈ w.providerTimestampMs, p.quote.providerTimestampMs ≤ t
  sequence : p.generation = w.generation ∨ allowReset = false →
    ∀ m ∈ p.quote.sequence, ∃ n ∈ w.sequence, m ≤ n
  pending : w.pendingSequenceResetGeneration = none

/-- The sequences of the points of a stream. -/
def sequencesOf (key : JsString) (points : List MarketDataPoint) : List ℕ :=
  (points.filter fun p => streamKey p = key).filterMap fun p => p.quote.sequence

/-- The sequence of the watermark of a stream. -/
def lastSequence (g : TemporalIntegrityGuard) (key : JsString) : Option ℕ :=
  (g.watermarks.get key).bind StreamWatermark.sequence

/-- What the guard holds is what the accepted points have made of what `g₀` holds. -/
structure Recalls (g₀ g : TemporalIntegrityGuard) (accepted : List MarketDataPoint) : Prop where
  retention : g.seenEventRetention = g₀.seenEventRetention
  allow : g.allowSequenceResetOnGeneration = g₀.allowSequenceResetOnGeneration
  order : g₀.seenEventOrder.length ≤ g₀.seenEventRetention → g.seenEventOrder =
    trimStart (g₀.seenEventOrder ++ accepted.map fun p => p.quote.eventId) g₀.seenEventRetention
  untouched : ∀ key, (∀ p ∈ accepted, streamKey p ≠ key) →
    g.watermarks.get key = g₀.watermarks.get key
  covers : ∀ p ∈ accepted, ∃ w, g.watermarks.get (streamKey p) = some w ∧
    Covers g₀.allowSequenceResetOnGeneration w p ∧
    ∃ q ∈ accepted, streamKey q = streamKey p ∧ q.generation = w.generation
  sequence : ∀ key, g.lastSequence key =
    (sequencesOf key accepted).getLast?.or (g₀.lastSequence key)
  precedes : accepted.Pairwise (Precedes g₀.allowSequenceResetOnGeneration)

variable {g₀ g : TemporalIntegrityGuard} {point p : MarketDataPoint} {points : List MarketDataPoint}
  {accepted : List MarketDataPoint} {key : JsString} {w : StreamWatermark} {allowReset : Bool}

/-- The watermark of a point is that of its key. -/
theorem watermarkOf_eq (h : g.watermarks.get (streamKey point) = some w) :
    g.watermarkOf point = w := by
  unfold watermarkOf
  rw [h, Option.getD_some]

/-- An accepted point advances the watermark of its key. -/
theorem watermarks_accept (h : g.Accepts point) :
    (g.accept point h.unseen).watermarks =
      g.watermarks.set (streamKey point) (advance (g.watermarkOf point) point) := rfl

/-- A point is accepted after the points of its stream that the watermark covers. -/
theorem Covers.precedes (h : g.Accepts point) (hw : g.watermarks.get (streamKey p) = some w)
    (hp : Covers g.allowSequenceResetOnGeneration w p) :
    Precedes g.allowSequenceResetOnGeneration p point := by
  intro hkey
  have hmark : g.watermarkOf point = w := watermarkOf_eq (hkey ▸ hw)
  have hgeneration := h.generation
  have hsequence := h.sequence
  rw [hmark] at hgeneration hsequence
  obtain ⟨t, ht, hle⟩ := hp.timestamp
  have htimestamp : t ≤ point.quote.providerTimestampMs := h.le (hmark ▸ ht)
  refine ⟨hp.generation.trans hgeneration, hle.trans htimestamp, fun hsame m hm n hn => ?_⟩
  -- The sequence cannot be reset, as no reset is pending in a watermark that covers.
  have hreset : g.canResetSequence point w = false := by
    unfold canResetSequence
    rw [hp.pending]
    rcases hsame with hsame | hforbidden
    · have heq : ¬ w.generation < point.generation := by
        have := hp.generation
        omega
      rw [decide_eq_false heq]
      rfl
    · rw [hforbidden, Bool.and_false]
  have hcover : ∃ last ∈ w.sequence, m ≤ last := by
    refine hp.sequence (hsame.imp_left fun heq => ?_) m hm
    have := hp.generation
    omega
  obtain ⟨last, hlast, hmle⟩ := hcover
  -- A sequence that does not advance would have been rejected.
  have hadvance : ¬ n ≤ last := by
    unfold regresses at hsequence
    rw [hreset, Option.mem_def.1 hlast, Option.mem_def.1 hn] at hsequence
    simpa using hsequence
  omega

/-- The watermark of a stream after a point of it covers the point. -/
theorem covers_self (w : StreamWatermark) (point : MarketDataPoint) :
    Covers allowReset (advance w point) point := by
  refine ⟨le_refl _, ⟨_, rfl, ?_⟩, fun _ m hm => ⟨m, ?_, le_refl m⟩, rfl⟩
  · cases w.providerTimestampMs with
    | none => exact le_refl _
    | some t => exact le_max_right _ _
  · show m ∈ point.quote.sequence.or w.sequence
    rw [Option.mem_def.1 hm]
    rfl

/-- The watermark of a stream still covers what it has covered, after one more point. -/
theorem Covers.advance (h : g.Accepts point) (hw : g.watermarks.get (streamKey p) = some w)
    (hkey : streamKey p = streamKey point) (hp : Covers g.allowSequenceResetOnGeneration w p) :
    Covers g.allowSequenceResetOnGeneration (advance w point) p := by
  obtain ⟨hgeneration, -, hsequence⟩ := Covers.precedes h hw hp hkey
  obtain ⟨t, ht, hle⟩ := hp.timestamp
  refine ⟨hgeneration, ⟨max t point.quote.providerTimestampMs, ?_, hle.trans (le_max_left _ _)⟩,
    fun hsame m hm => ?_, rfl⟩
  · show max t point.quote.providerTimestampMs ∈ some _
    rw [Option.mem_def.1 ht]
    rfl
  · show ∃ n ∈ point.quote.sequence.or w.sequence, m ≤ n
    have hadvance := hsequence hsame m hm
    cases hn : point.quote.sequence with
    | some n => exact ⟨n, rfl, (hadvance n hn).le⟩
    | none =>
      refine hp.sequence (hsame.imp_left fun heq => ?_) m hm
      have hmark : g.watermarkOf point = w := watermarkOf_eq (hkey ▸ hw)
      have hnot := h.generation
      have hbelow := hp.generation
      change p.generation = point.generation at heq
      rw [hmark] at hnot
      omega

/-- The last sequence of a key is that of its watermark. -/
theorem lastSequence_eq : g.lastSequence (streamKey point) = (g.watermarkOf point).sequence := by
  unfold lastSequence watermarkOf
  cases g.watermarks.get (streamKey point) <;> rfl

/-- An accepted point leaves its sequence, if it has one. -/
theorem lastSequence_accept (h : g.Accepts point) : (g.accept point h.unseen).lastSequence key =
    if key = streamKey point then point.quote.sequence.or (g.lastSequence key)
    else g.lastSequence key := by
  unfold lastSequence
  rw [watermarks_accept h, InsertionMap.get_set]
  split_ifs with hkey
  · have hmark : (g.watermarkOf point).sequence =
        (g.watermarks.get key).bind StreamWatermark.sequence := by
      rw [hkey]
      exact lastSequence_eq.symm
    rw [← hmark]
    rfl
  · rfl

/-- The sequences of a key, with one more point. -/
theorem sequencesOf_concat : sequencesOf key (points ++ [point]) =
    sequencesOf key points ++ if streamKey point = key
    then point.quote.sequence.toList else [] := by
  unfold sequencesOf
  rw [List.filter_append, List.filterMap_append, List.filter_cons, List.filter_nil]
  congr 1
  split_ifs with hdecide hkey hkey
  · cases hsequence : point.quote.sequence <;> simp [hsequence]
  · exact absurd (of_decide_eq_true hdecide) hkey
  · exact absurd (decide_eq_true hkey) hdecide
  · rfl

/-- The guard recalls one more point when it accepts it. -/
theorem Recalls.accept (hrecalls : Recalls g₀ g accepted) (h : g.Accepts point) :
    Recalls g₀ (g.accept point h.unseen) (accepted ++ [point]) := by
  have hallow := hrecalls.allow
  refine ⟨hrecalls.retention, hallow, fun hlength => ?_, fun key hkey => ?_, fun p hp => ?_,
    fun key => ?_, ?_⟩
  · show trimStart (g.seenEventOrder ++ [point.quote.eventId]) g.seenEventRetention = _
    rw [hrecalls.order hlength, hrecalls.retention, trimStart_trimStart_concat, List.map_append,
      List.append_assoc]
    rfl
  · have hne : key ≠ streamKey point :=
      (hkey point (List.mem_append_right _ (List.mem_singleton_self point))).symm
    rw [watermarks_accept h, InsertionMap.get_set_ne hne]
    exact hrecalls.untouched key fun p hp => hkey p (List.mem_append_left _ hp)
  · rw [watermarks_accept h, InsertionMap.get_set]
    have hmem : point ∈ accepted ++ [point] :=
      List.mem_append_right _ (List.mem_singleton_self point)
    -- A point from before is covered by a watermark that has only gone forward.
    rcases List.mem_append.1 hp with hp | hp
    · obtain ⟨w, hw, hcovers, q, hq, hstream, hnewest⟩ := hrecalls.covers p hp
      split_ifs with hkey
      · have hmark : g.watermarkOf point = w := watermarkOf_eq (hkey ▸ hw)
        rw [← hallow] at hcovers ⊢
        exact ⟨_, rfl, hmark ▸ hcovers.advance h hw hkey, point, hmem, hkey.symm, rfl⟩
      · exact ⟨w, hw, hcovers, q, List.mem_append_left _ hq, hstream, hnewest⟩
    · rw [List.mem_singleton.1 hp, if_pos rfl]
      exact ⟨_, rfl, covers_self _ _, point, hmem, rfl, rfl⟩
  · rw [lastSequence_accept h, sequencesOf_concat, hrecalls.sequence]
    rcases eq_or_ne key (streamKey point) with hkey | hkey
    · rw [if_pos hkey, if_pos hkey.symm]
      cases point.quote.sequence with
      | none => rw [Option.toList_none, List.append_nil, Option.none_or]
      | some n => rw [Option.toList_some, List.getLast?_concat, Option.some_or, Option.some_or]
    · rw [if_neg hkey, if_neg hkey.symm, List.append_nil]
  · -- The new point comes after each one of its stream, as the watermark covers them.
    rw [List.pairwise_append]
    refine ⟨hrecalls.precedes, List.pairwise_singleton _ _, fun p hp q hq => ?_⟩
    obtain ⟨w, hw, hcovers, -⟩ := hrecalls.covers p hp
    rw [List.mem_singleton.1 hq, ← hallow]
    exact Covers.precedes h hw (hallow ▸ hcovers)

/-- What holds of a guard is all the invariant speaks of. -/
theorem Recalls.congr {g' : TemporalIntegrityGuard} (h : Recalls g₀ g accepted)
    (hwatermarks : g'.watermarks = g.watermarks) (horder : g'.seenEventOrder = g.seenEventOrder)
    (hretention : g'.seenEventRetention = g.seenEventRetention)
    (hallow : g'.allowSequenceResetOnGeneration = g.allowSequenceResetOnGeneration) :
    Recalls g₀ g' accepted := by
  have hlast : g'.lastSequence = g.lastSequence := by
    unfold lastSequence
    rw [hwatermarks]
  exact ⟨hretention.trans h.retention, hallow.trans h.allow, horder ▸ h.order,
    hwatermarks ▸ h.untouched, hwatermarks ▸ h.covers, hlast ▸ h.sequence, h.precedes⟩

/-- A guard recalls what it knows itself. -/
theorem recalls_self (g : TemporalIntegrityGuard) : Recalls g g [] := by
  refine ⟨rfl, rfl, fun hlength => ?_, fun _ _ => rfl, fun p hp => absurd hp List.not_mem_nil,
    fun _ => rfl, List.Pairwise.nil⟩
  rw [List.map_nil, List.append_nil, trimStart_eq hlength]

/-- `evaluate` leaves the options as they are. -/
theorem options_evaluate (g : TemporalIntegrityGuard) (point : MarketDataPoint) :
    (g.evaluate point).1.seenEventRetention = g.seenEventRetention ∧
      (g.evaluate point).1.allowSequenceResetOnGeneration = g.allowSequenceResetOnGeneration := by
  unfold evaluate
  dsimp only
  split_ifs <;> exact ⟨rfl, rfl⟩

/-- A decision that does not accept the point leaves the watermarks and the seen events as they
are. -/
theorem evaluate_of_not_accepted (h : (g.evaluate point).2.acceptedPoint = none) :
    (g.evaluate point).1.watermarks = g.watermarks ∧
      (g.evaluate point).1.seenEventOrder = g.seenEventOrder := by
  have hcases := evaluate_cases g point
  generalize g.evaluate point = evaluated at h hcases
  cases hcases with
  | quarantined g' entry _ hwatermarks horder => exact ⟨hwatermarks, horder⟩
  | duplicate => exact ⟨rfl, rfl⟩
  | accepted haccepts reason gap => cases h

/-- The guard recalls the point of one more call if it accepts it. -/
theorem recalls_step (h : Recalls g₀ g accepted) (point : MarketDataPoint) :
    Recalls g₀ (g.evaluate point).1 (accepted ++ (g.evaluate point).2.acceptedPoint.toList) := by
  obtain ⟨hretention, hallow⟩ := options_evaluate g point
  have hcases := evaluate_cases g point
  generalize g.evaluate point = evaluated at hretention hallow hcases ⊢
  cases hcases with
  | quarantined g' entry _ hwatermarks horder =>
    show Recalls g₀ g' (accepted ++ [])
    rw [List.append_nil]
    exact h.congr hwatermarks horder hretention hallow
  | duplicate =>
    show Recalls g₀ g (accepted ++ [])
    rw [List.append_nil]
    exact h
  | accepted haccepts reason gap => exact h.accept haccepts

/-- The points that are accepted, with one more. -/
theorem accepted_concat : g.accepted (points ++ [point]) =
    g.accepted points ++ ((final evaluate g points).evaluate point).2.acceptedPoint.toList := by
  unfold TemporalIntegrityGuard.accepted
  rw [Lib.outputs_concat, List.filterMap_append]
  congr 1

/-- After a run, the guard recalls the points that it has accepted in it. -/
theorem recalls_final (g : TemporalIntegrityGuard) (points : List MarketDataPoint) :
    Recalls g (final evaluate g points) (g.accepted points) := by
  induction points using List.reverseRecOn with
  | nil => exact recalls_self g
  | append_singleton points point ih =>
    rw [accepted_concat, Lib.final_concat]
    exact recalls_step ih point

/-- An event that a guard has accepted and accepts again has been followed by as many other events
as the guard remembers. -/
theorem retention_le_of_again (hrecalls : Recalls g₀ g accepted)
    (hlength : g₀.seenEventOrder.length ≤ g₀.seenEventRetention) (h : g.Accepts point)
    {before between : List MarketDataPoint} (hsplit : accepted = before ++ p :: between)
    (hagain : p.quote.eventId = point.quote.eventId) :
    (g₀.seenEventRetention : ℕ) ≤
      ((between.map fun q => q.quote.eventId).toFinset.erase point.quote.eventId).card := by
  have hunseen := h.unseen
  have hnodup := g.nodup
  rw [hrecalls.order hlength, hsplit] at hunseen hnodup
  generalize hretention : g₀.seenEventRetention = retention at hunseen hnodup ⊢
  generalize hids : between.map (fun q => q.quote.eventId) = ids
  have hlist : g₀.seenEventOrder ++ (before ++ p :: between).map (fun q => q.quote.eventId) =
      (g₀.seenEventOrder ++ before.map (fun q => q.quote.eventId) ++ [p.quote.eventId]) ++ ids := by
    rw [← hids]
    simp
  rw [hlist] at hunseen hnodup
  generalize hfront : g₀.seenEventOrder ++ before.map (fun q => q.quote.eventId) = front
    at hunseen hnodup
  -- Were the event among the last ones, it would still be remembered.
  have hlong : (retention : ℕ) ≤ ids.length := by
    by_contra hshort
    apply hunseen
    unfold trimStart
    rw [List.append_assoc, List.drop_append_of_le_length]
    · apply List.mem_append_right
      rw [← hagain]
      exact List.mem_append_left _ (List.mem_singleton_self _)
    · simp only [List.length_append, List.length_singleton]
      omega
  have htrim : trimStart (front ++ [p.quote.eventId] ++ ids) retention =
      trimStart ids retention := by
    unfold trimStart
    rw [List.length_append, Nat.add_sub_assoc hlong, List.drop_append]
    simp
  rw [htrim] at hunseen hnodup
  calc (retention : ℕ) = (trimStart ids retention).length := by
        rw [length_trimStart, min_eq_right hlong]
    _ = (trimStart ids retention).toFinset.card := (List.toFinset_card_of_nodup hnodup).symm
    _ ≤ (ids.toFinset.erase point.quote.eventId).card := by
        apply Finset.card_le_card
        intro id hid
        rw [List.mem_toFinset] at hid
        refine Finset.mem_erase.2 ⟨fun heq => hunseen (heq ▸ hid), ?_⟩
        exact List.mem_toFinset.2 (mem_of_mem_trimStart hid)

/-- The points that are accepted, the first one first. -/
theorem accepted_cons : g.accepted (point :: points) =
    (g.evaluate point).2.acceptedPoint.toList ++ (g.evaluate point).1.accepted points := by
  unfold TemporalIntegrityGuard.accepted
  rw [Lib.outputs_cons, List.filterMap_cons]
  cases (g.evaluate point).2.acceptedPoint <;> rfl

/-- The guard accepts the points of its accepting decisions. -/
theorem accepts_of_acceptedPoint (h : p ∈ (g.evaluate point).2.acceptedPoint) :
    p = point ∧ g.Accepts point := by
  have hcases := evaluate_cases g point
  generalize g.evaluate point = evaluated at h hcases
  cases hcases with
  | quarantined g' entry => cases h
  | duplicate => cases h
  | accepted haccepts reason gap => exact ⟨(Option.some.inj h).symm, haccepts⟩

/-- What is accepted is the point itself, if the guard accepts it. -/
theorem acceptedPoint_iff : (g.evaluate point).2.acceptedPoint = some point ↔ g.Accepts point := by
  constructor
  · exact fun h => (accepts_of_acceptedPoint (Option.mem_def.2 h)).2
  · intro h
    have hcases := evaluate_cases g point
    generalize g.evaluate point = evaluated at hcases ⊢
    cases hcases with
    | quarantined g' entry hnot => exact absurd h hnot
    | duplicate _ hseen => exact absurd hseen h.unseen
    | accepted => rfl

/-- The guard after a point that it accepts. -/
theorem evaluate_of_accepts (h : g.Accepts point) :
    (g.evaluate point).1 = g.accept point h.unseen := by
  have hcases := evaluate_cases g point
  generalize g.evaluate point = evaluated at hcases ⊢
  cases hcases with
  | quarantined g' entry hnot => exact absurd h hnot
  | duplicate _ hseen => exact absurd hseen h.unseen
  | accepted => rfl

/-- A point that the guard does not accept leaves the watermarks and the seen events as they are. -/
theorem evaluate_of_not_accepts (h : ¬g.Accepts point) :
    (g.evaluate point).1.watermarks = g.watermarks ∧
      (g.evaluate point).1.seenEventOrder = g.seenEventOrder := by
  apply evaluate_of_not_accepted
  cases hdecision : (g.evaluate point).2.acceptedPoint with
  | none => rfl
  | some p => exact absurd (accepts_of_acceptedPoint (Option.mem_def.2 hdecision)).2 h

/-- A point that is accepted is one of the points, and the guard accepts it after those before
it. -/
theorem exists_of_accepted {front after : List MarketDataPoint}
    (h : g.accepted points = front ++ p :: after) :
    ∃ before rest, points = before ++ p :: rest ∧ g.accepted before = front ∧
      (final evaluate g before).Accepts p := by
  induction points generalizing g front with
  | nil => exact absurd h (by simp [TemporalIntegrityGuard.accepted])
  | cons point points ih =>
    rw [accepted_cons] at h
    cases hdecision : (g.evaluate point).2.acceptedPoint with
    -- The first point is rejected, and comes before `p` all the same.
    | none =>
      rw [hdecision, Option.toList_none, List.nil_append] at h
      obtain ⟨before, rest, hsplit, haccepted, haccepts⟩ := ih h
      refine ⟨point :: before, rest, by rw [hsplit, List.cons_append], ?_, haccepts⟩
      rw [accepted_cons, hdecision, haccepted]
      rfl
    | some x =>
      obtain ⟨rfl, haccepts⟩ := accepts_of_acceptedPoint (Option.mem_def.2 hdecision)
      rw [hdecision, Option.toList_some, List.singleton_append] at h
      cases front with
      | nil =>
        obtain ⟨rfl, -⟩ := List.cons.inj h
        exact ⟨[], points, rfl, rfl, haccepts⟩
      | cons y front =>
        obtain ⟨rfl, htail⟩ := List.cons.inj h
        obtain ⟨before, rest, hsplit, haccepted, hrest⟩ := ih htail
        refine ⟨x :: before, rest, by rw [hsplit, List.cons_append], ?_, hrest⟩
        rw [accepted_cons, hdecision, haccepted]
        rfl

/-- A point that is accepted is one of the points. -/
theorem mem_of_mem_accepted (h : p ∈ g.accepted points) : p ∈ points := by
  obtain ⟨front, after, hsplit⟩ := List.append_of_mem h
  obtain ⟨before, rest, hpoints, -, -⟩ := exists_of_accepted hsplit
  rw [hpoints]
  exact List.mem_append_right _ List.mem_cons_self

/-- The sequence of a point does not regress if it may be reset, or is larger than the last one. -/
theorem regresses_eq_false_iff : g.regresses point w = false ↔
    g.canResetSequence point w = true ∨
      ∀ last ∈ w.sequence, ∀ n ∈ point.quote.sequence, last < n := by
  unfold regresses
  cases g.canResetSequence point w with
  | true => simp
  | false => cases w.sequence <;> cases point.quote.sequence <;> simp

/-- A gap is reported for a sequence that is more than one after the last one of the stream. -/
theorem sequenceGap_eq {reason : IntegrityAcceptedReason} {gap : ℕ}
    (h : (g.evaluate point).2 = .accepted reason point (some gap)) :
    ∃ last n, g.lastSequence (streamKey point) = some last ∧ point.quote.sequence = some n ∧
      gap = (Finset.Ioo last n).card := by
  have hgap : (g.acceptance point (g.watermarkOf point)).2 = some gap := by
    unfold evaluate quarantine at h
    dsimp only at h
    split_ifs at h
    exact (IntegrityDecision.accepted.inj h).2.2
  rw [lastSequence_eq]
  unfold acceptance at hgap
  cases hseq : (g.watermarkOf point).sequence with
  | none =>
    rw [hseq] at hgap
    split_ifs at hgap
  | some last =>
    cases hn : point.quote.sequence with
    | none =>
      rw [hseq, hn] at hgap
      split_ifs at hgap
    | some n =>
      rw [hseq, hn] at hgap
      dsimp only at hgap
      split_ifs at hgap
      refine ⟨last, n, rfl, rfl, ?_⟩
      rw [Nat.card_Ioo]
      exact (Option.some.inj hgap).symm

end TemporalIntegrityGuard

namespace GuardState

open TemporalIntegrityGuard (Precedes sequencesOf recalls_final)

variable {g : GuardState} {points : List MarketDataPoint} {point : MarketDataPoint}

/-- The points that a guard accepts of those that come one after the other. -/
def accepted (g : GuardState) (points : List MarketDataPoint) : List MarketDataPoint :=
  (outputs evaluate g points).filterMap IntegrityDecision.acceptedPoint

/-- A run of a guard state is one of the guard that it stands for. -/
theorem final_toGuard (h : g.seen.Consistent) (points : List MarketDataPoint) :
    ∃ h' : (final evaluate g points).seen.Consistent,
      (final evaluate g points).toGuard h' =
          final TemporalIntegrityGuard.evaluate (g.toGuard h) points ∧
        g.accepted points = (g.toGuard h).accepted points := by
  have hstep (f : GuardState) (t : TemporalIntegrityGuard) (point : MarketDataPoint)
      (hr : ∃ hf : f.seen.Consistent, f.toGuard hf = t) :
      (f.evaluate point).2 = (t.evaluate point).2 ∧
        ∃ hf : (f.evaluate point).1.seen.Consistent,
          (f.evaluate point).1.toGuard hf = (t.evaluate point).1 := by
    obtain ⟨hf, rfl⟩ := hr
    obtain ⟨hf', hstate, houtput⟩ := evaluate_toGuard hf point
    exact ⟨houtput, hf', hstate⟩
  obtain ⟨houtputs, h', hfinal⟩ :=
    Lib.outputs_eq (fun (f : GuardState) t => ∃ hf : f.seen.Consistent, f.toGuard hf = t) hstep
      points ⟨h, rfl⟩
  refine ⟨h', hfinal, ?_⟩
  unfold accepted TemporalIntegrityGuard.accepted
  rw [houtputs]

/-- A decision that does not accept the point leaves the watermarks and both containers as they
are. -/
theorem evaluate_of_not_accepted (h : (g.evaluate point).2.acceptedPoint = none) :
    (g.evaluate point).1.watermarks = g.watermarks ∧ (g.evaluate point).1.seen = g.seen := by
  unfold evaluate quarantine at h ⊢
  dsimp only at h ⊢
  split_ifs at h ⊢
  · exact ⟨rfl, rfl⟩
  · exact ⟨rfl, rfl⟩
  · exact ⟨rfl, rfl⟩
  · exact ⟨rfl, rfl⟩
  · cases h

/-- After any run of a new guard: in each stream the accepted points go forward, no event has been
accepted twice among as many others as the guard remembers, the two containers hold the same events,
and what the guard decides next reports the exact gap, and changes nothing if it does not accept. -/
theorem run_invariants (seenEventRetention quarantineRetention : ℕ+) (allowReset : Bool)
    (points : List MarketDataPoint) :
    let start := new seenEventRetention quarantineRetention allowReset
    let g := final evaluate start points
    let accepted := start.accepted points
    accepted.Pairwise (Precedes allowReset) ∧
      (∀ before p between q after, accepted = before ++ p :: between ++ q :: after →
        p.quote.eventId = q.quote.eventId →
        (seenEventRetention : ℕ) ≤
          ((between.map fun r => r.quote.eventId).toFinset.erase q.quote.eventId).card) ∧
      g.seen.seenEventIds = g.seen.seenEventOrder.toFinset ∧ g.seen.seenEventOrder.Nodup ∧
      g.seen.seenEventOrder.length ≤ seenEventRetention ∧
      ∀ point,
        (∀ reason gap, (g.evaluate point).2 = .accepted reason point (some gap) →
          ∃ last n, (sequencesOf (streamKey point) accepted).getLast? = some last ∧
            point.quote.sequence = some n ∧ gap = (Finset.Ioo last n).card) ∧
        ((g.evaluate point).2.acceptedPoint = none →
          (g.evaluate point).1.watermarks = g.watermarks ∧ (g.evaluate point).1.seen = g.seen) := by
  intro start g accepted
  have hstart := consistent_new seenEventRetention quarantineRetention allowReset
  -- The guard of the code is followed by the one without quarantine, point by point.
  obtain ⟨h, hfinal, haccepted⟩ := final_toGuard hstart points
  have hrecalls := recalls_final (start.toGuard hstart) points
  rw [← hfinal, ← haccepted] at hrecalls
  refine ⟨hrecalls.precedes, fun before p between q after hsplit hagain => ?_, h.ids, h.nodup, ?_,
    fun point => ⟨fun reason gap hgap => ?_, evaluate_of_not_accepted⟩⟩
  · -- An event is accepted again only after it has been forgotten.
    obtain ⟨earlier, rest, -, hearlier, haccepts⟩ :=
      TemporalIntegrityGuard.exists_of_accepted (haccepted.symm.trans hsplit)
    have hthen := recalls_final (start.toGuard hstart) earlier
    rw [hearlier] at hthen
    exact TemporalIntegrityGuard.retention_le_of_again hthen (Nat.zero_le _) haccepts rfl hagain
  · have hlength := congrArg List.length (hrecalls.order (Nat.zero_le _))
    rw [length_trimStart] at hlength
    exact hlength.le.trans (min_le_right _ _)
  · obtain ⟨h', hstate, hdecision⟩ := evaluate_toGuard h point
    -- The gap is told from the last sequence, which is that of the accepted points.
    obtain ⟨last, n, hlast, hn, hcard⟩ := TemporalIntegrityGuard.sequenceGap_eq (hdecision ▸ hgap)
    refine ⟨last, n, ?_, hn, hcard⟩
    rw [hrecalls.sequence] at hlast
    have hnone : (start.toGuard hstart).lastSequence (streamKey point) = none := rfl
    rw [hnone, Option.or_none] at hlast
    exact hlast

end GuardState

namespace TemporalIntegrityGuard

/-- `new TemporalIntegrityGuard(options)`. -/
def new (seenEventRetention quarantineRetention : ℕ+) (allowSequenceResetOnGeneration : Bool) :
    TemporalIntegrityGuard :=
  (GuardState.new seenEventRetention quarantineRetention allowSequenceResetOnGeneration).toGuard
    (GuardState.consistent_new _ _ _)

/-- A point of a stream, by its event, its time, its generation, and its sequence. -/
def streamPoint (provider symbol eventId : String) (providerTimestampMs : ℤ) (generation : ℕ)
    (sequence : Option ℕ) : MarketDataPoint where
  quote :=
    { schemaVersion := MarketData.js "1.0"
      eventId := MarketData.js eventId
      symbol := MarketData.js symbol
      price := 1
      bid := none
      ask := none
      providerTimestampMs := providerTimestampMs
      receivedAtMs := providerTimestampMs
      sequence := sequence
      provider := MarketData.js provider
      lastSize := none
      cumulativeVolume := none
      tradeCount := none }
  origin := .live
  generation := generation
  stale := false
  ageMs := 0
  requestId := none

end TemporalIntegrityGuard

end MarketDataGateway.Engine

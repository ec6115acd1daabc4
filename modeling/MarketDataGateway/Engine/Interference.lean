import MarketDataGateway.Engine.GuardRuns
import MarketDataGateway.Lib.Joins

/-!
# Streams that interfere

The guard keeps the watermark of a provider and a symbol under `provider:symbol`, and both may have
colons. Two pairs have one key if the provider of one is that of the other with a part of the
other's symbol (`keyOf_eq_iff`). Where no such pairs come together, what the guard decides on the
points of a pair does not depend on the points of the others (`independent_iff`).
-/

namespace MarketDataGateway.Engine

open Lib (InsertionMap final outputs outputsOf)
open MarketData (JsString MarketDataPoint CodeUnit js isSymbol)

/-- `outcome` and `reason`. -/
inductive Verdict
  | accepted (reason : IntegrityAcceptedReason)
  | duplicate
  | quarantined (reason : QuarantineReason)
  deriving DecidableEq

/-- The `outcome` and the `reason` of a decision. -/
def IntegrityDecision.verdict : IntegrityDecision → Verdict
  | .accepted reason _ _ => .accepted reason
  | .duplicate _ => .duplicate
  | .quarantined entry => .quarantined entry.reason

/-- A provider and a symbol. -/
abbrev StreamPair := JsString × JsString

/-- The provider and the symbol of a point. -/
def pairOf (point : MarketDataPoint) : StreamPair := (point.quote.provider, point.quote.symbol)

/-- The colon. -/
abbrev colonUnit : CodeUnit := 0x3A

/-- The key of a pair. -/
def keyOf (pair : StreamPair) : JsString := pair.1 ++ colonUnit :: pair.2

/-- The key of a point is that of its pair. -/
theorem streamKey_eq (point : MarketDataPoint) : streamKey point = keyOf (pairOf point) := by
  show point.quote.provider ++ js ":" ++ point.quote.symbol = _
  rw [show js ":" = [colonUnit] by decide, List.append_assoc, List.singleton_append]
  rfl

/-- The wire schema lets the pair through. -/
def Legal (pair : StreamPair) : Prop :=
  1 ≤ pair.1.length ∧ pair.1.length ≤ 64 ∧ isSymbol pair.2 = true

instance (pair : StreamPair) : Decidable (Legal pair) := inferInstanceAs (Decidable (_ ∧ _ ∧ _))

/-- The provider of `a` is that of `b` with a colon and a text `r`, with which the symbol of `b`
begins. -/
def Extends (a b : StreamPair) : Prop :=
  ∃ r, a.1 = b.1 ++ colonUnit :: r ∧ b.2 = r ++ colonUnit :: a.2

/-- Two pairs have one key if they are equal, or the provider of one is that of the other with a
part of its symbol. -/
theorem keyOf_eq_iff {a b : StreamPair} :
    keyOf a = keyOf b ↔ a = b ∨ Extends a b ∨ Extends b a := by
  unfold keyOf Extends
  rw [Lib.append_cons_eq_iff, Prod.ext_iff]

/-- A pair that extends another one is another pair. -/
theorem Extends.ne {a b : StreamPair} (h : Extends a b) : a ≠ b := by
  rintro rfl
  obtain ⟨r, hlong, -⟩ := h
  have hlength := congrArg List.length hlong
  rw [List.length_append, List.length_cons] at hlength
  omega

namespace TemporalIntegrityGuard

/-- The verdicts on the points of a pair. -/
def verdictsOf (g : TemporalIntegrityGuard) (pair : StreamPair) (points : List MarketDataPoint) :
    List Verdict :=
  (outputsOf evaluate (fun p => pairOf p = pair) g points).map IntegrityDecision.verdict

/-- Points of a pair among points of others, which have other events, and not as many of all of them
are accepted as the guard remembers. -/
structure Among (g : TemporalIntegrityGuard) (pair : StreamPair) (others : StreamPair → Prop)
    (points : List MarketDataPoint) : Prop where
  others : ∀ q ∈ points, pairOf q = pair ∨ others (pairOf q)
  events : ∀ q ∈ points, pairOf q ≠ pair → ∀ p ∈ points, pairOf p = pair →
    q.quote.eventId ≠ p.quote.eventId
  few : (g.accepted points).length < g.seenEventRetention

/-- The guards decide the same on the points of the pair that have one of the ids. -/
structure Alike (key : JsString) (ids : List JsString) (g g' : TemporalIntegrityGuard) : Prop where
  watermark : g.watermarks.get key = g'.watermarks.get key
  seen : ∀ id ∈ ids, id ∈ g.seenEventOrder ↔ id ∈ g'.seenEventOrder
  allow : g.allowSequenceResetOnGeneration = g'.allowSequenceResetOnGeneration

variable {g g' : TemporalIntegrityGuard} {point : MarketDataPoint} {points : List MarketDataPoint}
  {pair : StreamPair} {others : StreamPair → Prop} {ids : List JsString} {key : JsString}

/-- While not as many have been accepted as the guard remembers, it remembers them all. -/
theorem seenEventOrder_accept (h : g.Accepts point)
    (hfew : (g.accept point h.unseen).seenEventOrder.length < g.seenEventRetention) :
    (g.accept point h.unseen).seenEventOrder = g.seenEventOrder ++ [point.quote.eventId] := by
  have horder : (g.accept point h.unseen).seenEventOrder =
      trimStart (g.seenEventOrder ++ [point.quote.eventId]) g.seenEventRetention := rfl
  rw [horder, length_trimStart] at hfew
  rw [horder]
  apply trimStart_eq
  omega

/-- Guards that are alike accept the same points. -/
theorem Alike.accepts_iff (h : Alike (streamKey point) ids g g') (hid : point.quote.eventId ∈ ids) :
    g.Accepts point ↔ g'.Accepts point := by
  have hmark : g.watermarkOf point = g'.watermarkOf point := by
    unfold watermarkOf
    rw [h.watermark]
  have hregress : g.regresses point (g.watermarkOf point) =
      g'.regresses point (g'.watermarkOf point) := by
    unfold regresses canResetSequence
    rw [hmark, h.allow]
  have hseen := h.seen _ hid
  constructor
  · intro ha
    exact ⟨hmark ▸ ha.generation, mt hseen.2 ha.unseen, hmark ▸ ha.timestamp,
      hregress ▸ ha.sequence⟩
  · intro ha
    exact ⟨hmark ▸ ha.generation, mt hseen.1 ha.unseen, hmark ▸ ha.timestamp,
      hregress ▸ ha.sequence⟩

/-- Guards that are alike decide the same. -/
theorem Alike.verdict_eq (h : Alike (streamKey point) ids g g') (hid : point.quote.eventId ∈ ids) :
    (g.evaluate point).2 = (g'.evaluate point).2 := by
  have hmark : g.watermarkOf point = g'.watermarkOf point := by
    unfold watermarkOf
    rw [h.watermark]
  have hacceptance (w : StreamWatermark) : g.acceptance point w = g'.acceptance point w := by
    unfold acceptance canResetSequence
    rw [h.allow]
  have hregress (w : StreamWatermark) : g.regresses point w = g'.regresses point w := by
    unfold regresses canResetSequence
    rw [h.allow]
  have hseen := h.seen _ hid
  unfold evaluate quarantine
  dsimp only
  rw [hmark, hregress, hacceptance]
  generalize g'.watermarkOf point = w
  rcases lt_or_ge point.generation w.generation with hgeneration | hgeneration
  · rw [if_pos hgeneration, if_pos hgeneration]
  rw [if_neg (not_lt.2 hgeneration), if_neg (not_lt.2 hgeneration)]
  rcases Decidable.em (point.quote.eventId ∈ g.seenEventOrder) with hmem | hmem
  · rw [dif_pos hmem, dif_pos (hseen.1 hmem)]
  rw [dif_neg hmem, dif_neg (mt hseen.2 hmem)]
  split_ifs <;> rfl

/-- Guards that are alike are alike after a point of the stream, as long as they forget nothing. -/
theorem Alike.evaluate (h : Alike (streamKey point) ids g g') (hid : point.quote.eventId ∈ ids)
    (hfew : (g.evaluate point).1.seenEventOrder.length < g.seenEventRetention)
    (hfew' : (g'.evaluate point).1.seenEventOrder.length < g'.seenEventRetention) :
    Alike (streamKey point) ids (g.evaluate point).1 (g'.evaluate point).1 := by
  have haccepts := h.accepts_iff hid
  have hallow : (g.evaluate point).1.allowSequenceResetOnGeneration =
      (g'.evaluate point).1.allowSequenceResetOnGeneration := by
    rw [(options_evaluate g point).2, (options_evaluate g' point).2, h.allow]
  rcases Decidable.em (g.Accepts point) with ha | ha
  · have ha' := haccepts.1 ha
    rw [evaluate_of_accepts ha] at hfew hallow ⊢
    rw [evaluate_of_accepts ha'] at hfew' hallow ⊢
    have hmark : g.watermarkOf point = g'.watermarkOf point := by
      unfold watermarkOf
      rw [h.watermark]
    refine ⟨?_, fun id hmem => ?_, hallow⟩
    · rw [watermarks_accept ha, watermarks_accept ha', InsertionMap.get_set_self,
        InsertionMap.get_set_self, hmark]
    · rw [seenEventOrder_accept ha hfew, seenEventOrder_accept ha' hfew', List.mem_append,
        List.mem_append, h.seen id hmem]
  · obtain ⟨hmarks, horder⟩ := evaluate_of_not_accepts ha
    obtain ⟨hmarks', horder'⟩ := evaluate_of_not_accepts (mt haccepts.2 ha)
    refine ⟨?_, fun id hmem => ?_, hallow⟩
    · rw [hmarks, hmarks', h.watermark]
    · rw [horder, horder', h.seen id hmem]

/-- A point of another stream with another event leaves a guard alike. -/
theorem Alike.evaluate_other (h : Alike key ids g g') (hkey : streamKey point ≠ key)
    (hid : point.quote.eventId ∉ ids)
    (hfew : (g.evaluate point).1.seenEventOrder.length < g.seenEventRetention) :
    Alike key ids (g.evaluate point).1 g' := by
  have hallow := (options_evaluate g point).2.trans h.allow
  rcases Decidable.em (g.Accepts point) with ha | ha
  · rw [evaluate_of_accepts ha] at hfew hallow ⊢
    refine ⟨?_, fun id hmem => ?_, hallow⟩
    · rw [watermarks_accept ha, InsertionMap.get_set_ne hkey.symm, h.watermark]
    · have hne : id ∉ [point.quote.eventId] := fun hsingle =>
        hid (List.mem_singleton.1 hsingle ▸ hmem)
      rw [seenEventOrder_accept ha hfew, List.mem_append, h.seen id hmem, or_iff_left hne]
  · obtain ⟨hmarks, horder⟩ := evaluate_of_not_accepts ha
    exact ⟨hmarks ▸ h.watermark, horder ▸ h.seen, hallow⟩

/-- The guard has forgotten nothing yet. -/
def HasRoom (g : TemporalIntegrityGuard) : Prop := g.seenEventOrder.length < g.seenEventRetention

/-- An accepted point is one more event in the order, up to the retention. -/
theorem length_evaluate : (g.evaluate point).1.seenEventOrder.length =
    if g.Accepts point then min (g.seenEventOrder.length + 1) g.seenEventRetention
    else g.seenEventOrder.length := by
  split_ifs with ha
  · rw [evaluate_of_accepts ha]
    show (trimStart (g.seenEventOrder ++ [point.quote.eventId]) g.seenEventRetention).length = _
    rw [length_trimStart, List.length_append, List.length_singleton]
  · rw [(evaluate_of_not_accepts ha).2]

/-- There was room before if there is room after a point. -/
theorem hasRoom_of_evaluate (h : (g.evaluate point).1.HasRoom) : g.HasRoom := by
  unfold HasRoom at h ⊢
  rw [(options_evaluate g point).1, length_evaluate] at h
  split_ifs at h <;> omega

/-- The guard that has not seen the points of the other pairs is alike, and has not seen more. -/
structure Spared (key : JsString) (ids : List JsString) (g g' : TemporalIntegrityGuard) : Prop where
  alike : Alike key ids g g'
  retention : g'.seenEventRetention = g.seenEventRetention
  length : g'.seenEventOrder.length ≤ g.seenEventOrder.length

/-- A spared guard decides as the other one does, and stays spared. -/
theorem Spared.evaluate (h : Spared (streamKey point) ids g g') (hid : point.quote.eventId ∈ ids)
    (hroom : (g.evaluate point).1.HasRoom) :
    (g.evaluate point).2 = (g'.evaluate point).2 ∧
      Spared (streamKey point) ids (g.evaluate point).1 (g'.evaluate point).1 := by
  have hretention : (g'.evaluate point).1.seenEventRetention =
      (g.evaluate point).1.seenEventRetention := by
    rw [(options_evaluate g point).1, (options_evaluate g' point).1, h.retention]
  have hlength : (g'.evaluate point).1.seenEventOrder.length ≤
      (g.evaluate point).1.seenEventOrder.length := by
    have haccepts := h.alike.accepts_iff hid
    have hle := h.length
    rw [length_evaluate, length_evaluate, h.retention]
    split_ifs with ha' ha ha
    · omega
    · exact absurd (haccepts.2 ha') ha
    · exact absurd (haccepts.1 ha) ha'
    · exact hle
  unfold HasRoom at hroom
  rw [(options_evaluate g point).1] at hroom
  exact ⟨h.alike.verdict_eq hid,
    h.alike.evaluate hid hroom (h.retention ▸ hlength.trans_lt hroom), hretention, hlength⟩

/-- A spared guard stays spared when a point of another key comes. -/
theorem Spared.evaluate_other (h : Spared key ids g g') (hkey : streamKey point ≠ key)
    (hid : point.quote.eventId ∉ ids) (hroom : (g.evaluate point).1.HasRoom) :
    Spared key ids (g.evaluate point).1 g' := by
  have hretention := (options_evaluate g point).1
  have hle := h.length
  have hlength : g'.seenEventOrder.length ≤ (g.evaluate point).1.seenEventOrder.length := by
    have hbefore := hasRoom_of_evaluate hroom
    unfold HasRoom at hbefore
    rw [length_evaluate]
    split_ifs <;> omega
  unfold HasRoom at hroom
  rw [hretention] at hroom
  exact ⟨h.alike.evaluate_other hkey hid hroom, h.retention.trans hretention.symm, hlength⟩

/-- What a guard decides on the points of a pair is what it decides without the points of pairs with
other keys. -/
theorem verdictsOf_eq (h : Among g pair others points) (hnew : g.seenEventOrder = [])
    (hkeys : ∀ q, others q → q ≠ pair → keyOf q ≠ keyOf pair) :
    g.verdictsOf pair points =
      (outputs evaluate g (points.filter fun p => pairOf p = pair)).map
      IntegrityDecision.verdict := by
  let ids := (points.filter fun p => pairOf p = pair).map fun p => p.quote.eventId
  have hmem {p : MarketDataPoint} (hp : p ∈ points) (hpair : pairOf p = pair) :
      p.quote.eventId ∈ ids :=
    List.mem_map_of_mem (List.mem_filter.2 ⟨hp, decide_eq_true hpair⟩)
  have hnot {q : MarketDataPoint} (hq : q ∈ points) (hpair : pairOf q ≠ pair) :
      q.quote.eventId ∉ ids := by
    intro hid
    obtain ⟨p, hp, heq⟩ := List.mem_map.1 hid
    obtain ⟨hp, hpair'⟩ := List.mem_filter.1 hp
    exact h.events q hq hpair p hp (of_decide_eq_true hpair') heq.symm
  -- The events are so few that none is forgotten.
  have hroom : HasRoom (final evaluate g points) := by
    have hrecalls := recalls_final g points
    have hempty : g.seenEventOrder.length ≤ g.seenEventRetention := by
      rw [hnew]
      exact Nat.zero_le _
    have hfew := h.few
    unfold HasRoom
    rw [hrecalls.order hempty, hrecalls.retention, length_trimStart, hnew, List.nil_append,
      List.length_map]
    omega
  -- The two runs agree on the stream of the pair, point by point.
  unfold verdictsOf
  congr 1
  apply Lib.outputsOf_eq (Spared (keyOf pair) ids) HasRoom
  · exact fun s p => hasRoom_of_evaluate
  · intro s t p hkind hp hs hr
    have hpair : pairOf p = pair := of_decide_eq_true hkind
    have hkey : streamKey p = keyOf pair := hpair ▸ streamKey_eq p
    have hid : p.quote.eventId ∈ ids := hmem hp hpair
    rw [← hkey] at hr ⊢
    exact hr.evaluate hid hs
  · intro s t q hkind hq hs hr
    have hpair : pairOf q ≠ pair := of_decide_eq_false hkind
    -- A point of another pair leaves the stream of this one alone.
    have hkey : streamKey q ≠ keyOf pair := by
      rw [streamKey_eq]
      exact hkeys _ ((h.others q hq).resolve_left hpair) hpair
    exact hr.evaluate_other hkey (hnot hq hpair) hs
  · exact hroom
  · exact ⟨⟨rfl, fun _ _ => Iff.rfl, rfl⟩, rfl, le_rfl⟩

/-- A point of a pair. -/
def pairPoint (pair : StreamPair) (eventId : JsString)
    (providerTimestampMs : ℤ) : MarketDataPoint :=
  let point := streamPoint "" "" "" providerTimestampMs 1 none
  { point with
    quote := { point.quote with provider := pair.1, symbol := pair.2, eventId := eventId } }

/-- A new guard accepts any point. -/
theorem accepts_new {seenEventRetention quarantineRetention : ℕ+} {allow : Bool} :
    (new seenEventRetention quarantineRetention allow).Accepts point := by
  refine ⟨le_rfl, List.not_mem_nil, rfl, regresses_eq_false_iff.2 (Or.inr fun last hlast => ?_)⟩
  cases hlast

/-- The verdicts of accepting decisions are on the points that the guard accepts. -/
theorem accepted_verdict_iff :
    (∃ reason, (g.evaluate point).2.verdict = .accepted reason) ↔ g.Accepts point := by
  have hcases := evaluate_cases g point
  generalize g.evaluate point = evaluated at hcases ⊢
  cases hcases with
  | quarantined g' entry hnot => exact iff_of_false (fun ⟨_, h⟩ => nomatch h) hnot
  | duplicate _ hseen => exact iff_of_false (fun ⟨_, h⟩ => nomatch h) fun h => h.unseen hseen
  | accepted haccepts reason gap => exact iff_of_true ⟨reason, rfl⟩ haccepts

/-- What a guard decides on the points of a pair does not depend on the others, if and only if none
of these has the same key, or the guard remembers one event only, so that not even one may be
accepted. -/
theorem independent_iff (seenEventRetention quarantineRetention : ℕ+) (allow : Bool)
    (pair : StreamPair) (others : StreamPair → Prop) :
    (∀ points points',
        Among (new seenEventRetention quarantineRetention allow) pair others points →
        Among (new seenEventRetention quarantineRetention allow) pair others points' →
        (points.filter fun p => pairOf p = pair) = points'.filter (fun p => pairOf p = pair) →
        (new seenEventRetention quarantineRetention allow).verdictsOf pair points =
          (new seenEventRetention quarantineRetention allow).verdictsOf pair points') ↔
      seenEventRetention = 1 ∨ ∀ q, others q → ¬Extends q pair ∧ ¬Extends pair q := by
  generalize hg : new seenEventRetention quarantineRetention allow = g
  have hnew : g.seenEventOrder = [] := hg ▸ rfl
  have haccepts (p : MarketDataPoint) : g.Accepts p := hg ▸ accepts_new
  have hretention : g.seenEventRetention = seenEventRetention := hg ▸ rfl
  constructor
  · intro h
    by_contra hcontra
    obtain ⟨hmany, hclash⟩ := not_or.1 hcontra
    have htwo : 2 ≤ (seenEventRetention : ℕ) := by
      have hpos := seenEventRetention.pos
      have hone : (seenEventRetention : ℕ) ≠ 1 := fun heq => hmany (PNat.eq heq)
      omega
    push Not at hclash
    obtain ⟨other, hother, hextends⟩ := hclash
    have hextends' : Extends other pair ∨ Extends pair other :=
      or_iff_not_imp_left.2 hextends
    have hkey : keyOf other = keyOf pair := keyOf_eq_iff.2 (Or.inr hextends')
    have hne : other ≠ pair := hextends'.elim Extends.ne fun h => h.ne.symm
    -- A point of the other pair takes the watermark of the key past the point of this one.
    let q := pairPoint other (js "1") 1
    let p := pairPoint pair (js "2") 0
    have hq : pairOf q = other := rfl
    have hp : pairOf p = pair := rfl
    have hlast : (g.evaluate q).1.lastTimestamp (streamKey p) = some 1 := by
      rw [evaluate_of_accepts (haccepts q), streamKey_eq p, hp, ← hkey, ← hq, ← streamKey_eq q]
      exact lastTimestamp_accept (haccepts q)
    have hrefused : ¬(g.evaluate q).1.Accepts p := by
      intro ha
      have hle : (1 : ℤ) ≤ 0 := ha.le (lastTimestamp_eq.symm.trans hlast)
      omega
    have hone : g.accepted [p] = [p] := by
      rw [accepted_cons, acceptedPoint_iff.2 (haccepts p)]
      rfl
    have htwo' : g.accepted [q, p] = [q] := by
      have hnone : ((g.evaluate q).1.evaluate p).2.acceptedPoint = none := by
        cases hdecision : ((g.evaluate q).1.evaluate p).2.acceptedPoint with
        | none => rfl
        | some x => exact absurd (accepts_of_acceptedPoint (Option.mem_def.2 hdecision)).2 hrefused
      rw [accepted_cons, accepted_cons, acceptedPoint_iff.2 (haccepts q), hnone]
      rfl
    -- The point of this pair is accepted by itself, and not after the other one.
    have halone : Among g pair others [p] := by
      refine ⟨fun x hx => Or.inl (List.mem_singleton.1 hx ▸ hp),
        fun x hx hx' => absurd (List.mem_singleton.1 hx ▸ hp) hx', ?_⟩
      rw [hone, hretention]
      exact htwo
    have hboth : Among g pair others [q, p] := by
      refine ⟨fun x hx => ?_, fun x hx hx' y hy hy' => ?_, ?_⟩
      · rcases List.mem_pair.1 hx with rfl | rfl
        · exact Or.inr hother
        · exact Or.inl hp
      · rcases List.mem_pair.1 hx with rfl | rfl
        · rcases List.mem_pair.1 hy with rfl | rfl
          · exact absurd hy' hx'
          · exact (by decide : js "1" ≠ js "2")
        · exact absurd hp hx'
      · rw [htwo', hretention]
        exact htwo
    have hfilter : ([q, p].filter fun p => pairOf p = pair) =
        [p].filter (fun p => pairOf p = pair) := by
      rw [List.filter_cons, if_neg (by simpa [hq] using hne)]
    -- So the verdicts on the pair's own points differ.
    have hverdicts := h [q, p] [p] hboth halone hfilter
    unfold verdictsOf at hverdicts
    rw [outputsOf, outputsOf, outputsOf, if_neg (by simpa [hq] using hne), if_pos (by simp [hp]),
      outputsOf, if_pos (by simp [hp]), outputsOf, List.map_singleton, List.map_singleton,
      List.singleton_inj] at hverdicts
    obtain ⟨reason, hreason⟩ := accepted_verdict_iff.2 (haccepts p)
    exact hrefused (accepted_verdict_iff.1 ⟨reason, hverdicts.trans hreason⟩)
  · intro h points points' hamong hamong' hsame
    -- With a retention of one no run is among those, and else no other pair has the key.
    rcases h with hone | hkeys
    · have hnil {points : List MarketDataPoint} (hamong : Among g pair others points) :
          points = [] := by
        have hfew := hamong.few
        rw [hretention, hone] at hfew
        cases points with
        | nil => rfl
        | cons p points =>
          rw [accepted_cons, acceptedPoint_iff.2 (haccepts p)] at hfew
          simp at hfew
      rw [hnil hamong, hnil hamong']
    · have hne : ∀ q, others q → q ≠ pair → keyOf q ≠ keyOf pair := by
        intro q hq hqp heq
        rcases keyOf_eq_iff.1 heq with hpair | hextends | hextends
        · exact hqp hpair
        · exact (hkeys q hq).1 hextends
        · exact (hkeys q hq).2 hextends
      rw [verdictsOf_eq hamong hnew hne, verdictsOf_eq hamong' hnew hne, hsame]

/-- The provider `x:A` of the symbol `B` takes the watermark of the provider `x` of `A:B`. -/
theorem interferes :
    ¬∀ (seenEventRetention quarantineRetention : ℕ+) (allow : Bool) (pair : StreamPair)
      (others : StreamPair → Prop), Legal pair → (∀ q, others q → Legal q ∧ q ≠ pair) →
      ∀ points points',
        Among (new seenEventRetention quarantineRetention allow) pair others points →
        Among (new seenEventRetention quarantineRetention allow) pair others points' →
        (points.filter fun p => pairOf p = pair) = points'.filter (fun p => pairOf p = pair) →
        (new seenEventRetention quarantineRetention allow).verdictsOf pair points =
          (new seenEventRetention quarantineRetention allow).verdictsOf pair points' := by
  intro h
  have hverdicts := h 10 10 true (js "x", js "A:B") (· = (js "x:A", js "B")) (by decide)
    (fun q hq => hq ▸ by decide) [streamPoint "x:A" "B" "1" 2 1 none,
    streamPoint "x" "A:B" "2" 1 1 none]
    [streamPoint "x" "A:B" "2" 1 1 none] ⟨by decide, by decide, by decide⟩
    ⟨by decide, by decide, by decide⟩ (by decide)
  exact absurd hverdicts (by decide)

end TemporalIntegrityGuard

end MarketDataGateway.Engine

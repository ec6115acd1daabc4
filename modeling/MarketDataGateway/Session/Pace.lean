import MarketDataGateway.Lib.Transition
import MarketDataGateway.Session.Due

/-!
# The pace of a session

`send_loop` of `app.py`, which takes quotes from the buffer of a session by `get_due` and notes when
in `last_sent`. Quotes may be put, symbols subscribed to and given up, and the clock may advance
between any two steps of the loop, also between its taking a quote and its noting the time. A
wake-up of `get_due` for whatever reason is a `pass`.

The buffer is closed by `hub.remove` only, which `market_stream` calls after it has cancelled
`send_loop` and awaited its end. While `get_due` waits the buffer is open (`Paced.opened`).
-/

namespace MarketDataGateway.Session

open Lib

/-- Where `send_loop` is. -/
inductive SendStage
  /-- In `get_due`. -/
  | waiting
  /-- `get_due` has returned. -/
  | taken (q : Quote)
  /-- The time has been noted. -/
  | sending (q : Quote)
  /-- The loop has ended. -/
  | ended

/-- A session and its `send_loop`. -/
structure Pacing (T : Type*) where
  /-- `loop.time()` and `time.monotonic()`. -/
  clock : T
  /-- `session.subscriptions`. -/
  subscriptions : Finset Symbol
  /-- `session.buffer`. -/
  buffer : LatestValueBuffer
  /-- `session.last_sent`. -/
  lastSent : Symbol → Option T
  /-- `send_loop`. -/
  stage : SendStage
  /-- The symbols of the quotes that have been taken and when, the last first. -/
  takes : List (Symbol × T)

/-- A step of the session. -/
inductive PacingAction (T : Type*)
  /-- The clock advances. -/
  | tick (now : T)
  /-- `publish` puts a quote. -/
  | put (q : Quote)
  /-- `hub.subscribe`. -/
  | subscribe (symbols : Finset Symbol)
  /-- `hub.unsubscribe`. -/
  | unsubscribe (symbols : Finset Symbol)
  /-- `hub.remove`, after the end of `send_loop` has been awaited. -/
  | close
  /-- `get_due` is called, or wakes up. -/
  | pass
  /-- `last_sent` is assigned to. -/
  | mark
  /-- The messages have been sent. -/
  | sent
  /-- `send_loop` is cancelled, or fails. -/
  | stop

namespace Pacing

variable {T : Type*} [LinearOrder T] (c : Seconds T) (interval : T)

/-- A session that is opened at a time. -/
def init (clock : T) (maxItems : ℕ) (maxItems_pos : 0 < maxItems) : Pacing T where
  clock := clock
  subscriptions := ∅
  buffer := .new maxItems maxItems_pos
  lastSent _ := none
  stage := .waiting
  takes := []

/-- A pass of the loop of `get_due`, in which it returns a quote, waits again, or raises. -/
def pass (s : Pacing T) : Pacing T :=
  match s.buffer.getDue c interval s.lastSent s.clock with
  | .returns q =>
    { s with buffer := s.buffer.without q, stage := .taken q,
             takes := (symbolOf q, s.clock) :: s.takes }
  | .waits _ => s
  | .cancelled => { s with stage := .ended }

/-- `session.last_sent[event.symbol] = time.monotonic()`. -/
def mark (s : Pacing T) (q : Quote) : Pacing T :=
  { s with lastSent := Function.update s.lastSent (symbolOf q) (some s.clock), stage := .sending q }

/-- A step. -/
def step (s : Pacing T) : PacingAction T → Option (Pacing T)
  | .tick now => if s.clock ≤ now then some { s with clock := now } else none
  | .put q => some { s with buffer := s.buffer.put q }
  | .subscribe symbols => some { s with subscriptions := s.subscriptions ∪ symbols }
  | .unsubscribe symbols => some { s with subscriptions := s.subscriptions \ symbols }
  | .close =>
    match s.stage with
    | .ended => some { s with buffer := s.buffer.close }
    | _ => none
  | .pass =>
    match s.stage with
    | .waiting => some (s.pass c interval)
    | _ => none
  | .mark =>
    match s.stage with
    | .taken q => some (s.mark q)
    | _ => none
  | .sent =>
    match s.stage with
    | .sending _ => some { s with stage := .waiting }
    | _ => none
  | .stop => some { s with stage := .ended }

/-- The later of two takes of a symbol is not before the interval has passed since the earlier
one. -/
def Apart (later earlier : Symbol × T) : Prop :=
  later.1 = earlier.1 → c.add earlier.2 interval ≤ later.2

/-- The takes are in the past, those of a symbol are apart, the last time that has been noted for a
symbol is not before any of them, but for the one that has not been noted, and the buffer of a loop
that has not ended is open. -/
structure Paced (s : Pacing T) : Prop where
  le_clock : ∀ x ∈ s.takes, x.2 ≤ s.clock
  noted : s.stage ≠ .ended → ∀ x ∈ s.takes, (∀ q, s.stage = .taken q → symbolOf q ≠ x.1) →
    ∃ t ∈ s.lastSent x.1, x.2 ≤ t
  apart : s.takes.Pairwise (Apart c interval)
  opened : s.stage ≠ .ended → s.buffer.closed = false

variable {c interval} {s t : Pacing T} {a : PacingAction T}

/-- A step that changes neither the takes nor the noted times, nor where the loop is, nor whether
the buffer is open. -/
theorem Paced.congr (h : Paced c interval s) (hclock : s.clock ≤ t.clock)
    (hsent : t.lastSent = s.lastSent)
    (hstage : t.stage = s.stage) (htakes : t.takes = s.takes)
    (hclosed : t.buffer.closed = s.buffer.closed) :
    Paced c interval t where
  le_clock := by
    rw [htakes]
    exact fun x hx => (h.le_clock x hx).trans hclock
  noted := by
    rw [htakes, hsent, hstage]
    exact h.noted
  apart := by
    rw [htakes]
    exact h.apart
  opened := by
    rw [hstage, hclosed]
    exact h.opened

/-- The loop ends. -/
theorem Paced.stop (h : Paced c interval s) : Paced c interval { s with stage := .ended } where
  le_clock := h.le_clock
  noted hne := absurd rfl hne
  apart := h.apart
  opened hne := absurd rfl hne

/-- The buffer of a loop that has ended is closed. -/
theorem Paced.close (h : Paced c interval s) (hstage : s.stage = .ended) :
    Paced c interval { s with buffer := s.buffer.close } where
  le_clock := h.le_clock
  noted := h.noted
  apart := h.apart
  opened hne := absurd hstage hne

/-- `get_due` returns a quote only if the interval has passed since each take of its symbol. -/
theorem Paced.pass (h : Paced c interval s) (hstage : s.stage = .waiting) :
    Paced c interval (s.pass c interval) := by
  have hne : s.stage ≠ .ended := by
    rw [hstage]
    exact fun he => nomatch he
  have hnoted : ∀ x ∈ s.takes, ∃ t ∈ s.lastSent x.1, x.2 ≤ t := by
    intro x hx
    refine h.noted hne x hx fun q hq => ?_
    rw [hstage] at hq
    exact nomatch hq
  unfold Pacing.pass
  split
  · rename_i q hturn
    obtain ⟨-, hdue⟩ := LatestValueBuffer.getDue_eq_returns hturn
    refine ⟨List.forall_mem_cons.2 ⟨le_refl _, h.le_clock⟩, fun _ x hx hne => ?_, ?_,
      fun _ => h.opened hne⟩
    · -- only the symbol of this quote is still to be noted
      obtain rfl | hx := List.mem_cons.1 hx
      · exact absurd rfl (hne q rfl)
      · exact hnoted x hx
    · refine List.pairwise_cons.2 ⟨fun x hx heq => ?_, h.apart⟩
      obtain ⟨u, hu, hle⟩ := hnoted x hx
      have hlast : s.lastSent (symbolOf q) = some u := by
        rw [show symbolOf q = x.1 from heq]
        exact hu
      have hdueAt : dueAt c interval s.lastSent q = c.add u interval := by
        unfold dueAt
        rw [hlast, Option.getD_some]
      calc c.add x.2 interval ≤ c.add u interval := c.add_le_add_right _ _ _ hle
        _ = dueAt c interval s.lastSent q := hdueAt.symm
        _ ≤ s.clock := hdue
  · exact h
  · exact h.stop

/-- The time of a take is noted. -/
theorem Paced.mark {q : Quote} (h : Paced c interval s) (hstage : s.stage = .taken q) :
    Paced c interval (s.mark q) := by
  have hne : s.stage ≠ .ended := by
    rw [hstage]
    exact fun he => nomatch he
  refine ⟨h.le_clock, fun _ x hx _ => ?_, h.apart, fun _ => h.opened hne⟩
  show ∃ t ∈ Function.update s.lastSent (symbolOf q) (some s.clock) x.1, x.2 ≤ t
  by_cases heq : x.1 = symbolOf q
  · rw [heq, Function.update_self]
    exact ⟨s.clock, rfl, h.le_clock x hx⟩
  · rw [Function.update_of_ne heq]
    refine h.noted hne x hx fun q' hq' => ?_
    obtain rfl : q = q' := SendStage.taken.inj (hstage.symm.trans hq')
    exact fun hne => heq hne.symm

/-- The loop comes back to `get_due`. -/
theorem Paced.sent {q : Quote} (h : Paced c interval s) (hstage : s.stage = .sending q) :
    Paced c interval { s with stage := .waiting } := by
  have hne : s.stage ≠ .ended := by
    rw [hstage]
    exact fun he => nomatch he
  refine ⟨h.le_clock, fun _ x hx _ => ?_, h.apart, fun _ => h.opened hne⟩
  refine h.noted hne x hx fun q' hq' => ?_
  rw [hstage] at hq'
  exact nomatch hq'

/-- A quote that is put does not open or close a buffer. -/
theorem closed_put (b : LatestValueBuffer) (q : Quote) : (b.put q).closed = b.closed := by
  unfold LatestValueBuffer.put
  split_ifs <;> rfl

/-- A step keeps the pace. -/
theorem Paced.step (h : Paced c interval s) (hs : s.step c interval a = some t) :
    Paced c interval t := by
  cases a with
  | tick now =>
    dsimp only [Pacing.step] at hs
    split_ifs at hs with hle
    obtain rfl := Option.some.inj hs
    exact h.congr hle rfl rfl rfl rfl
  | put q =>
    obtain rfl := Option.some.inj hs
    exact h.congr (le_refl _) rfl rfl rfl (closed_put _ _)
  | subscribe symbols =>
    obtain rfl := Option.some.inj hs
    exact h.congr (le_refl _) rfl rfl rfl rfl
  | unsubscribe symbols =>
    obtain rfl := Option.some.inj hs
    exact h.congr (le_refl _) rfl rfl rfl rfl
  | close =>
    dsimp only [Pacing.step] at hs
    split at hs
    · rename_i hstage
      obtain rfl := Option.some.inj hs
      exact h.close hstage
    · exact nomatch hs
  | pass =>
    dsimp only [Pacing.step] at hs
    split at hs
    · rename_i hstage
      obtain rfl := Option.some.inj hs
      exact h.pass hstage
    · exact nomatch hs
  | mark =>
    -- The sender goes from stage to stage; the others leave its clock alone.
    dsimp only [Pacing.step] at hs
    split at hs
    · rename_i q hstage
      obtain rfl := Option.some.inj hs
      exact h.mark hstage
    · exact nomatch hs
  | sent =>
    dsimp only [Pacing.step] at hs
    split at hs
    · rename_i q hstage
      obtain rfl := Option.some.inj hs
      exact h.sent hstage
    · exact nomatch hs
  | stop =>
    obtain rfl := Option.some.inj hs
    exact h.stop

/-- A session that is opened has sent nothing. -/
theorem paced_init {clock : T} {maxItems : ℕ} {maxItems_pos : 0 < maxItems} :
    Paced c interval (init clock maxItems maxItems_pos) where
  le_clock := List.forall_mem_nil _
  noted _ _ hx := absurd hx List.not_mem_nil
  apart := List.Pairwise.nil
  opened _ := rfl

/-- In every state of every session, any two takes of one symbol are an interval apart. While
`send_loop` is in `get_due`, a pass returns a quote of the buffer whose symbol is due, or waits, and
it waits if and only if no symbol in the buffer is due. -/
theorem takes_apart {clock : T} {maxItems : ℕ} (maxItems_pos : 0 < maxItems)
    (h : Path (step c interval) anyStep (init clock maxItems maxItems_pos) s) :
    s.takes.Pairwise (fun later earlier => later.1 = earlier.1 →
    c.add earlier.2 interval ≤ later.2) ∧
    (∀ q, s.buffer.getDue c interval s.lastSent s.clock = .returns q →
      q ∈ s.buffer.events ∧ dueAt c interval s.lastSent q ≤ s.clock) ∧
    (s.stage = .waiting →
      ((∃ q, s.buffer.getDue c interval s.lastSent s.clock = .returns q) ∨
        ∃ limit, s.buffer.getDue c interval s.lastSent s.clock = .waits limit) ∧
      ((∃ limit, s.buffer.getDue c interval s.lastSent s.clock = .waits limit) ↔
        ∀ e ∈ s.buffer.events, ¬dueAt c interval s.lastSent e ≤ s.clock)) := by
  have hpaced : Paced c interval s :=
    h.invariant (Paced c interval) paced_init fun _ _ _ hinv _ hs => hinv.step hs
  refine ⟨hpaced.apart, fun q hq => LatestValueBuffer.getDue_eq_returns hq, fun hstage => ?_⟩
  have hopen : s.buffer.closed = false := hpaced.opened (by rw [hstage]; exact fun he => nomatch he)
  have hwaits := @LatestValueBuffer.exists_waits_iff T _ c interval s.lastSent s.clock s.buffer
  have hclosed : s.buffer.closed = true → s.buffer.events ≠ [] := by
    rw [hopen]
    exact fun hfalse => absurd hfalse Bool.false_ne_true
  refine ⟨?_, hwaits.trans (and_iff_left hclosed)⟩
  cases hturn : s.buffer.getDue c interval s.lastSent s.clock with
  | returns q => exact Or.inl ⟨q, rfl⟩
  | waits limit => exact Or.inr ⟨limit, rfl⟩
  | cancelled =>
    obtain ⟨-, htrue⟩ := LatestValueBuffer.getDue_eq_cancelled hturn
    exact absurd (htrue.symm.trans hopen) (by decide)

/-- A session that takes two quotes of a symbol, at a rate of two a second. -/
theorem takes_apart_sample : ∃ s,
    Path (step Seconds.exact (Seconds.exact.deliveryInterval 2)) anyStep (init 7 3 three_pos) s ∧
      s.takes.length = 2 ∧
      s.takes.Pairwise fun later earlier => later.1 = earlier.1 →
        earlier.2 + Seconds.exact.deliveryInterval 2 ≤ later.2 := by
  obtain ⟨s, hpath, hlength⟩ :=
    Path.exists_of_exec (step Seconds.exact (Seconds.exact.deliveryInterval 2))
    anyStep (init 7 3 three_pos)
    [.put Models.sample, .pass, .tick (71 / 10), .mark, .put Models.sample, .sent, .pass,
      .unsubscribe {"BTC-USD"}, .tick 8, .put Models.sample, .pass]
    (fun s => s.takes.length = 2) (by decide +kernel)
  exact ⟨s, hpath, hlength, (takes_apart three_pos hpath).1⟩

end Pacing

end MarketDataGateway.Session

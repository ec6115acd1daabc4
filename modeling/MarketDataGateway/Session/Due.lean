import Mathlib.Algebra.Order.Field.Rat
import MarketDataGateway.Session.Buffer

/-!
# The quote that is due

`get_due` of `qos.py`: what it comes to each time that it holds the condition of the buffer. The
numbers of the clock are a parameter, `Seconds`, so that nothing here depends on how they are
rounded.
-/

namespace MarketDataGateway.Session

/-- The arithmetic of a clock. Exact numbers have it, and so have floating-point numbers, whose sums
are rounded and whose differences have the sign of the exact ones. -/
structure Seconds (T : Type*) [LinearOrder T] where
  /-- `0.0`. -/
  zero : T
  /-- `1.0`. -/
  one : T
  /-- `3600.0`. -/
  hour : T
  /-- `0.001`. -/
  milli : T
  /-- A sum. -/
  add : T → T → T
  /-- A difference. -/
  sub : T → T → T
  /-- A quotient. -/
  div : T → T → T
  sub_le_zero : ∀ a b, sub a b ≤ zero ↔ a ≤ b
  add_le_add_right : ∀ a b c, a ≤ b → add a c ≤ add b c

/-- Exact seconds. -/
def Seconds.exact : Seconds ℚ where
  zero := 0
  one := 1
  hour := 3600
  milli := 1 / 1000
  add a b := a + b
  sub a b := a - b
  div a b := a / b
  sub_le_zero _ _ := sub_nonpos
  add_le_add_right _ _ c h := add_le_add h (le_refl c)

variable {T : Type*} [LinearOrder T] (c : Seconds T)

/-- `delivery_interval`, of the `updates_per_second` of a tier. -/
def Seconds.deliveryInterval (rate : T) : T := if c.zero < rate then c.div c.one rate else c.hour

/-- What `get_due` comes to, while it holds the condition. -/
inductive Turn (T : Type*)
  /-- It returns a quote. -/
  | returns (q : Quote)
  /-- It waits, and no longer than the timeout if there is one. -/
  | waits (timeout : Option T)
  /-- It raises `CancelledError`. -/
  | cancelled

section GetDue

variable (interval : T) (lastSent : Symbol → Option T) (now : T)

/-- The time from which on the symbol of a quote may be sent again. -/
def dueAt (q : Quote) : T := c.add ((lastSent (symbolOf q)).getD c.zero) interval

/-- `delay`. -/
def delay (q : Quote) : T := max c.zero (c.sub (dueAt c interval lastSent q) now)

/-- The loop over the symbols: the first quote that is due, or else the least delay. -/
def scan : List Quote → Option T → Quote ⊕ Option T
  | [], nextDelay => .inr nextDelay
  | q :: rest, nextDelay =>
    let d := delay c interval lastSent now q
    if d ≤ c.zero then .inl q
    else scan rest (some (nextDelay.elim d fun n => min n d))

/-- `timeout`. A delay of zero counts as none. -/
def timeout (nextDelay : Option T) : T :=
  max c.milli (nextDelay.elim interval fun n => if n = c.zero then interval else n)

/-- A pass of the loop of `get_due`. -/
def LatestValueBuffer.getDue (b : LatestValueBuffer) : Turn T :=
  if b.events = [] then if b.closed then .cancelled else .waits none
  else
    match scan c interval lastSent now
      (b.events.insertionSort fun e e' => symbolOf e ≤ symbolOf e') none with
    | .inl q => .returns q
    | .inr nextDelay => .waits (some (timeout c interval nextDelay))

variable {c interval lastSent now} {q : Quote} {quotes : List Quote} {nextDelay : Option T}

/-- The symbol of a quote is due. -/
theorem delay_le_zero : delay c interval lastSent now q ≤ c.zero ↔
    dueAt c interval lastSent q ≤ now := by
  unfold delay
  rw [max_le_iff, c.sub_le_zero]
  exact and_iff_right (le_refl _)

/-- The loop comes to a quote that is due, if there is one. -/
theorem scan_eq_inl (h : scan c interval lastSent now quotes nextDelay = .inl q) :
    q ∈ quotes ∧ dueAt c interval lastSent q ≤ now := by
  induction quotes generalizing nextDelay with
  | nil => exact absurd h Sum.inr_ne_inl
  | cons e rest ih =>
    unfold scan at h
    dsimp only at h
    split_ifs at h with hdue
    · rw [← Sum.inl.inj h]
      exact ⟨List.mem_cons_self, delay_le_zero.1 hdue⟩
    · obtain ⟨hmem, hq⟩ := ih h
      exact ⟨List.mem_cons_of_mem e hmem, hq⟩

/-- A scan that finds nothing due has found nothing due. -/
theorem scan_eq_inr {d : Option T} (h : scan c interval lastSent now quotes nextDelay = .inr d) :
    ∀ e ∈ quotes, ¬dueAt c interval lastSent e ≤ now := by
  induction quotes generalizing nextDelay with
  | nil => exact List.forall_mem_nil _
  | cons e rest ih =>
    unfold scan at h
    dsimp only at h
    split_ifs at h with hdue
    exact List.forall_mem_cons.2 ⟨fun hle => hdue (delay_le_zero.2 hle), ih h⟩

namespace LatestValueBuffer

variable {b : LatestValueBuffer}

/-- `get_due` returns quotes of the buffer only, of symbols that are due. -/
theorem getDue_eq_returns (h : b.getDue c interval lastSent now = .returns q) :
    q ∈ b.events ∧ dueAt c interval lastSent q ≤ now := by
  unfold getDue at h
  split_ifs at h
  split at h
  · rename_i q' hscan
    obtain rfl : q' = q := Turn.returns.inj h
    obtain ⟨hmem, hdue⟩ := scan_eq_inl hscan
    exact ⟨(List.mem_insertionSort _).1 hmem, hdue⟩
  · exact nomatch h

/-- `get_due` raises only if the buffer is closed and empty. -/
theorem getDue_eq_cancelled (h : b.getDue c interval lastSent now = .cancelled) :
    b.events = [] ∧ b.closed = true := by
  unfold getDue at h
  split_ifs at h with hempty hclosed
  · exact ⟨hempty, hclosed⟩
  · split at h
    · exact nomatch h
    · exact nomatch h

/-- `get_due` waits if and only if no quote in the buffer is due. A buffer that is closed and empty
ends it. -/
theorem exists_waits_iff :
    (∃ limit, b.getDue c interval lastSent now = .waits limit) ↔
      (∀ e ∈ b.events, ¬dueAt c interval lastSent e ≤ now) ∧ (b.closed = true → b.events ≠ []) := by
  unfold getDue
  split_ifs with hempty hclosed
  · constructor
    · exact fun ⟨_, h⟩ => nomatch h
    · exact fun ⟨_, h⟩ => absurd hempty (h hclosed)
  · rw [hempty]
    exact iff_of_true ⟨none, rfl⟩ ⟨List.forall_mem_nil _, fun h => absurd h hclosed⟩
  · split
    · rename_i q hscan
      obtain ⟨hmem, hdue⟩ := scan_eq_inl hscan
      constructor
      · exact fun ⟨_, h⟩ => nomatch h
      · exact fun ⟨h, _⟩ => absurd hdue (h q ((List.mem_insertionSort _).1 hmem))
    · rename_i d hscan
      have hnone := scan_eq_inr hscan
      exact iff_of_true ⟨_, rfl⟩
        ⟨fun e he => hnone e ((List.mem_insertionSort _).2 he), fun _ => hempty⟩

end LatestValueBuffer

end GetDue

/-! ## Microseconds -/

/-- A clock that counts microseconds. -/
def Seconds.micro : Seconds ℤ where
  zero := 0
  one := 1000000
  hour := 3600000000
  milli := 1000
  add a b := a + b
  sub a b := a - b
  div a b := 1000000 * a / b
  sub_le_zero _ _ := ⟨Int.le_of_sub_nonpos, Int.sub_nonpos_of_le⟩
  add_le_add_right _ _ c h := Int.add_le_add_right h c

/-- The loop over the symbols is a search for the first one that is due. -/
theorem scan_eq_inl_iff {interval : ℤ} {lastSent : Symbol → Timestamp} {now : Timestamp} {q : Quote}
    {quotes : List Quote} {nextDelay : Option ℤ} :
    scan Seconds.micro interval (fun s => some (lastSent s)) now quotes nextDelay = .inl q ↔
      (quotes.find? fun e => lastSent (symbolOf e) + interval ≤ now) = some q := by
  induction quotes generalizing nextDelay with
  | nil => exact iff_of_false Sum.inr_ne_inl (fun h => nomatch h)
  | cons e rest ih =>
    have hdue : delay Seconds.micro interval (fun s => some (lastSent s)) now e ≤
      Seconds.micro.zero ↔
        lastSent (symbolOf e) + interval ≤ now := delay_le_zero
    unfold scan
    dsimp only
    rw [List.find?_cons]
    split_ifs with hle
    · rw [decide_eq_true (hdue.1 hle)]
      exact ⟨fun h => congrArg some (Sum.inl.inj h), fun h => congrArg Sum.inl (Option.some.inj h)⟩
    · rw [decide_eq_false fun h => hle (hdue.2 h)]
      exact ih

/-- `due` is what `get_due` returns, by a clock that counts microseconds. -/
theorem LatestValueBuffer.due_eq_some_iff {b : LatestValueBuffer} {interval : ℤ}
    {lastSent : Symbol → Timestamp}
    {now : Timestamp} {q : Quote} :
    b.due interval lastSent now = some q ↔
      b.getDue Seconds.micro interval (fun s => some (lastSent s)) now = .returns q := by
  unfold LatestValueBuffer.due LatestValueBuffer.getDue
  split_ifs with hempty hclosed
  · rw [hempty]
    exact iff_of_false (fun h => nomatch h) (fun h => nomatch h)
  · rw [hempty]
    exact iff_of_false (fun h => nomatch h) (fun h => nomatch h)
  · rw [← @scan_eq_inl_iff _ _ _ _ _ none]
    split
    · rename_i q' hscan
      rw [hscan]
      exact ⟨fun h => congrArg Turn.returns (Sum.inl.inj h),
        fun h => congrArg Sum.inl (Turn.returns.inj h)⟩
    · rename_i d hscan
      rw [hscan]
      exact iff_of_false Sum.inr_ne_inl (fun h => nomatch h)

end MarketDataGateway.Session

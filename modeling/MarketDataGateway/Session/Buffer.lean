import Mathlib.Data.List.MinMax
import MarketDataGateway.Session.Command

/-!
# The buffer of a session

`LatestValueBuffer` of `qos.py`: the quotes that are to be sent, one for each symbol, in the order
in which their symbols have come. Its counters are left out. A buffer is given with a proof that it
is within its bound and has one quote for each symbol, which `put` and `get_due` keep.
-/

namespace MarketDataGateway.Session

/-- `QuoteEvent`. -/
abbrev Quote := Models.QuoteEvent

/-- `event.symbol`. -/
def symbolOf (q : Quote) : Symbol := SubscriptionCommand.spelling q.symbol

/-- `event.received_at`. -/
def receivedAt (q : Quote) : Timestamp := q.receivedAt.1.instant

/-- `LatestValueBuffer`. -/
structure LatestValueBuffer where
  /-- `max_items`. -/
  maxItems : ℕ
  /-- The values of `_events`, whose keys are their symbols. -/
  events : List Quote
  /-- `_closed`. -/
  closed : Bool
  maxItems_pos : 0 < maxItems
  nodup : (events.map symbolOf).Nodup
  length_le : events.length ≤ maxItems

namespace LatestValueBuffer

/-- A buffer without quotes. -/
def new (maxItems : ℕ) (maxItems_pos : 0 < maxItems) : LatestValueBuffer :=
  ⟨maxItems, [], false, maxItems_pos, List.nodup_nil, Nat.zero_le _⟩

/-- `self._events.pop(symbol, None)`. -/
def pop (events : List Quote) (symbol : Symbol) : List Quote :=
  events.filter fun e => symbolOf e ≠ symbol

/-- `self._events[event.symbol] = event` of a symbol that is there. -/
def replace (events : List Quote) (q : Quote) : List Quote :=
  events.map fun e => if symbolOf e = symbolOf q then q else e

/-- The quote of `oldest_symbol`, the first one of those that were received first. -/
def oldestEvent (events : List Quote) : Option Quote :=
  -- the order is named, as the integers have another instance of it that does not compute
  @List.argmin Quote Timestamp Int.instLinearOrder.toPreorder Int.decLt receivedAt events

/-- The quotes without the oldest one if there are as many as may be. -/
def makeRoom (maxItems : ℕ) (events : List Quote) : List Quote :=
  if maxItems ≤ events.length then
    match oldestEvent events with
    | none => events
    | some oldest => pop events (symbolOf oldest)
  else events

section Events

variable {events : List Quote} {q e : Quote} {symbol : Symbol} {maxItems : ℕ}

/-- There is no oldest event if there are none. -/
theorem oldestEvent_eq_none : oldestEvent events = none ↔ events = [] := List.argmin_eq_none

/-- The oldest event is one of the events. -/
theorem mem_of_mem_oldestEvent (h : e ∈ oldestEvent events) : e ∈ events := List.argmin_mem h

/-- The oldest event is not younger than any other. -/
theorem receivedAt_le_of_mem_oldestEvent (h : e ∈ oldestEvent events) (hq : q ∈ events) :
    receivedAt e ≤ receivedAt q :=
  List.le_of_mem_argmin hq h

/-- A replacement leaves the symbols. -/
theorem map_symbolOf_replace : (replace events q).map symbolOf = events.map symbolOf := by
  unfold replace
  rw [List.map_map]
  refine List.map_congr_left fun e _ => ?_
  show symbolOf (if symbolOf e = symbolOf q then q else e) = symbolOf e
  split_ifs with h
  · exact h.symm
  · rfl

/-- What is there after a replacement is the new event, or has been there. -/
theorem mem_replace (h : e ∈ replace events q) : e = q ∨ e ∈ events := by
  obtain ⟨e', he', rfl⟩ := List.mem_map.1 h
  split_ifs
  · exact Or.inl rfl
  · exact Or.inr he'

/-- What is left when room is made has been there, in the same order. -/
theorem sublist_makeRoom : (makeRoom maxItems events).Sublist events := by
  unfold makeRoom
  split_ifs
  · split
    · exact List.Sublist.refl _
    · exact List.filter_sublist
  · exact List.Sublist.refl _

/-- There is room for one more. -/
theorem length_makeRoom (hpos : 0 < maxItems) (hle : events.length ≤ maxItems) :
    (makeRoom maxItems events).length < maxItems := by
  unfold makeRoom
  split_ifs with hfull
  · cases holdest : oldestEvent events with
    | none =>
      rw [oldestEvent_eq_none] at holdest
      rw [holdest]
      exact hpos
    | some oldest =>
      have hmem : oldest ∈ events := mem_of_mem_oldestEvent holdest
      have hlt : (pop events (symbolOf oldest)).length < events.length := by
        refine List.length_filter_lt_length_iff_exists.2 ⟨oldest, hmem, ?_⟩
        simp only [ne_eq, not_true_eq_false, decide_false, Bool.false_eq_true, not_false_eq_true]
      exact hlt.trans_le hle
  · exact not_le.1 hfull

end Events

variable (b : LatestValueBuffer) (q : Quote)

/-- `put`. -/
def put : LatestValueBuffer :=
  if b.closed then b
  else if h : symbolOf q ∈ b.events.map symbolOf then
    { b with
      events := replace b.events q
      nodup := by
        rw [map_symbolOf_replace]
        exact b.nodup
      length_le := by
        unfold replace
        rw [List.length_map]
        exact b.length_le }
  else
    { b with
      events := makeRoom b.maxItems b.events ++ [q]
      nodup := by
        have hsub := (@sublist_makeRoom b.events b.maxItems).map symbolOf
        rw [List.map_append, List.map_singleton, List.nodup_append]
        refine ⟨hsub.nodup b.nodup, List.nodup_singleton _, fun s hs s' hs' => ?_⟩
        rw [List.mem_singleton.1 hs']
        exact fun heq => h (heq ▸ hsub.subset hs)
      length_le := by
        rw [List.length_append, List.length_singleton]
        exact length_makeRoom b.maxItems_pos b.length_le }

/-- `close`. -/
def close : LatestValueBuffer :=
  { b with events := [], closed := true, nodup := List.nodup_nil, length_le := Nat.zero_le _ }

/-- The quote that `get_due` returns at the time `now`, by the times at which the symbols have been
sent. `none` means that it waits. -/
def due (interval : ℤ) (lastSent : Symbol → Timestamp) (now : Timestamp) : Option Quote :=
  (b.events.insertionSort fun e e' => symbolOf e ≤ symbolOf e').find? fun e =>
    lastSent (symbolOf e) + interval ≤ now

/-- The buffer without the quote that `get_due` returns. -/
def without : LatestValueBuffer :=
  { b with
    events := pop b.events (symbolOf q)
    nodup := (List.filter_sublist.map symbolOf).nodup b.nodup
    length_le := (List.length_filter_le _ _).trans b.length_le }

variable {b q} {e : Quote} {interval : ℤ} {lastSent : Symbol → Timestamp} {now : Timestamp}

/-- A quote that is in the buffer has been put there. -/
theorem mem_put (h : e ∈ (b.put q).events) : e = q ∨ e ∈ b.events := by
  unfold put at h
  split_ifs at h
  · exact Or.inr h
  · exact mem_replace h
  · rcases List.mem_append.1 h with h | h
    · exact Or.inr (sublist_makeRoom.subset h)
    · exact Or.inl (List.mem_singleton.1 h)

/-- The quote that is due is in the buffer. -/
theorem mem_of_due (h : b.due interval lastSent now = some q) : q ∈ b.events :=
  (List.mem_insertionSort _).1 (List.mem_of_find?_eq_some h)

/-- What is left without an event has been there. -/
theorem mem_of_mem_without (h : e ∈ (b.without q).events) : e ∈ b.events := List.mem_of_mem_filter h

end LatestValueBuffer

end MarketDataGateway.Session

import MarketDataGateway.Lib.Machines
import MarketDataGateway.Session.Due

/-!
# The accounts of a buffer

`LatestValueBuffer` of `qos.py` with its counters `coalesced` and `dropped`. What has happened to
the quotes is recorded apart, in a list of `Event`s, and the buffer is compared with that list: it
holds the quotes that were put last for their symbols, and each quote that was put is in one of the
counters.
-/

namespace MarketDataGateway.Session

open Lib

/-- `LatestValueBuffer` with its counters. -/
structure CountedBuffer where
  /-- The buffer without them. -/
  buffer : LatestValueBuffer
  /-- `coalesced`. -/
  coalesced : ℕ
  /-- `dropped`. -/
  dropped : ℕ

/-- A call of a buffer, with all that it reads. -/
inductive Call (T : Type*)
  /-- `put`. -/
  | put (q : Quote)
  /-- `get_due` holds the condition, at a time `now`. -/
  | getDue (interval : T) (lastSent : Symbol → Option T) (now : T)

/-- What a call returns. -/
inductive Returned (T : Type*)
  /-- The two values that `put` returns. -/
  | put (coalesced dropped : Bool)
  /-- What `get_due` comes to. -/
  | getDue (turn : Turn T)

/-- What happens to a quote. -/
inductive Event
  /-- It is put. -/
  | put (q : Quote)
  /-- It is dropped for another one. -/
  | evicted (q : Quote)
  /-- `get_due` returns it. -/
  | popped (q : Quote)

/-- The quote of an event. -/
def Event.quote : Event → Quote
  | .put q | .evicted q | .popped q => q

/-- The event is of a symbol. -/
def Event.Of (symbol : Symbol) (event : Event) : Prop := symbolOf event.quote = symbol

instance (symbol : Symbol) : DecidablePred (Event.Of symbol) :=
  fun _ => inferInstanceAs (Decidable (_ = _))

/-- The last event of a symbol. -/
def lastOf (log : List Event) (symbol : Symbol) : Option Event :=
  (log.filter fun event => event.Of symbol).getLast?

/-- A quote has been returned by `get_due`. -/
def Event.isPopped : Event → Bool
  | .popped _ => true
  | _ => false

/-- A call is one of `put`. -/
def Call.isPut {T : Type*} : Call T → Bool
  | .put _ => true
  | .getDue .. => false

namespace CountedBuffer

/-- `LatestValueBuffer(max_items)`. -/
def new (maxItems : ℕ) (maxItems_pos : 0 < maxItems) : CountedBuffer :=
  ⟨.new maxItems maxItems_pos, 0, 0⟩

variable (b : CountedBuffer) (q : Quote)

/-- `_events`. -/
abbrev events : List Quote := b.buffer.events

/-- `depth`. -/
def depth : ℕ := b.events.length

/-- `put`, with the values that it returns. -/
def put : CountedBuffer × Bool × Bool :=
  if b.buffer.closed then (b, false, false)
  else
    let coalesced := decide (symbolOf q ∈ b.events.map symbolOf)
    let dropped := !coalesced && decide (b.buffer.maxItems ≤ b.depth)
    (⟨b.buffer.put q, b.coalesced + coalesced.toNat, b.dropped + dropped.toNat⟩, coalesced, dropped)

/-- The quotes whose symbols are no longer there after a quote has been put. -/
def evicted : List Quote :=
  b.events.filter fun e => symbolOf e ∉ (b.put q).1.events.map symbolOf

variable {T : Type*} [LinearOrder T] (c : Seconds T)

/-- A call. -/
def call : Call T → CountedBuffer × Returned T
  | .put q => ((b.put q).1, .put (b.put q).2.1 (b.put q).2.2)
  | .getDue interval lastSent now =>
    match b.buffer.getDue c interval lastSent now with
    | .returns q => ({ b with buffer := b.buffer.without q }, .getDue (.returns q))
    | turn => (b, .getDue turn)

/-- What happens to quotes in a call: `put` drops the quotes that it evicts, and `get_due` pops what
it returns. -/
def happens : Call T → List Event
  | .put q => (b.evicted q).map .evicted ++ [.put q]
  | .getDue interval lastSent now =>
    match b.buffer.getDue c interval lastSent now with
    | .returns q => [.popped q]
    | _ => []

/-- What has happened after calls. -/
def history (calls : List (Call T)) : List Event :=
  (outputs (fun (b : CountedBuffer) a => ((b.call c a).1, b.happens c a)) b calls).flatten

end CountedBuffer

section Events

variable {events : List Quote} {q e oldest : Quote} {symbol : Symbol} {event : Event}
  {log log' : List Event}

/-- The last event of a symbol is that of the second log, or else of the first. -/
theorem lastOf_append :
    lastOf (log ++ log') symbol = (lastOf log' symbol).or (lastOf log symbol) := by
  unfold lastOf
  rw [List.filter_append, List.getLast?_append]

/-- The last event of a symbol is the one just put. -/
theorem lastOf_concat_self : lastOf (log ++ [.put q]) (symbolOf q) = some (.put q) := by
  rw [lastOf_append]
  have hof : (Event.put q).Of (symbolOf q) := rfl
  unfold lastOf
  rw [List.filter_singleton, decide_eq_true hof]
  rfl

/-- Events of other symbols play no part. -/
theorem lastOf_append_of_forall_not (h : ∀ event ∈ log', ¬event.Of symbol) :
    lastOf (log ++ log') symbol = lastOf log symbol := by
  have hnil : (log'.filter fun event => decide (event.Of symbol)) = [] :=
    List.filter_eq_nil_iff.2 fun event he => by rw [decide_eq_true_eq]; exact h event he
  rw [lastOf_append]
  unfold lastOf
  rw [hnil]
  rfl

/-- The last event of a symbol is one of its events. -/
theorem mem_of_lastOf (h : lastOf log symbol = some event) : event ∈ log ∧ event.Of symbol := by
  obtain ⟨hmem, hof⟩ := List.mem_filter.1 (List.mem_of_getLast? h)
  exact ⟨hmem, of_decide_eq_true hof⟩

/-- After evictions, one of which is of the symbol, its last event is an eviction. -/
theorem exists_lastOf_evicted {quotes : List Quote} (h : ∃ e ∈ quotes, symbolOf e = symbol) :
    ∃ e, lastOf (log ++ quotes.map .evicted) symbol = some (.evicted e) := by
  obtain ⟨e, he, hsymbol⟩ := h
  have hne : lastOf (quotes.map .evicted) symbol ≠ none := by
    unfold lastOf
    rw [ne_eq, List.getLast?_eq_none_iff, List.filter_eq_nil_iff]
    intro hnone
    refine hnone (.evicted e) (List.mem_map_of_mem he) ?_
    rw [decide_eq_true_eq]
    exact hsymbol
  obtain ⟨event, hevent⟩ := Option.ne_none_iff_exists'.1 hne
  obtain ⟨e', -, rfl⟩ := List.mem_map.1 (mem_of_lastOf hevent).1
  exact ⟨e', by rw [lastOf_append, hevent, Option.some_or]⟩

namespace LatestValueBuffer

/-- The quote of a symbol is the only one of its symbol. -/
theorem eq_of_symbolOf (hn : (events.map symbolOf).Nodup) (hq : q ∈ events) (he : e ∈ events)
    (h : symbolOf e = symbolOf q) : e = q :=
  List.inj_on_of_nodup_map hn he hq h

/-- What is left after a pop are the events of the other symbols. -/
theorem mem_pop_iff : e ∈ pop events symbol ↔ e ∈ events ∧ symbolOf e ≠ symbol := by
  unfold pop
  rw [List.mem_filter, decide_eq_true_eq]

/-- A pop leaves one event fewer. -/
theorem length_pop (hn : (events.map symbolOf).Nodup) (hq : q ∈ events) :
    (pop events (symbolOf q)).length + 1 = events.length := by
  have hone : events.countP (fun e => decide (symbolOf e = symbolOf q)) = 1 := by
    have hcount := List.count_eq_one_of_mem hn (List.mem_map_of_mem hq)
    rw [List.count, List.countP_map] at hcount
    rw [← hcount]
    exact List.countP_congr fun e _ => by
      rw [decide_eq_true_eq, Function.comp_apply, beq_iff_eq]
  have hsplit := List.length_eq_length_filter_add (l := events) fun e =>
    decide (symbolOf e = symbolOf q)
  rw [← List.countP_eq_length_filter, hone] at hsplit
  have hpop : pop events (symbolOf q) =
      events.filter fun e => !decide (symbolOf e = symbolOf q) := by
    unfold pop
    exact List.filter_congr fun e _ => decide_not
  rw [hpop]
  omega

/-- What is there after a replacement is the new event, or one of another symbol. -/
theorem mem_replace_iff (h : symbolOf q ∈ events.map symbolOf) :
    e ∈ replace events q ↔ e = q ∨ e ∈ events ∧ symbolOf e ≠ symbolOf q := by
  constructor
  · intro he
    obtain ⟨e', he', rfl⟩ := List.mem_map.1 he
    split_ifs with heq
    · exact Or.inl rfl
    · exact Or.inr ⟨he', heq⟩
  · intro he
    obtain rfl | ⟨he, hne⟩ := he
    · obtain ⟨e', he', heq⟩ := List.mem_map.1 h
      exact List.mem_map.2 ⟨e', he', if_pos heq⟩
    · exact List.mem_map.2 ⟨e, he, if_neg hne⟩

end LatestValueBuffer

end Events

namespace CountedBuffer

variable {b : CountedBuffer} {q e : Quote}

/-- What `put` does with a buffer that is open: it replaces the quote of the symbol, or adds one,
and evicts the oldest one if the buffer is full. -/
theorem put_cases (hopen : b.buffer.closed = false) :
    symbolOf q ∈ b.events.map symbolOf ∧ (b.put q).1.events = LatestValueBuffer.replace b.events q ∧
      (b.put q).1.coalesced = b.coalesced + 1 ∧ (b.put q).1.dropped = b.dropped ∨
    symbolOf q ∉ b.events.map symbolOf ∧ b.depth < b.buffer.maxItems ∧
      (b.put q).1.events = b.events ++ [q] ∧
      (b.put q).1.coalesced = b.coalesced ∧ (b.put q).1.dropped = b.dropped ∨
    symbolOf q ∉ b.events.map symbolOf ∧ b.depth = b.buffer.maxItems ∧
      ∃ oldest ∈ LatestValueBuffer.oldestEvent b.events,
        (b.put q).1.events = LatestValueBuffer.pop b.events (symbolOf oldest) ++ [q] ∧
        (b.put q).1.coalesced = b.coalesced ∧ (b.put q).1.dropped = b.dropped + 1 := by
  have hnotClosed : ¬b.buffer.closed = true := by rw [hopen]; exact Bool.false_ne_true
  have hput : b.put q = (⟨b.buffer.put q,
      b.coalesced + (decide (symbolOf q ∈ b.events.map symbolOf)).toNat,
      b.dropped + (!decide (symbolOf q ∈ b.events.map symbolOf) &&
        decide (b.buffer.maxItems ≤ b.depth)).toNat⟩, _, _) := if_neg hnotClosed
  have hevents : (b.put q).1.events = (b.buffer.put q).events := by rw [hput]
  have hle : b.depth ≤ b.buffer.maxItems := b.buffer.length_le
  rw [hevents]
  unfold LatestValueBuffer.put
  rw [if_neg hnotClosed, hput]
  by_cases hmem : symbolOf q ∈ b.events.map symbolOf
  · left
    rw [dif_pos hmem, decide_eq_true hmem]
    exact ⟨hmem, rfl, rfl, rfl⟩
  · -- The buffer is full: the oldest event gives way.
    right
    rw [dif_neg hmem, decide_eq_false hmem]
    by_cases hfull : b.buffer.maxItems ≤ b.depth
    · right
      have heq : b.depth = b.buffer.maxItems := le_antisymm hle hfull
      have hne : b.events ≠ [] := by
        intro hnil
        have hpos := b.buffer.maxItems_pos
        have hzero : b.depth = 0 := congrArg List.length hnil
        omega
      obtain ⟨oldest, holdest⟩ : ∃ oldest, LatestValueBuffer.oldestEvent b.events = some oldest :=
        Option.ne_none_iff_exists'.1 fun hnone =>
          hne (LatestValueBuffer.oldestEvent_eq_none.1 hnone)
      have hroom : LatestValueBuffer.makeRoom b.buffer.maxItems b.events =
          LatestValueBuffer.pop b.events (symbolOf oldest) := by
        unfold LatestValueBuffer.makeRoom
        rw [if_pos (show b.buffer.maxItems ≤ b.events.length from hfull), holdest]
      refine ⟨hmem, heq, oldest, holdest, ?_, rfl, ?_⟩
      · exact congrArg (· ++ [q]) hroom
      · rw [decide_eq_true hfull]
        rfl
    · left
      have hroom : LatestValueBuffer.makeRoom b.buffer.maxItems b.events = b.events := if_neg hfull
      refine ⟨hmem, not_le.1 hfull, ?_, rfl, ?_⟩
      · exact congrArg (· ++ [q]) hroom
      · rw [decide_eq_false hfull]
        rfl

/-- The quote that is put is never the one that is evicted. -/
theorem mem_put_self (hopen : b.buffer.closed = false) : q ∈ (b.put q).1.events := by
  obtain ⟨hmem, hevents, -⟩ | ⟨-, -, hevents, -⟩ | ⟨-, -, oldest, -, hevents, -⟩ := put_cases hopen
  · rw [hevents, LatestValueBuffer.mem_replace_iff hmem]
    exact Or.inl rfl
  · rw [hevents]
    exact List.mem_concat_self
  · rw [hevents]
    exact List.mem_concat_self

/-- Every put is coalesced, or drops a quote, or adds one. -/
theorem put_balance (hopen : b.buffer.closed = false) :
    (b.put q).1.coalesced + (b.put q).1.dropped + (b.put q).1.depth =
      b.coalesced + b.dropped + b.depth + 1 := by
  unfold depth
  obtain ⟨-, hevents, hc, hd⟩ | ⟨-, -, hevents, hc, hd⟩ | ⟨-, -, oldest,
      holdest, hevents, hc, hd⟩ :=
    @put_cases b q hopen
  · rw [hevents, hc, hd, LatestValueBuffer.replace, List.length_map]
    omega
  · rw [hevents, hc, hd, List.length_append, List.length_singleton]
    omega
  · have hpop : (LatestValueBuffer.pop b.events (symbolOf oldest)).length + 1 = b.events.length :=
      LatestValueBuffer.length_pop b.buffer.nodup
        (LatestValueBuffer.mem_of_mem_oldestEvent holdest)
    rw [hevents, hc, hd, List.length_append, List.length_singleton]
    omega

/-- What is evicted has been there, and its symbol is gone. -/
theorem mem_evicted_iff :
    e ∈ b.evicted q ↔ e ∈ b.events ∧ symbolOf e ∉ (b.put q).1.events.map symbolOf := by
  unfold evicted
  rw [List.mem_filter, decide_eq_true_eq]

/-- The buffer after a quote has been put: the quote, and those of other symbols that were not
evicted. -/
theorem mem_put_iff (hopen : b.buffer.closed = false) :
    e ∈ (b.put q).1.events ↔ e = q ∨ e ∈ b.events ∧ symbolOf e ≠ symbolOf q ∧ e ∉ b.evicted q := by
  have hself := @mem_put_self b q hopen
  -- The buffer takes in nothing but the quote.
  have hold : ∀ e ∈ (b.put q).1.events, e = q ∨ e ∈ b.events := by
    intro e he
    have hput : (b.put q).1.buffer = b.buffer.put q := by
      unfold put
      rw [if_neg (by rw [hopen]; exact Bool.false_ne_true)]
    exact LatestValueBuffer.mem_put (hput ▸ he)
  constructor
  · intro he
    obtain rfl | hmem := hold e he
    · exact Or.inl rfl
    · by_cases heq : symbolOf e = symbolOf q
      · exact Or.inl (LatestValueBuffer.eq_of_symbolOf (b.put q).1.buffer.nodup hself he heq)
      · refine Or.inr ⟨hmem, heq, fun hevicted => ?_⟩
        exact (mem_evicted_iff.1 hevicted).2 (List.mem_map_of_mem he)
  · intro h
    obtain rfl | ⟨hmem, hne, hkept⟩ := h
    · exact hself
    · -- A symbol that was not evicted still has a quote, which can only be the one it had.
      have hsymbol : symbolOf e ∈ (b.put q).1.events.map symbolOf := by
        by_contra hnot
        exact hkept (mem_evicted_iff.2 ⟨hmem, hnot⟩)
      obtain ⟨e', he', heq⟩ := List.mem_map.1 hsymbol
      obtain rfl | hmem' := hold e' he'
      · exact absurd heq.symm hne
      · rwa [← LatestValueBuffer.eq_of_symbolOf b.buffer.nodup hmem hmem' heq]

/-- An eviction happens only when a new symbol meets a full buffer, and then it is the one oldest
quote. -/
theorem evicted_cases (hopen : b.buffer.closed = false) :
    b.evicted q = [] ∨ symbolOf q ∉ b.events.map symbolOf ∧ b.depth = b.buffer.maxItems ∧
      ∃ oldest ∈ b.events, b.evicted q = [oldest] ∧ ∀ e ∈ b.events,
      receivedAt oldest ≤ receivedAt e := by
  obtain ⟨hmem, hevents, -⟩ | ⟨-, -, hevents, -⟩ | ⟨hnew, hfull, oldest, holdest, hevents, -⟩ :=
    @put_cases b q hopen
  · left
    -- The quote of the symbol is replaced, and no symbol goes.
    refine List.filter_eq_nil_iff.2 fun e he => ?_
    rw [hevents, LatestValueBuffer.map_symbolOf_replace, decide_eq_true_eq, not_not]
    exact List.mem_map_of_mem he
  · left
    refine List.filter_eq_nil_iff.2 fun e he => ?_
    rw [hevents, List.map_append, decide_eq_true_eq, not_not]
    exact List.mem_append_left _ (List.mem_map_of_mem he)
  · right
    have hoMem : oldest ∈ b.events := LatestValueBuffer.mem_of_mem_oldestEvent holdest
    refine ⟨hnew, hfull, oldest, hoMem, ?_,
      fun e he => LatestValueBuffer.receivedAt_le_of_mem_oldestEvent holdest he⟩
    have hnodup : (b.evicted q).Nodup := (List.Nodup.of_map symbolOf b.buffer.nodup).filter _
    -- What is no longer there is the one that has been popped.
    have hiff : ∀ e, e ∈ b.evicted q ↔ e ∈ [oldest] := by
      intro e
      rw [mem_evicted_iff, hevents, List.mem_singleton, List.map_append, List.mem_append,
        List.map_singleton, List.mem_singleton, not_or, List.mem_map]
      constructor
      · rintro ⟨he, hpop, -⟩
        by_contra hne
        refine hpop ⟨e, LatestValueBuffer.mem_pop_iff.2 ⟨he, fun heq => hne ?_⟩, rfl⟩
        exact LatestValueBuffer.eq_of_symbolOf b.buffer.nodup hoMem he heq
      · rintro rfl
        refine ⟨hoMem, ?_, fun heq => hnew (heq ▸ List.mem_map_of_mem hoMem)⟩
        exact fun ⟨e', he', heq⟩ => (LatestValueBuffer.mem_pop_iff.1 he').2 heq
    exact List.perm_singleton.1
      ((List.perm_ext_iff_of_nodup hnodup (List.nodup_singleton _)).2 hiff)

variable {T : Type*}

/-- What is true of a buffer that is open after calls and what has happened in them. -/
structure Accounts (maxItems : ℕ) (b : CountedBuffer) (calls : List (Call T))
    (log : List Event) : Prop where
  isOpen : b.buffer.closed = false
  bound : b.buffer.maxItems = maxItems
  mem_iff : ∀ e, e ∈ b.events ↔ lastOf log (symbolOf e) = some (.put e)
  balance : calls.countP Call.isPut = log.countP Event.isPopped + b.coalesced + b.dropped + b.depth

variable {maxItems : ℕ} {calls : List (Call T)} {log : List Event} {a : Call T}

/-- A put is accounted for. -/
theorem accounts_put (h : Accounts maxItems b calls log) :
    Accounts maxItems (b.put q).1 (calls ++ [.put q])
    (log ++ ((b.evicted q).map .evicted ++ [.put q])) := by
  have hput : (b.put q).1.buffer = b.buffer.put q := by
    unfold put
    rw [if_neg (by rw [h.isOpen]; exact Bool.false_ne_true)]
  refine ⟨?_, ?_, fun e => ?_, ?_⟩
  · rw [hput]
    unfold LatestValueBuffer.put
    split_ifs <;> exact h.isOpen
  · rw [hput]
    unfold LatestValueBuffer.put
    split_ifs <;> exact h.bound
  · rw [mem_put_iff h.isOpen, ← List.append_assoc]
    by_cases heq : symbolOf e = symbolOf q
    · rw [heq, lastOf_concat_self, Option.some_inj, Event.put.injEq]
      exact ⟨fun he => (he.resolve_right fun hmem => hmem.2.1 rfl).symm, fun he => Or.inl he.symm⟩
    · have hother : ∀ event ∈ [Event.put q], ¬event.Of (symbolOf e) := by
        intro event hevent hof
        rw [List.mem_singleton.1 hevent] at hof
        exact heq hof.symm
      rw [lastOf_append_of_forall_not hother]
      by_cases hevicted : ∃ e' ∈ b.evicted q, symbolOf e' = symbolOf e
      · -- the last event of the symbol is an eviction
        obtain ⟨e', hlast⟩ := @exists_lastOf_evicted (symbolOf e) log _ hevicted
        rw [hlast, Option.some_inj]
        obtain ⟨e', he', hsymbol⟩ := hevicted
        refine iff_of_false (fun hor => ?_) (fun h => by cases h)
        obtain rfl | ⟨hmem, -, hkept⟩ := hor
        · exact heq rfl
        · have hsame := LatestValueBuffer.eq_of_symbolOf b.buffer.nodup hmem
            (mem_evicted_iff.1 he').1 hsymbol
          exact hkept (hsame ▸ he')
      · have hnone : ∀ event ∈ (b.evicted q).map Event.evicted, ¬event.Of (symbolOf e) := by
          intro event hevent hof
          obtain ⟨e', he', rfl⟩ := List.mem_map.1 hevent
          exact hevicted ⟨e', he', hof⟩
        rw [lastOf_append_of_forall_not hnone, ← h.mem_iff]
        refine ⟨fun hor => (hor.resolve_left fun he => heq (he ▸ rfl)).1,
          fun hmem => Or.inr ⟨hmem, heq, ?_⟩⟩
        exact fun he => hevicted ⟨e, he, rfl⟩
  · -- A put adds one event, or takes one over, or evicts one for it.
    have hbalance := @put_balance b q h.isOpen
    have hpopped : ((b.evicted q).map Event.evicted ++
        [Event.put q]).countP Event.isPopped = 0 := by
      rw [List.countP_append, List.countP_map, List.countP_eq_zero.2 fun e _ => ?_]
      · rfl
      · exact Bool.false_ne_true
    have hputs : (calls ++ [Call.put q]).countP Call.isPut = calls.countP Call.isPut + 1 := by
      rw [List.countP_append]
      rfl
    have hbefore := h.balance
    rw [hputs, List.countP_append, hpopped]
    omega

/-- An event that is popped is accounted for. -/
theorem accounts_without (h : Accounts maxItems b calls log) (hq : q ∈ b.events)
    (hput : a.isPut = false) :
    Accounts maxItems { b with buffer := b.buffer.without q } (calls ++ [a])
    (log ++ [.popped q]) where
  isOpen := h.isOpen
  bound := h.bound
  mem_iff e := by
    have hmem : e ∈ (b.buffer.without q).events ↔ e ∈ b.events ∧ symbolOf e ≠ symbolOf q :=
      LatestValueBuffer.mem_pop_iff
    refine hmem.trans ?_
    by_cases heq : symbolOf e = symbolOf q
    · -- Of its symbol, the last event is that it has been popped.
      refine iff_of_false (fun he => he.2 heq) fun hlast => ?_
      have hof : (Event.popped q).Of (symbolOf e) := heq.symm
      rw [lastOf_append, lastOf, List.filter_singleton, decide_eq_true hof] at hlast
      exact nomatch Option.some.inj hlast
    · -- The events of the other symbols are those from before.
      have hother : ∀ event ∈ [Event.popped q], ¬event.Of (symbolOf e) := by
        intro event hevent hof
        rw [List.mem_singleton.1 hevent] at hof
        exact heq hof.symm
      rw [lastOf_append_of_forall_not hother, ← h.mem_iff]
      exact and_iff_left heq
  balance := by
    have hlength : (LatestValueBuffer.pop b.events (symbolOf q)).length + 1 = b.events.length :=
      LatestValueBuffer.length_pop b.buffer.nodup hq
    have hputs : (calls ++ [a]).countP Call.isPut = calls.countP Call.isPut := by
      rw [List.countP_append, List.countP_singleton, hput]
      rfl
    have hpopped : (log ++ [Event.popped q]).countP Event.isPopped =
        log.countP Event.isPopped + 1 := by
      rw [List.countP_append]
      rfl
    have hbefore : calls.countP Call.isPut =
        log.countP Event.isPopped + b.coalesced + b.dropped + b.events.length := h.balance
    rw [hputs, hpopped]
    show _ = _ + b.coalesced + b.dropped + (LatestValueBuffer.pop b.events (symbolOf q)).length
    omega

variable [LinearOrder T] (c : Seconds T)

/-- The buffer after calls. -/
def after (b : CountedBuffer) (calls : List (Call T)) : CountedBuffer :=
  final (fun b a => b.call c a) b calls

variable {c}

/-- A call keeps the accounts. -/
theorem accounts_call (h : Accounts maxItems b calls log) :
    Accounts maxItems (b.call c a).1 (calls ++ [a]) (log ++ b.happens c a) := by
  cases a with
  | put q => exact accounts_put h
  | getDue interval lastSent now =>
    have hwaits : Accounts maxItems b (calls ++
        [Call.getDue interval lastSent now]) (log ++ []) := by
      have hputs : (calls ++ [Call.getDue interval lastSent now]).countP Call.isPut =
          calls.countP Call.isPut := List.countP_append
      rw [List.append_nil]
      exact ⟨h.isOpen, h.bound, h.mem_iff, hputs.trans h.balance⟩
    dsimp only [call, happens]
    cases hturn : b.buffer.getDue c interval lastSent now with
    | returns q => exact accounts_without h (LatestValueBuffer.getDue_eq_returns hturn).1 rfl
    | waits timeout => exact hwaits
    | cancelled => exact hwaits

/-- The accounts of every run. -/
theorem accounts_after {maxItems_pos : 0 < maxItems} :
    Accounts maxItems (after c (new maxItems maxItems_pos) calls) calls
      (history (new maxItems maxItems_pos) c calls) := by
  induction calls using List.reverseRecOn with
  | nil =>
    refine ⟨rfl, rfl, fun e => iff_of_false List.not_mem_nil fun h => ?_, rfl⟩
    exact nomatch h
  | append_singleton calls a ih =>
    have hhistory : history (new maxItems maxItems_pos) c (calls ++ [a]) =
        history (new maxItems maxItems_pos) c calls ++
          (after c (new maxItems maxItems_pos) calls).happens c a := by
      unfold history
      rw [outputs_concat, List.flatten_concat]
      rfl
    have hafter : after c (new maxItems maxItems_pos) (calls ++ [a]) =
        ((after c (new maxItems maxItems_pos) calls).call c a).1 := final_concat
    rw [hhistory, hafter]
    exact accounts_call ih

/-- After every list of calls of `put` and `get_due`, the buffer holds one quote for each symbol at
most, and that is the last one that was put for it, if it has been neither popped nor evicted since.
There are no more than `max_items`. Each quote that was put has been popped, coalesced or dropped,
or is there. The next `put` keeps the quote that it is given; it evicts nothing, or, if a new symbol
meets a full buffer, the one quote that has been received first. -/
theorem keeps_newest (maxItems : ℕ) (maxItems_pos : 0 < maxItems) (calls : List (Call T)) :
    let b := after c (new maxItems maxItems_pos) calls
    let log := history (new maxItems maxItems_pos) c calls
    (b.events.map symbolOf).Nodup ∧
    (∀ e, e ∈ b.events ↔ lastOf log (symbolOf e) = some (.put e)) ∧
    b.depth ≤ maxItems ∧
    calls.countP Call.isPut = log.countP Event.isPopped + b.coalesced + b.dropped + b.depth ∧
    ∀ q, q ∈ (b.put q).1.events ∧
      (b.evicted q = [] ∨ symbolOf q ∉ b.events.map symbolOf ∧ b.depth = maxItems ∧
        ∃ oldest ∈ b.events, b.evicted q = [oldest] ∧
          ∀ e ∈ b.events, receivedAt oldest ≤ receivedAt e) := by
  intro b log
  have h : Accounts maxItems b calls log := accounts_after
  have hdepth : b.depth ≤ b.buffer.maxItems := b.buffer.length_le
  refine ⟨b.buffer.nodup, h.mem_iff, ?_, h.balance, fun q => ⟨mem_put_self h.isOpen, ?_⟩⟩
  · rwa [h.bound] at hdepth
  · have hcases := @evicted_cases b q h.isOpen
    rwa [h.bound] at hcases

/-- The buffer of two, with quotes of one symbol. -/
theorem keeps_newest_sample :
    let calls := [Call.put Models.sample, .put Models.sample, .getDue 1 (fun _ => none) 5]
    calls.countP Call.isPut =
      (history (new 2 two_pos) Seconds.exact calls).countP Event.isPopped +
        (after Seconds.exact (new 2 two_pos) calls).coalesced +
        (after Seconds.exact (new 2 two_pos) calls).dropped +
        (after Seconds.exact (new 2 two_pos) calls).depth :=
  (keeps_newest 2 two_pos _).2.2.2.1

end CountedBuffer

end MarketDataGateway.Session

import MarketDataGateway.Hot.Keys

/-!
# `cache_quote`

`RedisStore.cache_quote` of `storage.py` as a process: between two of its Redis commands, which take
effect at once, any other process may take steps. A call either finds the minute of its quote beyond
retention, and sets the latest quote only, or it repeats `WATCH`, `GET`, `EXEC` until the
transaction is executed or the attempts are used up.

`cacheStep_effect` says all that a step can do to the keys: a step of a call that does not return
leaves them, and a call returns by one step, which sets the latest quote or executes the
transaction.

`KeysInv` is what holds of the keys between steps, and `CacheOk` what a call relies on while others
take steps (`CacheOk.mono`): the value that it is about to store has the quotes that it has read and
its own, and as long as the candle's key has not been modified, what it has read is what is there.
-/

namespace MarketDataGateway.Hot

open Lib

/-- The program counter of a call of `cache_quote`: the next command. -/
inductive CachePc
  /-- The call reads the clock. -/
  | start
  /-- `SET` of the latest quote only. -/
  | setLatest
  /-- `WATCH`. The call has read the time `now`, and has `left` more attempts after this one. -/
  | watch (now : Timestamp) (left : ℕ)
  /-- `GET`. The candle's key had been modified `version` times when the watch began. -/
  | get (now : Timestamp) (left version : ℕ)
  /-- `EXEC`, to store `value`. -/
  | exec (now : Timestamp) (left version : ℕ) (value : CandleValue)
  /-- The call has returned; `late` if the quote's minute was beyond retention. -/
  | returned (late : Bool)
  /-- The call has raised. -/
  | raised (err : PyError)

/-- Whether the call has returned. -/
def CachePc.isReturned : CachePc → Bool
  | .returned _ => true
  | _ => false

/-- The error of a call whose attempts are used up. -/
def retriesExhausted (cfg : Settings) (event : QuoteEvent) : PyError :=
  .runtimeError ("failed to update candle for " ++ event.symbol ++ " after " ++
    toString cfg.candleUpdateRetryLimit ++ " optimistic retries")

/-- The next attempt, if there is one. -/
def attempt (cfg : Settings) (event : QuoteEvent) (now : Timestamp) : ℕ → CachePc
  | 0 => .raised (retriesExhausted cfg event)
  | left + 1 => .watch now left

/-- The candle that a call stores, given the reply of its `GET`. -/
def nextValue (event : QuoteEvent) : Option CandleKey → Except PyError CandleValue
  | none => .ok (.fromQuote event)
  | some cell => cell.value.withQuote event

/-- One step of `cache_quote(event)`, at the time `clock`. -/
def cacheStep (cfg : Settings) (clock : Timestamp) (keys : HotKeys) (event : QuoteEvent) :
    CachePc → Option (HotKeys × CachePc)
  | .start =>
    if retentionDeadline cfg (minuteOf event) ≤ clock then some (keys, .setLatest)
    else some (keys, attempt cfg event clock cfg.candleUpdateRetryLimit)
  | .setLatest => some ({ keys with latest := some event }, .returned true)
  | .watch now left => some (keys, .get now left (keys.candles.version (minuteOf event)))
  | .get now left version =>
    match nextValue event (keys.candles.value (minuteOf event)) with
    | .error err => some (keys, .raised err)
    | .ok value => some (keys, .exec now left version value)
  | .exec now left version value =>
    if keys.candles.version (minuteOf event) = version then
      some (keys.commit cfg clock event now value, .returned false)
    else some (keys, attempt cfg event now left)
  | .returned _ => none
  | .raised _ => none

/-! ## What a step does -/

section Effect

variable {cfg : Settings} {clock : Timestamp} {keys keys' : HotKeys} {event : QuoteEvent}
  {pc pc' : CachePc}

/-- The next attempt is no return. -/
@[simp] theorem attempt_isReturned (cfg : Settings) (event : QuoteEvent) (now : Timestamp)
    (left : ℕ) : (attempt cfg event now left).isReturned = false := by
  cases left <;> rfl

/-- What a step can do to the keys. -/
theorem cacheStep_effect (h : cacheStep cfg clock keys event pc = some (keys', pc')) :
    (keys' = keys ∧ pc'.isReturned = false) ∨
    (pc = .setLatest ∧ keys' = { keys with latest := some event } ∧ pc' = .returned true) ∨
    (∃ now left value, pc = .exec now left (keys.candles.version (minuteOf event)) value ∧
      keys' = keys.commit cfg clock event now value ∧ pc' = .returned false) := by
  cases pc with
  | start =>
    left
    rw [cacheStep] at h
    split_ifs at h
    · obtain ⟨rfl, rfl⟩ := Prod.mk.inj (Option.some.inj h)
      exact ⟨rfl, rfl⟩
    · obtain ⟨rfl, rfl⟩ := Prod.mk.inj (Option.some.inj h)
      exact ⟨rfl, attempt_isReturned _ _ _ _⟩
  | setLatest =>
    obtain ⟨rfl, rfl⟩ := Prod.mk.inj (Option.some.inj h)
    exact Or.inr (Or.inl ⟨rfl, rfl, rfl⟩)
  | watch now left =>
    obtain ⟨rfl, rfl⟩ := Prod.mk.inj (Option.some.inj h)
    exact Or.inl ⟨rfl, rfl⟩
  | get now left version =>
    left
    rw [cacheStep] at h
    split at h
    · obtain ⟨rfl, rfl⟩ := Prod.mk.inj (Option.some.inj h)
      exact ⟨rfl, rfl⟩
    · obtain ⟨rfl, rfl⟩ := Prod.mk.inj (Option.some.inj h)
      exact ⟨rfl, rfl⟩
  | exec now left version value =>
    rw [cacheStep] at h
    split_ifs at h with hver
    · -- The key has not been modified since the watch began.
      obtain ⟨rfl, rfl⟩ := Prod.mk.inj (Option.some.inj h)
      exact Or.inr (Or.inr ⟨now, left, value, by rw [hver], rfl, rfl⟩)
    · obtain ⟨rfl, rfl⟩ := Prod.mk.inj (Option.some.inj h)
      exact Or.inl ⟨rfl, attempt_isReturned _ _ _ _⟩
  | returned late => cases h
  | raised err => cases h

/-- A step after which the call has not returned leaves the keys. -/
theorem cacheStep_keys_eq (h : cacheStep cfg clock keys event pc = some (keys', pc'))
    (hpc : pc'.isReturned = false) : keys' = keys := by
  rcases cacheStep_effect h with ⟨hkeys, -⟩ | ⟨-, -, rfl⟩ | ⟨now, left, value, -, -, rfl⟩
  · exact hkeys
  · cases hpc
  · cases hpc

end Effect

/-! ## What holds of the keys -/

namespace HotKeys

variable (keys : HotKeys)

/-- The quotes of the stored candle of the minute `m`, the last one first; none if there is no
candle. -/
def quotesAt (m : Timestamp) : List QuoteEvent :=
  (keys.candles.value m).elim [] fun cell => cell.value.quotes

/-- The quotes of the minute `m` that transactions have taken in, the last one first. -/
def committedAt (m : Timestamp) : List QuoteEvent := minuteQuotes m keys.committed

end HotKeys

/-- What holds of the keys of `symbol` at the time `clock`. -/
structure KeysInv (cfg : Settings) (symbol : Symbol) (clock : Timestamp) (keys : HotKeys) :
    Prop where
  /-- The quotes are of the symbol. -/
  symbol_eq : ∀ q ∈ keys.committed, q.symbol = symbol
  /-- A stored candle has quotes of its minute that transactions have taken in, each of them
  once. -/
  stored : ∀ m, (keys.quotesAt m).Sublist (keys.committedAt m)
  /-- As long as its key has never expired, it has them all. -/
  complete : ∀ m, keys.lost m = false → keys.quotesAt m = keys.committedAt m
  /-- A candle's key lasts up to the retention deadline at least. -/
  alive : ∀ m cell, keys.candles.value m = some cell →
    retentionDeadline cfg m ≤ cell.expiresAt
  /-- So it has not expired before. -/
  deadline_le : ∀ m, keys.lost m = true → retentionDeadline cfg m ≤ clock
  /-- A minute's score is the minute. -/
  index_score : keys.index.ScoredBy fun m => m
  /-- The index lists minutes with a quote. -/
  index_committed : ∀ m ∈ keys.index, keys.committedAt m ≠ []
  /-- It lists them all up to their retention deadline, but for those it has lost by expiring. -/
  indexed : ∀ m, keys.committedAt m ≠ [] → clock < retentionDeadline cfg m →
    keys.unlisted m = false → m ∈ keys.index

/-- What a call relies on, its next command being that of the program counter. -/
def CacheOk (cfg : Settings) (clock : Timestamp) (keys : HotKeys) (event : QuoteEvent) :
    CachePc → Prop
  | .watch now _ => now ≤ clock ∧ now < retentionDeadline cfg (minuteOf event)
  | .get now _ version => now ≤ clock ∧ now < retentionDeadline cfg (minuteOf event) ∧
      version ≤ keys.candles.version (minuteOf event)
  | .exec now _ version value => now ≤ clock ∧ now < retentionDeadline cfg (minuteOf event) ∧
      ∃ read : Option CandleKey, Snapshot.Valid keys.candles ⟨minuteOf event, version, read⟩ ∧
        value.quotes = event :: read.elim [] fun cell => cell.value.quotes
  | .raised err => err = retriesExhausted cfg event
  | _ => True

/-- What a client remembers of watched keys is as good after as before, and no quote is
forgotten. -/
structure Evolves (keys keys' : HotKeys) : Prop where
  committed_suffix : keys.committed <:+ keys'.committed
  version_le : ∀ m, keys.candles.version m ≤ keys'.candles.version m
  valid : ∀ sn : Snapshot Timestamp CandleKey, sn.Valid keys.candles → sn.Valid keys'.candles

section Inv

variable {cfg : Settings} {symbol : Symbol} {clock clock' now : Timestamp} {keys keys' : HotKeys}
  {event : QuoteEvent} {value : CandleValue} {pc pc' : CachePc} {m : Timestamp}

/-- Changes of other keys do not matter to a watch. -/
theorem Evolves.of_candles_eq (h : keys'.candles = keys.candles)
    (hcommitted : keys'.committed = keys.committed) : Evolves keys keys' := by
  refine ⟨hcommitted ▸ List.suffix_refl _, ?_, ?_⟩
  · intro m
    rw [h]
  · intro sn hsn
    rwa [h]

/-- Nothing happens to the keys. -/
theorem Evolves.refl (keys : HotKeys) : Evolves keys keys := .of_candles_eq rfl rfl

/-- A commit is a change of the keys. -/
theorem evolves_commit (cfg : Settings) (clock : Timestamp) (keys : HotKeys) (event : QuoteEvent)
    (now : Timestamp) (value : CandleValue) :
    Evolves keys (keys.commit cfg clock event now value) :=
  ⟨List.suffix_cons _ _, fun _ => WatchedStore.version_le_put, fun _ h => h.put _ _⟩

/-- To expire is a change of the keys. -/
theorem evolves_expire (clock : Timestamp) (keys : HotKeys) : Evolves keys (keys.expire clock) :=
  ⟨List.suffix_refl _, fun _ => WatchedStore.version_le_retain, fun _ h => h.retain _⟩

/-- What a call relies on is kept by the steps of others, and by time. -/
theorem CacheOk.mono (h : CacheOk cfg clock keys event pc) (hkeys : Evolves keys keys')
    (hclock : clock ≤ clock') : CacheOk cfg clock' keys' event pc := by
  cases pc with
  | watch now left => exact ⟨h.1.trans hclock, h.2⟩
  | get now left version =>
    obtain ⟨hnow, hlt, hver⟩ := h
    exact ⟨hnow.trans hclock, hlt, hver.trans (hkeys.version_le _)⟩
  | exec now left version value =>
    obtain ⟨hnow, hlt, read, hvalid, hquotes⟩ := h
    exact ⟨hnow.trans hclock, hlt, read, hkeys.valid _ hvalid, hquotes⟩
  | raised err => exact h
  | start => trivial
  | setLatest => trivial
  | returned late => trivial

/-- There is nothing to rely on before the next attempt but that the time is read. -/
theorem cacheOk_attempt (hnow : now ≤ clock) (hlt : now < retentionDeadline cfg (minuteOf event))
    (left : ℕ) : CacheOk cfg clock keys event (attempt cfg event now left) := by
  cases left with
  | zero => exact rfl
  | succ left => exact ⟨hnow, hlt⟩

/-! ### Commits -/

/-- A transaction takes its quote into the minute of the quote. -/
theorem committedAt_commit : (keys.commit cfg clock event now value).committedAt m =
    if minuteOf event = m then event :: keys.committedAt m else keys.committedAt m := by
  unfold HotKeys.committedAt HotKeys.commit minuteQuotes
  rw [List.filter_cons]
  simp only [decide_eq_true_eq]

/-- A transaction stores its value. -/
theorem quotesAt_commit_self :
    (keys.commit cfg clock event now value).quotesAt (minuteOf event) = value.quotes := by
  unfold HotKeys.quotesAt HotKeys.commit
  rw [WatchedStore.put_value]
  rfl

/-- A commit leaves the quotes of the other minutes. -/
theorem quotesAt_commit_of_ne (h : m ≠ minuteOf event) :
    (keys.commit cfg clock event now value).quotesAt m = keys.quotesAt m := by
  unfold HotKeys.quotesAt HotKeys.commit
  rw [WatchedStore.put_value_of_ne h]

/-- A transaction adds its minute to the index and trims the minutes beyond retention. -/
theorem mem_index_commit (hscore : keys.index.ScoredBy fun m => m) :
    m ∈ (keys.commit cfg clock event now value).index ↔
      (m = minuteOf event ∨ m ∈ keys.index) ∧ now < retentionDeadline cfg m := by
  have hscore' : (keys.index.zadd (minuteOf event) (minuteOf event)).ScoredBy fun m => m :=
    hscore.zadd (minuteOf event)
  unfold HotKeys.commit
  rw [hscore'.mem_zremrangebyscore, SortedSet.mem_zadd, ← not_le, le_expiredBucketScore_iff, not_le]

/-- The transaction of a call that has found the minute within retention, and whose value has the
quotes of the stored candle and its own, keeps the invariant. -/
theorem KeysInv.commit (h : KeysInv cfg symbol clock keys) (hsym : event.symbol = symbol)
    (hnow : now ≤ clock) (hlt : now < retentionDeadline cfg (minuteOf event))
    (hquotes : value.quotes = event :: keys.quotesAt (minuteOf event)) :
    KeysInv cfg symbol clock (keys.commit cfg clock event now value) where
  symbol_eq q hq := by
    rcases List.mem_cons.1 hq with rfl | hq
    · exact hsym
    · exact h.symbol_eq q hq
  stored m := by
    rw [committedAt_commit]
    split_ifs with hm
    · -- The quote joins its own minute.
      rw [← hm, quotesAt_commit_self, hquotes]
      exact (h.stored _).cons_cons _
    · rw [quotesAt_commit_of_ne (Ne.symm hm)]
      exact h.stored m
  complete m hlost := by
    have hcomplete := h.complete m hlost
    rw [committedAt_commit]
    split_ifs with hm
    · subst hm
      rw [quotesAt_commit_self, hquotes, hcomplete]
    · rw [quotesAt_commit_of_ne (Ne.symm hm), hcomplete]
  alive m cell hcell := by
    by_cases hm : m = minuteOf event
    · -- `ttl_seconds` reaches up to the deadline.
      subst hm
      have hput : some (⟨value, clock + ttlSeconds cfg (minuteOf event) now * second⟩ : CandleKey) =
          some cell := WatchedStore.put_value.symm.trans hcell
      rw [← Option.some.inj hput]
      exact retentionDeadline_le_expiry hnow
    · exact h.alive m cell ((WatchedStore.put_value_of_ne hm).symm.trans hcell)
  deadline_le := h.deadline_le
  index_score := (h.index_score.zadd (minuteOf event)).keep _
  index_committed m hm := by
    rw [committedAt_commit]
    rcases (mem_index_commit h.index_score).1 hm with ⟨rfl | hm, -⟩
    · rw [if_pos rfl]
      exact List.cons_ne_nil _ _
    · split_ifs
      · exact List.cons_ne_nil _ _
      · exact h.index_committed m hm
  indexed m hne hdeadline hlisted := by
    refine (mem_index_commit h.index_score).2 ⟨?_, hnow.trans_lt hdeadline⟩
    by_cases hm : m = minuteOf event
    · exact Or.inl hm
    · -- Another minute was in the index before.
      rw [committedAt_commit, if_neg (Ne.symm hm)] at hne
      have hlisted' : keys.unlisted m = false :=
        (Function.update_of_ne hm _ _).symm.trans hlisted
      exact Or.inr (h.indexed m hne hdeadline hlisted')

/-! ### The other changes of the keys -/

/-- The invariant holds of no keys. -/
theorem keysInv_empty (cfg : Settings) (symbol : Symbol) (clock : Timestamp) :
    KeysInv cfg symbol clock .empty where
  symbol_eq q hq := absurd hq List.not_mem_nil
  stored m := List.Sublist.refl _
  complete m _ := rfl
  alive m cell hcell := by cases hcell
  deadline_le m hm := by cases hm
  index_score := SortedSet.scoredBy_empty _
  index_committed m hm := absurd hm (SortedSet.not_mem_empty m)
  indexed m hne := absurd rfl hne

/-- The latest quote does not matter. -/
theorem KeysInv.setLatest (h : KeysInv cfg symbol clock keys) (latest : Option QuoteEvent) :
    KeysInv cfg symbol clock { keys with latest := latest } :=
  ⟨h.symbol_eq, h.stored, h.complete, h.alive, h.deadline_le, h.index_score, h.index_committed,
    h.indexed⟩

/-- Minutes beyond retention may go from the index. -/
theorem KeysInv.putIndex (h : KeysInv cfg symbol clock keys) (p : Timestamp × ℤ → Bool)
    (hkeep : ∀ m ∈ keys.index, clock < retentionDeadline cfg m → m ∈ keys.index.keep p) :
    KeysInv cfg symbol clock (keys.putIndex (keys.index.keep p)) where
  symbol_eq := h.symbol_eq
  stored := h.stored
  complete := h.complete
  alive := h.alive
  deadline_le := h.deadline_le
  index_score := h.index_score.keep p
  index_committed m hm := h.index_committed m (SortedSet.mem_of_mem_keep hm)
  indexed m hne hdeadline hlisted := hkeep m (h.indexed m hne hdeadline hlisted) hdeadline

/-- A stored candle that is lost was stored. -/
theorem quotesAt_expire (keys : HotKeys) (clock' : Timestamp) (m : Timestamp) :
    (keys.expire clock').quotesAt m = keys.quotesAt m ∨ (keys.expire clock').quotesAt m = [] := by
  unfold HotKeys.quotesAt HotKeys.expire WatchedStore.retain
  dsimp only
  cases keys.candles.value m with
  | none => exact Or.inl rfl
  | some cell =>
    by_cases hp : clock' < cell.expiresAt
    · left
      simp [Option.filter, hp]
    · right
      simp [Option.filter, hp]

/-- Time may pass. -/
theorem KeysInv.expire (h : KeysInv cfg symbol clock keys) (hclock : clock ≤ clock') :
    KeysInv cfg symbol clock' (keys.expire clock') where
  symbol_eq := h.symbol_eq
  stored m := by
    change List.Sublist _ (keys.committedAt m)
    rcases quotesAt_expire keys clock' m with heq | hnil
    · rw [heq]
      exact h.stored m
    · rw [hnil]
      exact List.nil_sublist _
  complete m hlost := by
    -- The key of a minute that is not lost has not expired now either.
    change _ = keys.committedAt m
    obtain ⟨hlost, hkept⟩ := Bool.or_eq_false_iff.1 hlost
    rw [← h.complete m hlost]
    unfold HotKeys.quotesAt HotKeys.expire
    cases hval : keys.candles.value m with
    | none => simp [WatchedStore.retain, hval]
    | some cell =>
      have hp : clock' < cell.expiresAt := by simpa [hval] using hkept
      rw [WatchedStore.retain_value_of_pos hval (by simpa using hp)]
  alive m cell hcell := h.alive m cell (WatchedStore.value_of_retain hcell).1
  deadline_le m hlost := by
    rcases Bool.or_eq_true_iff.1 hlost with hlost | hgone
    · exact (h.deadline_le m hlost).trans hclock
    · -- A key that expires now was to last up to the deadline.
      obtain ⟨cell, hval, hexp⟩ := (Option.any_eq_true _ _).1 hgone
      exact (h.alive m cell hval).trans (of_decide_eq_true hexp)
  index_score := by
    unfold HotKeys.expire
    dsimp only
    split_ifs
    · exact SortedSet.scoredBy_empty _
    · exact h.index_score
  index_committed m hm := by
    unfold HotKeys.expire at hm
    dsimp only at hm
    split_ifs at hm
    · exact absurd hm (SortedSet.not_mem_empty m)
    · exact h.index_committed m hm
  indexed m hne hdeadline hlisted := by
    obtain ⟨hlisted, hgone⟩ := Bool.or_eq_false_iff.1 hlisted
    have hmem : m ∈ keys.index := h.indexed m hne (hclock.trans_lt hdeadline) hlisted
    have hkey : keys.indexExpiresAt.any (· ≤ clock') = false := by
      simpa [hmem] using hgone
    change m ∈ if keys.indexExpiresAt.any (· ≤ clock') then SortedSet.empty else keys.index
    rw [hkey]
    exact hmem

/-! ### The steps of a call -/

/-- The candle that a call computes has the quotes of the one that it has read, and its own. -/
theorem nextValue_quotes {read : Option CandleKey} (h : nextValue event read = .ok value) :
    value.quotes = event :: read.elim [] fun cell => cell.value.quotes := by
  cases read with
  | none =>
    rw [← Except.ok.inj h]
    rfl
  | some cell => exact CandleValue.withQuote_quotes h

/-- The candle stored under the minute of a quote takes in the quote. -/
theorem KeysInv.exists_nextValue (h : KeysInv cfg symbol clock keys)
    (hsym : event.symbol = symbol) :
    ∃ value, nextValue event (keys.candles.value (minuteOf event)) = .ok value := by
  cases hval : keys.candles.value (minuteOf event) with
  | none => exact ⟨_, rfl⟩
  | some cell =>
    refine CandleValue.exists_withQuote fun q hq => ?_
    have hq' : q ∈ keys.committedAt (minuteOf event) := by
      refine (h.stored _).subset ?_
      rw [HotKeys.quotesAt, hval]
      exact hq
    obtain ⟨hcommitted, hminute⟩ := List.mem_filter.1 hq'
    exact ⟨(h.symbol_eq q hcommitted).trans hsym.symm, of_decide_eq_true hminute⟩

/-- A step of a call keeps the invariant of the keys, what the call relies on, and what others
do. -/
theorem cacheStep_inv (h : KeysInv cfg symbol clock keys) (hsym : event.symbol = symbol)
    (hok : CacheOk cfg clock keys event pc)
    (hstep : cacheStep cfg clock keys event pc = some (keys', pc')) :
    KeysInv cfg symbol clock keys' ∧ CacheOk cfg clock keys' event pc' ∧ Evolves keys keys' := by
  cases pc with
  | start =>
    rw [cacheStep] at hstep
    split_ifs at hstep with hlate
    · obtain ⟨rfl, rfl⟩ := Prod.mk.inj (Option.some.inj hstep)
      exact ⟨h, trivial, .refl _⟩
    · obtain ⟨rfl, rfl⟩ := Prod.mk.inj (Option.some.inj hstep)
      exact ⟨h, cacheOk_attempt (le_refl _) (not_le.1 hlate) _, .refl _⟩
  | setLatest =>
    obtain ⟨rfl, rfl⟩ := Prod.mk.inj (Option.some.inj hstep)
    exact ⟨h.setLatest _, trivial, .of_candles_eq rfl rfl⟩
  | watch now left =>
    obtain ⟨rfl, rfl⟩ := Prod.mk.inj (Option.some.inj hstep)
    exact ⟨h, ⟨hok.1, hok.2, le_refl _⟩, .refl _⟩
  | get now left version =>
    obtain ⟨hnow, hlt, hver⟩ := hok
    -- `with_quote` does not raise: the stored candle is of the event's symbol and minute.
    obtain ⟨value, hvalue⟩ := h.exists_nextValue hsym
    rw [cacheStep, hvalue] at hstep
    obtain ⟨rfl, rfl⟩ := Prod.mk.inj (Option.some.inj hstep)
    refine ⟨h, ⟨hnow, hlt, _, Snapshot.valid_of_read _ _ hver, nextValue_quotes hvalue⟩, .refl _⟩
  | exec now left version value =>
    obtain ⟨hnow, hlt, read, hvalid, hquotes⟩ := hok
    rw [cacheStep] at hstep
    split_ifs at hstep with hver
    · -- The check has passed: what the call has read is what is there.
      obtain ⟨rfl, rfl⟩ := Prod.mk.inj (Option.some.inj hstep)
      have hread : read = keys.candles.value (minuteOf event) := hvalid.read_eq hver.symm
      rw [hread] at hquotes
      exact ⟨h.commit hsym hnow hlt hquotes, trivial, evolves_commit _ _ _ _ _ _⟩
    · -- `WatchError`: the next attempt, or none is left.
      obtain ⟨rfl, rfl⟩ := Prod.mk.inj (Option.some.inj hstep)
      exact ⟨h, cacheOk_attempt hnow hlt _, .refl _⟩
  | returned late => cases hstep
  | raised err => cases hstep

end Inv

end MarketDataGateway.Hot

import MarketDataGateway.Hot.GetCandles
import MarketDataGateway.Lib.Transition
import MarketDataGateway.Lib.Processes

/-!
# Runs of the hot store

Any number of calls of `cache_quote` and `get_candles` for one symbol, whose steps interleave in any
order while the clock advances and keys expire. `Inv` is the invariant of all runs.
-/

namespace MarketDataGateway.Hot

open Lib

/-- A call of `cache_quote`. -/
structure CacheCall where
  /-- `event`. -/
  event : QuoteEvent
  /-- The program counter. -/
  pc : CachePc

/-- The state of the store and its clients. -/
structure State where
  /-- The clock. -/
  now : Timestamp
  /-- The keys of the symbol. -/
  keys : HotKeys
  /-- The calls of `cache_quote` made so far, ended ones included. -/
  caches : List CacheCall
  /-- The calls of `get_candles` made so far, ended ones included. -/
  gets : List GetCall

/-- No call, and no key. -/
def State.init (now : Timestamp) : State := ⟨now, .empty, [], []⟩

/-- A step of the system. -/
inductive Label
  /-- `cache_quote(event)` is called. -/
  | startCache (event : QuoteEvent)
  /-- `get_candles` is called. -/
  | startGet (timeframe : CandleTimeframe) (limit : ℤ) («end» : Timestamp)
  /-- The `i`-th call of `cache_quote` takes a step. -/
  | cache (i : ℕ)
  /-- The `i`-th call of `get_candles` takes a step. -/
  | get (i : ℕ)
  /-- The clock advances by `d` microseconds, and keys expire. -/
  | tick (d : ℕ)

/-- The steps of the system, for the keys of `symbol`. -/
def step (cfg : Settings) (symbol : Symbol) (st : State) : Label → Option State
  | .startCache event =>
    if event.symbol = symbol then some { st with caches := st.caches ++ [⟨event, .start⟩] }
    else none
  | .startGet timeframe limit «end» =>
    some { st with gets := st.gets ++
      [⟨timeframe, limit, «end», st.now, st.keys.committed, .start⟩] }
  | .cache i =>
    st.caches[i]?.bind fun call =>
      (cacheStep cfg st.now st.keys call.event call.pc).map fun r =>
        { st with keys := r.1, caches := st.caches.set i ⟨call.event, r.2⟩ }
  | .get i =>
    st.gets[i]?.bind fun g =>
      (getStep cfg symbol st.now st.keys g).map fun r =>
        { st with keys := r.1, gets := st.gets.set i { g with pc := r.2 } }
  | .tick d => some { st with now := st.now + d, keys := st.keys.expire (st.now + d) }

/-- The quote of a call whose transaction has been executed. -/
def CacheCall.takenIn (call : CacheCall) : Option QuoteEvent :=
  match call.pc with
  | .returned false => some call.event
  | _ => none

/-- The invariant of all runs. -/
structure Inv (cfg : Settings) (symbol : Symbol) (st : State) : Prop where
  keys : KeysInv cfg symbol st.now st.keys
  /-- The calls of `cache_quote` are for the symbol, and can rely on what they know. -/
  caches : ∀ call ∈ st.caches, call.event.symbol = symbol ∧
    CacheOk cfg st.now st.keys call.event call.pc
  /-- So can those of `get_candles`. -/
  gets : ∀ g ∈ st.gets, GetOk cfg st.now st.keys g.pc
  /-- The quotes that transactions have taken in are those of the calls that have returned so. -/
  committed : st.keys.committed.Perm (st.caches.filterMap CacheCall.takenIn)

section Step

variable {cfg : Settings} {symbol : Symbol} {st st' : State} {i : ℕ}

/-- A step of a call of `cache_quote`. -/
theorem step_cache (h : step cfg symbol st (.cache i) = some st') :
    ∃ call keys' pc', st.caches[i]? = some call ∧
      cacheStep cfg st.now st.keys call.event call.pc = some (keys', pc') ∧
      st' = { st with keys := keys', caches := st.caches.set i ⟨call.event, pc'⟩ } := by
  obtain ⟨call, hi, hstep⟩ := Option.bind_eq_some_iff.1 h
  obtain ⟨⟨keys', pc'⟩, hr, rfl⟩ := Option.map_eq_some_iff.1 hstep
  exact ⟨call, keys', pc', hi, hr, rfl⟩

/-- A step of a call of `get_candles`. -/
theorem step_get (h : step cfg symbol st (.get i) = some st') :
    ∃ g keys' pc', st.gets[i]? = some g ∧
      getStep cfg symbol st.now st.keys g = some (keys', pc') ∧
      st' = { st with keys := keys', gets := st.gets.set i { g with pc := pc' } } := by
  obtain ⟨g, hi, hstep⟩ := Option.bind_eq_some_iff.1 h
  obtain ⟨⟨keys', pc'⟩, hr, rfl⟩ := Option.map_eq_some_iff.1 hstep
  exact ⟨g, keys', pc', hi, hr, rfl⟩

/-- What the calls rely on is kept by what happens to the keys, and by time. -/
theorem Inv.evolves (h : Inv cfg symbol st) {now' : Timestamp} {keys' : HotKeys}
    (hkeys : Evolves st.keys keys') (hnow : st.now ≤ now') :
    (∀ call ∈ st.caches, call.event.symbol = symbol ∧
      CacheOk cfg now' keys' call.event call.pc) ∧
    ∀ g ∈ st.gets, GetOk cfg now' keys' g.pc := by
  refine ⟨fun call hcall => ?_, fun g hg => (h.gets g hg).mono hkeys hnow⟩
  obtain ⟨hsym, hok⟩ := h.caches call hcall
  exact ⟨hsym, hok.mono hkeys hnow⟩

/-- A step of a call of `cache_quote` adds its quote to those taken in exactly if it executes the
transaction. -/
theorem committed_cacheStep {call : CacheCall} {keys' : HotKeys} {pc' : CachePc}
    (h : st.keys.committed.Perm (st.caches.filterMap CacheCall.takenIn))
    (hi : st.caches[i]? = some call)
    (hstep : cacheStep cfg st.now st.keys call.event call.pc = some (keys', pc')) :
    keys'.committed.Perm ((st.caches.set i ⟨call.event, pc'⟩).filterMap CacheCall.takenIn) := by
  have hbefore : call.takenIn = none := by
    unfold CacheCall.takenIn
    split
    · next hpc =>
      rw [hpc] at hstep
      cases hstep
    · rfl
  rcases cacheStep_effect hstep with ⟨rfl, hpc⟩ | ⟨-, rfl, rfl⟩ | ⟨now, left, value, -, rfl, rfl⟩
  · -- The keys stay, and the call has not returned with a transaction.
    have hafter : CacheCall.takenIn ⟨call.event, pc'⟩ = call.takenIn := by
      rw [hbefore]
      cases pc' with
      | returned late => cases hpc
      | _ => rfl
    rw [filterMap_set_eq hi hafter]
    exact h
  · -- `SET` of the latest quote: the call returns that the minute is beyond retention.
    rw [filterMap_set_eq hi (y := ⟨call.event, .returned true⟩) hbefore.symm]
    exact h
  · -- The transaction.
    exact (h.cons call.event).trans (filterMap_set_perm hi hbefore rfl).symm

/-- Every step keeps the invariant. -/
theorem inv_step {a : Label} (h : Inv cfg symbol st) (hstep : step cfg symbol st a = some st') :
    Inv cfg symbol st' := by
  cases a with
  | startCache event =>
    rw [step] at hstep
    split_ifs at hstep with hsym
    obtain rfl := Option.some.inj hstep
    refine ⟨h.keys, fun call hcall => ?_, h.gets, ?_⟩
    · rcases List.mem_append.1 hcall with hcall | hcall
      · exact h.caches call hcall
      · rw [List.mem_singleton.1 hcall]
        exact ⟨hsym, trivial⟩
    · have hnew : [(⟨event, .start⟩ : CacheCall)].filterMap CacheCall.takenIn = [] := rfl
      rw [List.filterMap_append, hnew, List.append_nil]
      exact h.committed
  | startGet timeframe limit «end» =>
    obtain rfl := Option.some.inj hstep
    refine ⟨h.keys, h.caches, fun g hg => ?_, h.committed⟩
    rcases List.mem_append.1 hg with hg | hg
    · exact h.gets g hg
    · rw [List.mem_singleton.1 hg]
      trivial
  | cache i =>
    obtain ⟨call, keys', pc', hi, hcache, rfl⟩ := step_cache hstep
    obtain ⟨hsym, hok⟩ := h.caches call (List.mem_of_getElem? hi)
    obtain ⟨hkeys, hok', hevolves⟩ := cacheStep_inv h.keys hsym hok hcache
    -- The other calls can still rely on what they know.
    obtain ⟨hcaches, hgets⟩ := h.evolves hevolves (le_refl _)
    exact ⟨hkeys, forall_mem_set hcaches ⟨hsym, hok'⟩, hgets,
      committed_cacheStep h.committed hi hcache⟩
  | get i =>
    obtain ⟨g, keys', pc', hi, hget, rfl⟩ := step_get hstep
    have hok := h.gets g (List.mem_of_getElem? hi)
    obtain ⟨hkeys, hok', hcandles, hcommitted⟩ := getStep_inv h.keys hok hget
    -- A read changes the index at most.
    obtain ⟨hcaches, hgets⟩ := h.evolves (.of_candles_eq hcandles hcommitted) (le_refl _)
    refine ⟨hkeys, hcaches, forall_mem_set hgets hok', ?_⟩
    rw [hcommitted]
    exact h.committed
  | tick d =>
    obtain rfl := Option.some.inj hstep
    have hnow : st.now ≤ st.now + d := by lia
    obtain ⟨hcaches, hgets⟩ := h.evolves (evolves_expire (st.now + d) st.keys) hnow
    exact ⟨h.keys.expire hnow, hcaches, hgets, h.committed⟩

end Step

/-- The invariant holds of the keys when there are none. -/
theorem inv_init (cfg : Settings) (symbol : Symbol) (t₀ : Timestamp) :
    Inv cfg symbol (.init t₀) where
  keys := keysInv_empty cfg symbol t₀
  caches _ hcall := absurd hcall List.not_mem_nil
  gets _ hg := absurd hg List.not_mem_nil
  committed := List.Perm.refl _

/-- The invariant holds in every reachable state. -/
theorem inv_of_path {cfg : Settings} {symbol : Symbol} {t₀ : Timestamp} {st : State}
    (h : Path (step cfg symbol) anyStep (.init t₀) st) : Inv cfg symbol st :=
  h.invariant (Inv cfg symbol) (inv_init cfg symbol t₀) fun _ _ _ hinv _ hstep =>
    inv_step hinv hstep

end MarketDataGateway.Hot

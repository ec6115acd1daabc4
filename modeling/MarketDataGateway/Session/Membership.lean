import MarketDataGateway.Registry.Redis

/-!
# Calls of the registry that nothing disturbs

`SubscriptionRegistry.subscribe` and `unsubscribe` of `subscriptions.py` as one command of a session
sees them: no other call comes in between, and no time passes. `Registry.Step` has the calls step by
step, with the release tasks that they cancel and schedule, which change no membership and are left
out here.
-/

namespace MarketDataGateway.Session

open Lib (SortedSet)
open Registry (ConnId Redis)

/-- What `subscribe` does after the script. -/
def activate (r : Redis) (symbol : Symbol) (after : ℕ) : Redis :=
  if after = 1 then
    let (r, activated) := r.setActiveNx symbol
    if activated then r.publishControl .subscribe symbol else r
  else r

/-- `refresh_metrics`, which purges every symbol's set. The sums are left out. -/
def refreshMetrics (r : Redis) (now : Timestamp) : Redis :=
  { r with
    sets := fun symbol => (r.sets symbol).zremrangebyscore now
    setExpiry := fun symbol =>
      if ((r.sets symbol).zremrangebyscore now).zcard = 0 then none else r.setExpiry symbol }

section Calls

variable (cfg : Settings) (clock now : Timestamp) (conn : ConnId)

/-- The loop of `subscribe`, with `added_symbols`. -/
def subscribeLoop (r : Redis) : List Symbol → Redis × List Symbol
  | [] => (r, [])
  | symbol :: symbols =>
    let expiresAt := now + cfg.subscriptionTtlSeconds * second
    let (r, after, added) :=
      r.subscribeScript clock conn symbol now expiresAt cfg.subscriptionTtlSeconds
    let (r, addedSymbols) := subscribeLoop (activate r symbol after) symbols
    (r, if added then symbol :: addedSymbols else addedSymbols)

/-- `subscribe`, of the sorted symbols. It returns those whose sets have a new member. -/
def registrySubscribe (r : Redis) (symbols : List Symbol) : Redis × List Symbol :=
  let (r, added) := subscribeLoop cfg clock now conn r symbols
  (refreshMetrics r now, added)

/-- The loop of `unsubscribe`, with `removed_symbols`. -/
def unsubscribeLoop (r : Redis) : List Symbol → Redis × List Symbol
  | [] => (r, [])
  | symbol :: symbols =>
    let (r, removed, _after) := r.unsubscribeScript conn symbol now
    let (r, removedSymbols) := unsubscribeLoop r symbols
    (r, if removed then symbol :: removedSymbols else removedSymbols)

/-- `unsubscribe`, of the sorted symbols. -/
def registryUnsubscribe (r : Redis) (symbols : List Symbol) : Redis × List Symbol :=
  let (r, removed) := unsubscribeLoop now conn r symbols
  (refreshMetrics r now, removed)

/-- The registry holds the connection for the symbol, by an entry that has not expired. -/
def Holds (r : Redis) (symbol : Symbol) : Prop := (r.sets symbol).Unexpired now conn

end Calls

variable {cfg : Settings} {clock now expiresAt : Timestamp} {conn c : ConnId} {r : Redis}
  {symbol s : Symbol} {symbols : List Symbol} {ttl : ℤ}

/-- An activation leaves the sets. -/
theorem sets_activate (r : Redis) (symbol : Symbol) (after : ℕ) :
    (activate r symbol after).sets = r.sets := by
  unfold activate
  dsimp only
  split_ifs
  · rw [Redis.publishControl_sets, Redis.setActiveNx_sets]
  · exact Redis.setActiveNx_sets
  · rfl

/-- An activation leaves who holds a symbol. -/
theorem holds_activate {after : ℕ} :
    Holds now c (activate r symbol after) s ↔ Holds now c r s := by
  unfold Holds
  rw [sets_activate]

/-- Metrics that are refreshed leave who holds a symbol. -/
theorem holds_refreshMetrics :
    Holds now c (refreshMetrics r now) s ↔ Holds now c r s :=
  SortedSet.unexpired_zremrangebyscore

/-- The script makes its connection a member of its symbol's set. -/
theorem holds_subscribeScript (httl : 0 < ttl) (hexpires : now < expiresAt) :
    Holds now c (r.subscribeScript clock conn symbol now expiresAt ttl).1 s ↔
      c = conn ∧ s = symbol ∨ Holds now c r s := by
  unfold Holds
  by_cases hs : s = symbol
  · subst hs
    rw [Redis.subscribeScript_sets_self httl, SortedSet.unexpired_zadd,
      SortedSet.unexpired_zremrangebyscore]
    by_cases hc : c = conn
    · simp only [hc, hexpires, and_self, ne_eq, not_true_eq_false, false_and, or_false, true_or]
    · simp only [hc, false_and, ne_eq, not_false_eq_true, true_and, false_or]
  · rw [Redis.subscribeScript_sets_of_ne hs]
    simp only [hs, and_false, false_or]

/-- The script takes its connection out of its symbol's set. -/
theorem holds_unsubscribeScript :
    Holds now c (r.unsubscribeScript conn symbol now).1 s ↔
      ¬(c = conn ∧ s = symbol) ∧ Holds now c r s := by
  unfold Holds
  by_cases hs : s = symbol
  · subst hs
    have hset : (r.unsubscribeScript conn s now).1.sets s =
        ((r.sets s).zremrangebyscore now).zrem conn := by
      simp only [Redis.unsubscribeScript, Redis.putConn_sets, Redis.putSet_sets_self,
        Redis.purge_sets_self]
    rw [hset, SortedSet.unexpired_zrem, SortedSet.unexpired_zremrangebyscore]
    simp only [and_true, ne_eq]
  · rw [Redis.unsubscribeScript_sets_of_ne hs]
    simp only [hs, and_false, not_false_eq_true, true_and]

/-- After the loop the connection is a member for each of the symbols. -/
theorem holds_subscribeLoop (httl : 0 < cfg.subscriptionTtlSeconds) (r : Redis)
    (symbols : List Symbol) :
    Holds now c (subscribeLoop cfg clock now conn r symbols).1 s ↔
      c = conn ∧ s ∈ symbols ∨ Holds now c r s := by
  have hexpires : now < now + cfg.subscriptionTtlSeconds * second := by
    unfold second
    lia
  induction symbols generalizing r with
  | nil => simp only [subscribeLoop, List.not_mem_nil, and_false, false_or]
  | cons symbol symbols ih =>
    rw [subscribeLoop]
    dsimp only
    refine (ih _).trans ?_
    rw [holds_activate, holds_subscribeScript httl hexpires, List.mem_cons]
    tauto

/-- After the loop the connection is a member for none of the symbols. -/
theorem holds_unsubscribeLoop (r : Redis) (symbols : List Symbol) :
    Holds now c (unsubscribeLoop now conn r symbols).1 s ↔
      ¬(c = conn ∧ s ∈ symbols) ∧ Holds now c r s := by
  induction symbols generalizing r with
  | nil => simp only [unsubscribeLoop, List.not_mem_nil, and_false, not_false_eq_true, true_and]
  | cons symbol symbols ih =>
    rw [unsubscribeLoop]
    dsimp only
    refine (ih _).trans ?_
    rw [holds_unsubscribeScript, List.mem_cons]
    tauto

/-- `subscribe` adds the connection for its symbols, and changes no other membership. -/
theorem holds_registrySubscribe (httl : 0 < cfg.subscriptionTtlSeconds) :
    Holds now c (registrySubscribe cfg clock now conn r symbols).1 s ↔
      c = conn ∧ s ∈ symbols ∨ Holds now c r s :=
  holds_refreshMetrics.trans (holds_subscribeLoop httl r symbols)

/-- `unsubscribe` removes the connection for its symbols, and changes no other membership. -/
theorem holds_registryUnsubscribe :
    Holds now c (registryUnsubscribe now conn r symbols).1 s ↔
      ¬(c = conn ∧ s ∈ symbols) ∧ Holds now c r s :=
  holds_refreshMetrics.trans (holds_unsubscribeLoop r symbols)

end MarketDataGateway.Session

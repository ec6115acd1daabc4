import MarketDataGateway.Domain
import MarketDataGateway.Lib.SortedSet

/-!
# The registry's keys and scripts

The Redis keys that the subscription registry of `subscriptions.py` uses, the control stream, and
the commands and Lua scripts on them, each of which is atomic.

A symbol's subscribers are a sorted set of connections, the score being the time at which the entry
expires; a connection's symbols are a set; a symbol's upstream state is a key that is `'active'` or
absent. The two kinds of sets have a time to live. A set with no member has no key, and so no time
to live.
-/

namespace MarketDataGateway.Registry

open Lib (SortedSet)

/-- A connection's id. -/
abbrev ConnId := String

/-- The actions of the control stream. -/
inductive Action
  /-- `"subscribe"`. -/
  | subscribe
  /-- `"unsubscribe"`. -/
  | unsubscribe
  deriving DecidableEq, Repr

/-- The keys of the registry and the control stream. -/
structure Redis where
  /-- `smdg:sub:symbol:<symbol>`: connections, scored by the time at which they expire. -/
  sets : Symbol → SortedSet ConnId
  /-- When the key `smdg:sub:symbol:<symbol>` expires, if it has a time to live. -/
  setExpiry : Symbol → Option Timestamp
  /-- `smdg:sub:connection:<connection>`. -/
  conns : ConnId → List Symbol
  /-- When the key `smdg:sub:connection:<connection>` expires, if it has a time to live. -/
  connExpiry : ConnId → Option Timestamp
  /-- Whether `smdg:sub:upstream-state:<symbol>` is `'active'`; otherwise the key is absent. -/
  active : Symbol → Bool
  /-- The control stream, in stream order. Its trimming is left out: it removes the oldest
  entries, so that a symbol that still has an entry keeps its last one. -/
  control : List (Action × Symbol)

/-- No key, and an empty control stream. -/
def Redis.empty : Redis where
  sets _ := .empty
  setExpiry _ := none
  conns _ := []
  connExpiry _ := none
  active _ := false
  control := []

namespace Redis

variable (r : Redis)

/-- Stores a symbol's set. The key of an empty set goes, with its time to live. -/
def putSet (symbol : Symbol) (set : SortedSet ConnId) : Redis :=
  { r with
    sets := Function.update r.sets symbol set
    setExpiry := Function.update r.setExpiry symbol
      (if set.zcard = 0 then none else r.setExpiry symbol) }

/-- Stores a connection's symbols. The key of an empty set goes, with its time to live. -/
def putConn (conn : ConnId) (symbols : List Symbol) : Redis :=
  { r with
    conns := Function.update r.conns conn symbols
    connExpiry := Function.update r.connExpiry conn
      (if symbols = [] then none else r.connExpiry conn) }

/-- `EXPIRE smdg:sub:symbol:<symbol> ttl`, at the time `clock`. A time to live that is not positive
deletes the key, and a key that is absent stays so. -/
def expireSet (symbol : Symbol) (clock : Timestamp) (ttl : ℤ) : Redis :=
  if ttl ≤ 0 then r.putSet symbol .empty
  else if (r.sets symbol).zcard = 0 then r
  else { r with setExpiry := Function.update r.setExpiry symbol (some (clock + ttl * second)) }

/-- `EXPIRE smdg:sub:connection:<connection> ttl`, at the time `clock`. -/
def expireConn (conn : ConnId) (clock : Timestamp) (ttl : ℤ) : Redis :=
  if ttl ≤ 0 then r.putConn conn []
  else if r.conns conn = [] then r
  else { r with connExpiry := Function.update r.connExpiry conn (some (clock + ttl * second)) }

/-- `ZADD smdg:sub:symbol:<symbol> score connection`. -/
def zadd (symbol : Symbol) (conn : ConnId) (score : Timestamp) : Redis :=
  r.putSet symbol ((r.sets symbol).zadd conn score)

/-- `ZREMRANGEBYSCORE smdg:sub:symbol:<symbol> -inf now`. -/
def purge (symbol : Symbol) (now : Timestamp) : Redis :=
  r.putSet symbol ((r.sets symbol).zremrangebyscore now)

/-- `XADD` to the control stream: `publish_control`. -/
def publishControl (action : Action) (symbol : Symbol) : Redis :=
  { r with control := r.control ++ [(action, symbol)] }

/-- `SET smdg:sub:upstream-state:<symbol> active NX`. -/
def setActiveNx (symbol : Symbol) : Redis × Bool :=
  if r.active symbol then (r, false)
  else ({ r with active := Function.update r.active symbol true }, true)

/-- `DEL smdg:sub:connection:<connection>`. -/
def delConn (conn : ConnId) : Redis := r.putConn conn []

/-- `_SUBSCRIBE_SCRIPT`, run at the time `clock`: its result is `after` and `added`. -/
def subscribeScript (clock : Timestamp) (conn : ConnId) (symbol : Symbol)
    (now expiresAt : Timestamp) (ttl : ℤ) : Redis × ℕ × Bool :=
  let purged := r.purge symbol now
  let added : Bool := conn ∉ purged.sets symbol
  let r := purged.zadd symbol conn expiresAt
  let symbols := r.conns conn
  let r := r.putConn conn (if symbol ∈ symbols then symbols else symbol :: symbols)
  let r := r.expireConn conn clock ttl
  let r := r.expireSet symbol clock (ttl * 2)
  (r, (r.sets symbol).zcard, added)

/-- `_UNSUBSCRIBE_SCRIPT`: its result is `removed` and `after`. -/
def unsubscribeScript (conn : ConnId) (symbol : Symbol) (now : Timestamp) : Redis × Bool × ℕ :=
  let purged := r.purge symbol now
  let removed : Bool := conn ∈ purged.sets symbol
  let r := purged.putSet symbol ((purged.sets symbol).zrem conn)
  let r := r.putConn conn ((r.conns conn).filter (· ≠ symbol))
  (r, removed, (r.sets symbol).zcard)

/-- `_RELEASE_SCRIPT`: its result is whether it has deleted the upstream state. -/
def releaseScript (symbol : Symbol) (now : Timestamp) : Redis × Bool :=
  let r := r.purge symbol now
  if (r.sets symbol).zcard ≠ 0 then (r, false)
  else if r.active symbol then
    ({ r with active := Function.update r.active symbol false }, true)
  else (r, false)

/-- Drops the keys whose time to live has ended at the time `clock`. -/
def expireKeys (clock : Timestamp) : Redis :=
  let setGone symbol := (r.setExpiry symbol).any (· ≤ clock)
  let connGone conn := (r.connExpiry conn).any (· ≤ clock)
  { r with
    sets := fun symbol => if setGone symbol then .empty else r.sets symbol
    setExpiry := fun symbol => if setGone symbol then none else r.setExpiry symbol
    conns := fun conn => if connGone conn then [] else r.conns conn
    connExpiry := fun conn => if connGone conn then none else r.connExpiry conn }

/-- The last action for a symbol in the control stream. -/
def lastAction (symbol : Symbol) : Option Action :=
  ((r.control.filter fun p => p.2 = symbol).getLast?).map Prod.fst

/-! ## What the commands leave as it is -/

variable {r} {symbol s : Symbol} {conn c : ConnId} {set : SortedSet ConnId} {symbols : List Symbol}
  {clock now score expiresAt : Timestamp} {ttl : ℤ} {action : Action}

/-- A set that is put leaves the active symbols. -/
@[simp] theorem putSet_active : (r.putSet symbol set).active = r.active := rfl

/-- A set that is put leaves the control stream. -/
@[simp] theorem putSet_control : (r.putSet symbol set).control = r.control := rfl

/-- A set that is put leaves the symbols of the connections. -/
@[simp] theorem putSet_conns : (r.putSet symbol set).conns = r.conns := rfl

/-- The set that is put is the symbol's. -/
@[simp] theorem putSet_sets_self : (r.putSet symbol set).sets symbol = set := by simp [putSet]

/-- A set that is put leaves those of the other symbols. -/
theorem putSet_sets_of_ne (h : s ≠ symbol) : (r.putSet symbol set).sets s = r.sets s := by
  simp [putSet, h]

/-- Symbols that are put for a connection leave the active symbols. -/
@[simp] theorem putConn_active : (r.putConn conn symbols).active = r.active := rfl

/-- Symbols that are put for a connection leave the control stream. -/
@[simp] theorem putConn_control : (r.putConn conn symbols).control = r.control := rfl

/-- Symbols that are put for a connection leave the sets. -/
@[simp] theorem putConn_sets : (r.putConn conn symbols).sets = r.sets := rfl

/-- The symbols that are put are the connection's. -/
@[simp] theorem putConn_conns_self : (r.putConn conn symbols).conns conn = symbols := by
  simp [putConn]

/-- The symbols that are put leave those of the other connections. -/
theorem putConn_conns_of_ne (h : c ≠ conn) : (r.putConn conn symbols).conns c = r.conns c := by
  simp [putConn, h]

/-- A deadline on a symbol's set leaves the active symbols. -/
@[simp] theorem expireSet_active : (r.expireSet symbol clock ttl).active = r.active := by
  unfold expireSet
  split_ifs <;> rfl

/-- A deadline on a symbol's set leaves the control stream. -/
@[simp] theorem expireSet_control : (r.expireSet symbol clock ttl).control = r.control := by
  unfold expireSet
  split_ifs <;> rfl

/-- A deadline on a symbol's set leaves the symbols of the connections. -/
@[simp] theorem expireSet_conns : (r.expireSet symbol clock ttl).conns = r.conns := by
  unfold expireSet
  split_ifs <;> rfl

/-- A deadline on a symbol's set leaves the sets of the other symbols. -/
theorem expireSet_sets_of_ne (h : s ≠ symbol) :
    (r.expireSet symbol clock ttl).sets s = r.sets s := by
  unfold expireSet
  split_ifs
  · exact putSet_sets_of_ne h
  · rfl
  · rfl

/-- `EXPIRE` with a time to live that is positive keeps every set. -/
theorem expireSet_sets_of_pos (h : 0 < ttl) : (r.expireSet symbol clock ttl).sets = r.sets := by
  unfold expireSet
  rw [if_neg h.not_ge]
  split_ifs <;> rfl

/-- `EXPIRE` on a symbol's key adds no member. -/
theorem mem_of_mem_expireSet (h : c ∈ (r.expireSet symbol clock ttl).sets s) : c ∈ r.sets s := by
  unfold expireSet at h
  split_ifs at h
  · by_cases hs : s = symbol
    · subst hs
      rw [putSet_sets_self] at h
      exact absurd h (SortedSet.not_mem_empty c)
    · rwa [putSet_sets_of_ne hs] at h
  · exact h
  · exact h

/-- A deadline on a connection's key leaves the active symbols. -/
@[simp] theorem expireConn_active : (r.expireConn conn clock ttl).active = r.active := by
  unfold expireConn
  split_ifs <;> rfl

/-- A deadline on a connection's key leaves the control stream. -/
@[simp] theorem expireConn_control : (r.expireConn conn clock ttl).control = r.control := by
  unfold expireConn
  split_ifs <;> rfl

/-- A deadline on a connection's key leaves the sets of the symbols. -/
@[simp] theorem expireConn_sets : (r.expireConn conn clock ttl).sets = r.sets := by
  unfold expireConn
  split_ifs <;> rfl

/-- `EXPIRE` on a connection's key adds no symbol. -/
theorem mem_of_mem_expireConn (h : s ∈ (r.expireConn conn clock ttl).conns c) :
    s ∈ r.conns c := by
  unfold expireConn at h
  split_ifs at h
  · by_cases hc : c = conn
    · subst hc
      rw [putConn_conns_self] at h
      exact absurd h List.not_mem_nil
    · rwa [putConn_conns_of_ne hc] at h
  · exact h
  · exact h

/-- `ZADD` makes no symbol active. -/
@[simp] theorem zadd_active : (r.zadd symbol conn score).active = r.active := rfl

/-- `ZADD` publishes nothing. -/
@[simp] theorem zadd_control : (r.zadd symbol conn score).control = r.control := rfl

/-- `ZADD` leaves the symbols of the connections. -/
@[simp] theorem zadd_conns : (r.zadd symbol conn score).conns = r.conns := rfl

/-- `ZADD` puts the connection into the symbol's set. -/
@[simp] theorem zadd_sets_self :
    (r.zadd symbol conn score).sets symbol = (r.sets symbol).zadd conn score := putSet_sets_self

/-- `ZADD` leaves the sets of the other symbols. -/
theorem zadd_sets_of_ne (h : s ≠ symbol) : (r.zadd symbol conn score).sets s = r.sets s :=
  putSet_sets_of_ne h

/-- A purge ends no active symbol. -/
@[simp] theorem purge_active : (r.purge symbol now).active = r.active := rfl

/-- A purge publishes nothing. -/
@[simp] theorem purge_control : (r.purge symbol now).control = r.control := rfl

/-- A purge leaves the symbols of the connections. -/
@[simp] theorem purge_conns : (r.purge symbol now).conns = r.conns := rfl

/-- A purge removes from the symbol's set what is due. -/
@[simp] theorem purge_sets_self :
    (r.purge symbol now).sets symbol = (r.sets symbol).zremrangebyscore now := putSet_sets_self

/-- A purge leaves the sets of the other symbols. -/
theorem purge_sets_of_ne (h : s ≠ symbol) : (r.purge symbol now).sets s = r.sets s :=
  putSet_sets_of_ne h

/-- A purge adds no member. -/
theorem mem_of_mem_purge (h : c ∈ (r.purge symbol now).sets s) : c ∈ r.sets s := by
  by_cases hs : s = symbol
  · subst hs
    rw [purge_sets_self] at h
    exact SortedSet.mem_of_mem_zremrangebyscore h
  · rwa [purge_sets_of_ne hs] at h

/-- A set that a purge leaves nonempty was so before. -/
theorem zcard_ne_zero_of_purge (h : ((r.purge symbol now).sets s).zcard ≠ 0) :
    (r.sets s).zcard ≠ 0 := by
  obtain ⟨m, hm⟩ := SortedSet.exists_mem_of_zcard_ne_zero h
  exact SortedSet.zcard_ne_zero_of_mem (mem_of_mem_purge hm)

/-- A control message makes no symbol active. -/
@[simp] theorem publishControl_active : (r.publishControl action symbol).active = r.active := rfl

/-- A control message leaves the sets of the symbols. -/
@[simp] theorem publishControl_sets : (r.publishControl action symbol).sets = r.sets := rfl

/-- A control message leaves the symbols of the connections. -/
@[simp] theorem publishControl_conns : (r.publishControl action symbol).conns = r.conns := rfl

/-- The last action for a symbol is the one just published. -/
@[simp] theorem lastAction_publishControl_self :
    (r.publishControl action symbol).lastAction symbol = some action := by
  simp [publishControl, lastAction, List.filter_append]

/-- A control message of a symbol leaves the last actions of the others. -/
theorem lastAction_publishControl_of_ne (h : s ≠ symbol) :
    (r.publishControl action symbol).lastAction s = r.lastAction s := by
  simp [publishControl, lastAction, List.filter_append, Ne.symm h]

/-- What keeps the control stream keeps the last actions. -/
theorem lastAction_congr {r' : Redis} (h : r'.control = r.control) :
    r'.lastAction s = r.lastAction s := by
  rw [lastAction, lastAction, h]

/-- `SET NX` of the active state publishes nothing. -/
@[simp] theorem setActiveNx_control : (r.setActiveNx symbol).1.control = r.control := by
  unfold setActiveNx
  split_ifs <;> rfl

/-- `SET NX` of the active state leaves the sets of the symbols. -/
@[simp] theorem setActiveNx_sets : (r.setActiveNx symbol).1.sets = r.sets := by
  unfold setActiveNx
  split_ifs <;> rfl

/-- `SET NX` of the active state leaves the symbols of the connections. -/
@[simp] theorem setActiveNx_conns : (r.setActiveNx symbol).1.conns = r.conns := by
  unfold setActiveNx
  split_ifs <;> rfl

/-- After `SET NX` the symbol is active, and no other symbol has changed. -/
theorem setActiveNx_active :
    (r.setActiveNx symbol).1.active s = (if s = symbol then true else r.active s) := by
  unfold setActiveNx
  by_cases h : r.active symbol
  · rw [if_pos h]
    by_cases hs : s = symbol
    · rw [if_pos hs, hs]
      exact h
    · rw [if_neg hs]
  · rw [if_neg h]
    exact Function.update_apply _ _ _ _

/-- `SET NX` reports whether the symbol was not active. -/
theorem setActiveNx_snd : (r.setActiveNx symbol).2 = !r.active symbol := by
  unfold setActiveNx
  cases h : r.active symbol <;> rfl

/-! ## The subscribe script -/

/-- The subscribe script makes no symbol active. -/
@[simp] theorem subscribeScript_active :
    (r.subscribeScript clock conn symbol now expiresAt ttl).1.active = r.active := by
  simp [subscribeScript]

/-- The subscribe script publishes nothing. -/
@[simp] theorem subscribeScript_control :
    (r.subscribeScript clock conn symbol now expiresAt ttl).1.control = r.control := by
  simp [subscribeScript]

/-- The subscribe script leaves the sets of the other symbols. -/
theorem subscribeScript_sets_of_ne (h : s ≠ symbol) :
    (r.subscribeScript clock conn symbol now expiresAt ttl).1.sets s = r.sets s := by
  simp only [subscribeScript, expireSet_sets_of_ne h, expireConn_sets, putConn_sets,
    zadd_sets_of_ne h, purge_sets_of_ne h]

/-- With a positive time to live, the script leaves the connection among the members. -/
theorem subscribeScript_sets_self (h : 0 < ttl) :
    (r.subscribeScript clock conn symbol now expiresAt ttl).1.sets symbol =
      ((r.sets symbol).zremrangebyscore now).zadd conn expiresAt := by
  simp only [subscribeScript, expireSet_sets_of_pos (show 0 < ttl * 2 by omega), expireConn_sets,
    putConn_sets, zadd_sets_self, purge_sets_self]

/-- The script replies the number of members that it leaves. -/
theorem subscribeScript_after :
    (r.subscribeScript clock conn symbol now expiresAt ttl).2.1 =
      ((r.subscribeScript clock conn symbol now expiresAt ttl).1.sets symbol).zcard := rfl

/-- A script that finds no member leaves one at most. -/
theorem subscribeScript_after_of_zcard_eq_zero (h : (r.sets symbol).zcard = 0)
    (hne : (r.subscribeScript clock conn symbol now expiresAt ttl).2.1 ≠ 0) :
    (r.subscribeScript clock conn symbol now expiresAt ttl).2.1 = 1 := by
  have hpurged : ((r.sets symbol).zremrangebyscore now).zcard = 0 := by
    by_contra hne
    exact SortedSet.zcard_ne_zero_of_keep hne h
  rw [subscribeScript_after] at hne ⊢
  by_cases hpos : 0 < ttl
  · rw [subscribeScript_sets_self hpos]
    exact SortedSet.zcard_zadd_of_zcard_eq_zero hpurged conn expiresAt
  · have hempty : (r.subscribeScript clock conn symbol now expiresAt ttl).1.sets symbol =
        .empty := by
      simp only [subscribeScript, expireSet, if_pos (show ttl * 2 ≤ 0 by omega), putSet_sets_self]
    rw [hempty] at hne
    exact absurd SortedSet.zcard_empty hne

/-- The script adds no member but the connection. -/
theorem mem_of_mem_subscribeScript
    (h : c ∈ (r.subscribeScript clock conn symbol now expiresAt ttl).1.sets s) :
    c ∈ r.sets s ∨ (c = conn ∧ s = symbol) := by
  by_cases hs : s = symbol
  · subst hs
    have h := mem_of_mem_expireSet h
    simp only [expireConn_sets, putConn_sets, zadd_sets_self, SortedSet.mem_zadd] at h
    rcases h with rfl | h
    · exact Or.inr ⟨rfl, rfl⟩
    · exact Or.inl (mem_of_mem_purge h)
  · rw [subscribeScript_sets_of_ne hs] at h
    exact Or.inl h

/-- The script adds no symbol but its own, to no connection but its own. -/
theorem mem_conns_of_mem_subscribeScript
    (h : s ∈ (r.subscribeScript clock conn symbol now expiresAt ttl).1.conns c) :
    s ∈ r.conns c ∨ (c = conn ∧ s = symbol) := by
  simp only [subscribeScript, expireSet_conns] at h
  have h := mem_of_mem_expireConn h
  by_cases hc : c = conn
  · subst hc
    rw [putConn_conns_self] at h
    split_ifs at h with hin
    · exact Or.inl h
    · rcases List.mem_cons.1 h with rfl | h
      · exact Or.inr ⟨rfl, rfl⟩
      · exact Or.inl h
  · rw [putConn_conns_of_ne hc] at h
    exact Or.inl h

/-! ## The unsubscribe script -/

/-- The unsubscribe script ends no active symbol. -/
@[simp] theorem unsubscribeScript_active :
    (r.unsubscribeScript conn symbol now).1.active = r.active := rfl

/-- The unsubscribe script publishes nothing. -/
@[simp] theorem unsubscribeScript_control :
    (r.unsubscribeScript conn symbol now).1.control = r.control := rfl

/-- The unsubscribe script leaves the sets of the other symbols. -/
theorem unsubscribeScript_sets_of_ne (h : s ≠ symbol) :
    (r.unsubscribeScript conn symbol now).1.sets s = r.sets s := by
  simp only [unsubscribeScript, putConn_sets, putSet_sets_of_ne h, purge_sets_of_ne h]

/-- The script adds no member, and removes the connection. -/
theorem mem_of_mem_unsubscribeScript (h : c ∈ (r.unsubscribeScript conn symbol now).1.sets s) :
    c ∈ r.sets s ∧ ¬ (c = conn ∧ s = symbol) := by
  by_cases hs : s = symbol
  · subst hs
    simp only [unsubscribeScript, putConn_sets, putSet_sets_self, SortedSet.mem_zrem] at h
    exact ⟨mem_of_mem_purge h.1, fun hc => h.2 hc.1⟩
  · rw [unsubscribeScript_sets_of_ne hs] at h
    exact ⟨h, fun hc => hs hc.2⟩

/-- The script adds no symbol, and removes its own from its connection. -/
theorem mem_conns_of_mem_unsubscribeScript
    (h : s ∈ (r.unsubscribeScript conn symbol now).1.conns c) :
    s ∈ r.conns c ∧ ¬ (c = conn ∧ s = symbol) := by
  by_cases hc : c = conn
  · subst hc
    simp only [unsubscribeScript, putConn_conns_self, putSet_conns, purge_conns,
      List.mem_filter, decide_eq_true_eq] at h
    exact ⟨h.1, fun hcs => h.2 hcs.2⟩
  · simp only [unsubscribeScript, putConn_conns_of_ne hc, putSet_conns, purge_conns] at h
    exact ⟨h, fun hcs => hc hcs.1⟩

/-! ## The release script -/

/-- The release script publishes nothing. -/
@[simp] theorem releaseScript_control : (r.releaseScript symbol now).1.control = r.control := by
  unfold releaseScript
  dsimp only
  split_ifs <;> rfl

/-- The release script leaves what its purge leaves of the sets. -/
@[simp] theorem releaseScript_sets :
    (r.releaseScript symbol now).1.sets = (r.purge symbol now).sets := by
  unfold releaseScript
  dsimp only
  split_ifs <;> rfl

/-- The release script leaves the symbols of the connections. -/
@[simp] theorem releaseScript_conns : (r.releaseScript symbol now).1.conns = r.conns := by
  unfold releaseScript
  dsimp only
  split_ifs <;> rfl

/-- The script deactivates its symbol when it says so, and no other symbol. -/
theorem releaseScript_active : (r.releaseScript symbol now).1.active s =
    (if s = symbol ∧ (r.releaseScript symbol now).2 = true then false else r.active s) := by
  unfold releaseScript
  dsimp only
  by_cases hcard : ((r.purge symbol now).sets symbol).zcard ≠ 0
  · rw [if_pos hcard]
    simp
  · rw [if_neg hcard]
    by_cases hact : (r.purge symbol now).active symbol = true
    · rw [if_pos hact]
      by_cases hs : s = symbol
      · simp [hs]
      · simp [hs]
    · rw [if_neg hact]
      simp

/-- The script deactivates a symbol that is active and whose set has no unexpired member. -/
theorem releaseScript_snd : (r.releaseScript symbol now).2 = true ↔
    ((r.purge symbol now).sets symbol).zcard = 0 ∧ r.active symbol = true := by
  unfold releaseScript
  dsimp only
  by_cases hcard : ((r.purge symbol now).sets symbol).zcard ≠ 0
  · rw [if_pos hcard]
    simp only [Bool.false_eq_true, false_iff, not_and]
    exact fun h => absurd h hcard
  · rw [if_neg hcard]
    have hcard := not_not.1 hcard
    by_cases hact : (r.purge symbol now).active symbol = true
    · rw [if_pos hact]
      exact ⟨fun _ => ⟨hcard, hact⟩, fun _ => rfl⟩
    · rw [if_neg hact]
      exact ⟨fun h => absurd h Bool.false_ne_true, fun h => absurd h.2 hact⟩

/-! ## The end of the times to live -/

/-- Keys that expire end no active symbol. -/
@[simp] theorem expireKeys_active : (r.expireKeys clock).active = r.active := rfl

/-- Keys that expire leave the control stream. -/
@[simp] theorem expireKeys_control : (r.expireKeys clock).control = r.control := rfl

/-- No member comes with time. -/
theorem mem_of_mem_expireKeys (h : c ∈ (r.expireKeys clock).sets s) : c ∈ r.sets s := by
  unfold expireKeys at h
  dsimp only at h
  split_ifs at h
  · exact absurd h (SortedSet.not_mem_empty c)
  · exact h

/-- No symbol of a connection comes with time. -/
theorem mem_conns_of_mem_expireKeys (h : s ∈ (r.expireKeys clock).conns c) : s ∈ r.conns c := by
  unfold expireKeys at h
  dsimp only at h
  split_ifs at h
  · exact absurd h List.not_mem_nil
  · exact h

end Redis

/-- `smdg:sub:symbol:<symbol>`. -/
def symbolKey (symbol : Symbol) : String := "smdg:sub:symbol:" ++ symbol

/-- `key.rsplit(":", 1)[-1]`: what follows the last colon. -/
def afterLastColon (key : String) : String :=
  String.ofList (key.toList.reverse.takeWhile (· ≠ ':')).reverse

end MarketDataGateway.Registry

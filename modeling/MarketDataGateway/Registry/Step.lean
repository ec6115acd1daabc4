import MarketDataGateway.Registry.Redis
import MarketDataGateway.Lib.Transition
import MarketDataGateway.Lib.Processes

/-!
# The steps of the registry

`SubscriptionRegistry` of `subscriptions.py`, on any number of gateways that share one Redis. A call
of one of its methods, or a release task, is a process whose program counter says what it does next:
it sends a Redis command or script, which takes effect in one step, or it goes on with a reply that
it has received, up to its next command. Between two steps of one call, any other call of any
gateway may take steps, and the clock may advance.

A label resolves what the environment decides: which call moves, in what order Redis lists the
members of a set or the keys of a `SCAN`, whether a script whose caller is cancelled still reaches
Redis, and how far the clock advances. No command fails, and no gateway stops.
-/

namespace MarketDataGateway.Registry

open Lib (SortedSet)

/-! ## Calls -/

/-- The methods that are called from outside. -/
inductive Op
  /-- `subscribe(connection_id, symbols)`, the symbols in upper case. -/
  | subscribe (conn : ConnId) (symbols : List Symbol)
  /-- `unsubscribe(connection_id, symbols)`, the symbols in upper case. -/
  | unsubscribe (conn : ConnId) (symbols : List Symbol)
  /-- `disconnect(connection_id)`. -/
  | disconnect (conn : ConnId)
  /-- `heartbeat(connection_id)`. -/
  | heartbeat (conn : ConnId)
  /-- `cleanup_expired()`. -/
  | cleanupExpired
  /-- `refresh_metrics()`. -/
  | refreshMetrics
  deriving DecidableEq

/-- The local variables of `subscribe` and `unsubscribe`. -/
structure ClientCall where
  /-- `connection_id`. -/
  conn : ConnId
  /-- `now`. -/
  now : Timestamp
  /-- The symbols that the loop has not come to. -/
  rest : List Symbol
  /-- `added_symbols` or `removed_symbols`. -/
  changed : List Symbol := []
  /-- Whether `disconnect` has made the call. -/
  disconnecting : Bool := false
  deriving DecidableEq

/-- The local variables of `refresh_metrics`, and where it returns to. -/
structure MetricsCall where
  /-- `now`. -/
  now : Timestamp
  /-- The symbols of the keys of the batch that the loop has not come to. -/
  keys : List Symbol := []
  /-- Whether the cursor is zero. -/
  last : Bool := false
  /-- `client_subscriptions`. -/
  clientSubscriptions : ℕ := 0
  /-- `unique_symbols`. -/
  uniqueSymbols : ℕ := 0
  /-- The result of the method that has called `refresh_metrics`. -/
  changed : List Symbol := []
  /-- The connection whose key is deleted afterwards, in `disconnect`. -/
  delete : Option ConnId := none
  deriving DecidableEq

/-- The local variables of `cleanup_expired`. -/
structure CleanupCall where
  /-- `now`. -/
  now : Timestamp
  /-- The symbols of the keys of the batch that the loop has not come to. -/
  keys : List Symbol := []
  /-- Whether the cursor is zero. -/
  last : Bool := false
  deriving DecidableEq

/-- The program counter of a call: the command that takes effect next, or the reply with which the
call goes on. -/
inductive Pc
  /-- `subscribe`: the script for `symbol`. -/
  | subEval (c : ClientCall) (symbol : Symbol)
  /-- `subscribe`: the script's reply. -/
  | subReply (c : ClientCall) (symbol : Symbol) (after : ℕ)
  /-- `subscribe`: `SET NX`. -/
  | subSetNx (c : ClientCall) (symbol : Symbol)
  /-- `subscribe`: `publish_control("subscribe", symbol)`. -/
  | subPublish (c : ClientCall) (symbol : Symbol)
  /-- `unsubscribe`: the script for `symbol`. -/
  | unsubEval (c : ClientCall) (symbol : Symbol)
  /-- `unsubscribe`: the script's reply. -/
  | unsubReply (c : ClientCall) (symbol : Symbol) (after : ℕ)
  /-- `heartbeat`: `SMEMBERS`. -/
  | hbMembers (conn : ConnId)
  /-- `heartbeat`: the reply of `SMEMBERS`. -/
  | hbReply (conn : ConnId) (symbols : List Symbol)
  /-- `heartbeat`: the pipeline's `ZADD` for `symbol`, before those for `rest`. -/
  | hbZadd (conn : ConnId) (expiresAt : Timestamp) (symbol : Symbol) (rest : List Symbol)
  /-- `heartbeat`: the pipeline's `EXPIRE` for `symbol`. -/
  | hbExpire (conn : ConnId) (expiresAt : Timestamp) (symbol : Symbol) (rest : List Symbol)
  /-- `heartbeat`: the pipeline's `EXPIRE` for the connection. -/
  | hbExpireConn (conn : ConnId)
  /-- `disconnect`: `SMEMBERS`. -/
  | discMembers (conn : ConnId)
  /-- `disconnect`: the reply of `SMEMBERS`. -/
  | discReply (conn : ConnId) (symbols : List Symbol)
  /-- `disconnect`: `DEL`. -/
  | discDelete (conn : ConnId) (changed : List Symbol)
  /-- `_release_after_grace`: the task has not started. -/
  | relStart (symbol : Symbol)
  /-- `_release_after_grace`: `sleep`, until `wakeAt`. -/
  | relSleep (symbol : Symbol) (wakeAt : Timestamp)
  /-- `_release_after_grace`: the script. -/
  | relEval (symbol : Symbol) (now : Timestamp)
  /-- `_release_after_grace`: the script's reply. -/
  | relReply (symbol : Symbol) (released : Bool)
  /-- `_release_after_grace`: `publish_control("unsubscribe", symbol)`. -/
  | relPublish (symbol : Symbol)
  /-- `_release_after_grace`: the `finally` block, after the publication or a cancellation. -/
  | relFinally (symbol : Symbol)
  /-- `cleanup_expired`: `SCAN`. -/
  | cleanScan (c : CleanupCall)
  /-- `cleanup_expired`: `before`. -/
  | cleanBefore (c : CleanupCall) (key : Symbol)
  /-- `cleanup_expired`: the purge. -/
  | cleanPurge (c : CleanupCall) (key : Symbol) (before : ℕ)
  /-- `cleanup_expired`: `after`. -/
  | cleanAfter (c : CleanupCall) (key : Symbol) (before : ℕ)
  /-- `cleanup_expired`: the reply of the second `ZCARD`. -/
  | cleanReply (c : CleanupCall) (key : Symbol) (before after : ℕ)
  /-- `refresh_metrics`: `SCAN`. -/
  | metricsScan (m : MetricsCall)
  /-- `refresh_metrics`: the purge. -/
  | metricsPurge (m : MetricsCall) (key : Symbol)
  /-- `refresh_metrics`: the count. -/
  | metricsCard (m : MetricsCall) (key : Symbol)
  /-- The call has returned. -/
  | done (changed : List Symbol)
  deriving DecidableEq

/-- A call, on one of the gateways. -/
structure Call where
  /-- The gateway. -/
  gw : ℕ
  /-- The program counter. -/
  pc : Pc

/-- `refresh_metrics`, called at the time `now`. -/
def metricsStart (now : Timestamp) (changed : List Symbol) (delete : Option ConnId) : Pc :=
  .metricsScan { now := now, changed := changed, delete := delete }

/-- `refresh_metrics`: the next key, the next batch, or the return. -/
def metricsNext (m : MetricsCall) : Pc :=
  match m.keys with
  | key :: keys => .metricsPurge { m with keys := keys } key
  | [] =>
    if m.last then
      match m.delete with
      | some conn => .discDelete conn m.changed
      | none => .done m.changed
    else .metricsScan m

/-- `subscribe`: the next symbol, or the metrics. -/
def subNext (clock : Timestamp) (c : ClientCall) : Pc :=
  match c.rest with
  | symbol :: rest => .subEval { c with rest := rest } symbol
  | [] => metricsStart clock c.changed none

/-- `unsubscribe`: the next symbol, or the metrics. -/
def unsubNext (clock : Timestamp) (c : ClientCall) : Pc :=
  match c.rest with
  | symbol :: rest => .unsubEval { c with rest := rest } symbol
  | [] => metricsStart clock c.changed (if c.disconnecting then some c.conn else none)

/-- `heartbeat`: the next symbol of the pipeline, or the connection's `EXPIRE`. -/
def hbNext (conn : ConnId) (expiresAt : Timestamp) : List Symbol → Pc
  | symbol :: rest => .hbZadd conn expiresAt symbol rest
  | [] => .hbExpireConn conn

/-- `cleanup_expired`: the next key, the next batch, or the metrics. -/
def cleanNext (clock : Timestamp) (c : CleanupCall) : Pc :=
  match c.keys with
  | key :: keys => .cleanBefore { c with keys := keys } key
  | [] => if c.last then metricsStart clock [] none else .cleanScan c

/-- The first program counter of a call at the time `clock`. -/
def Op.start (clock : Timestamp) : Op → Pc
  | .subscribe conn symbols => subNext clock { conn := conn, now := clock, rest := symbols }
  | .unsubscribe conn symbols => unsubNext clock { conn := conn, now := clock, rest := symbols }
  | .disconnect conn => .discMembers conn
  | .heartbeat conn => .hbMembers conn
  | .cleanupExpired => .cleanScan { now := clock }
  | .refreshMetrics => metricsStart clock [] none

/-- Whether a call has returned. -/
def Pc.isDone : Pc → Bool
  | .done _ => true
  | _ => false

/-- What becomes of a release task that is cancelled. One that has not started never enters its
`try`; one that waits goes to its `finally`, and one that is there already ends. -/
def Pc.cancel : Pc → Pc
  | .relStart _ => .done []
  | .relSleep symbol _ => .relFinally symbol
  | .relEval symbol _ => .relFinally symbol
  | .relReply symbol _ => .relFinally symbol
  | .relPublish symbol => .relFinally symbol
  | .metricsScan _ => .done []
  | .metricsPurge _ _ => .done []
  | .metricsCard _ _ => .done []
  | pc => pc

/-! ## States -/

/-- The state of the gateways and of Redis. -/
structure State where
  /-- The clock. -/
  now : Timestamp
  /-- The keys and the control stream. -/
  redis : Redis
  /-- The calls made so far, finished ones included; a call's index is its identity. -/
  calls : List Call
  /-- `_release_tasks` of each gateway. -/
  releaseTasks : ℕ → Symbol → Option ℕ
  /-- Release scripts whose caller was cancelled and which have not reached Redis. -/
  orphans : List (Symbol × Timestamp)
  /-- Whether the connection has called `subscribe` for the symbol, and neither `unsubscribe` for
  the symbol nor `disconnect` since. Nothing reads it. -/
  wanted : ConnId → Symbol → Bool
  /-- Whether the last script for the connection and the symbol was that of `unsubscribe`. Nothing
  reads it. -/
  unsubscribed : ConnId → Symbol → Bool

/-- The initial state. -/
def State.init : State where
  now := 0
  redis := .empty
  calls := []
  releaseTasks _ _ := none
  orphans := []
  wanted _ _ := false
  unsubscribed _ _ := false

/-- Sets the flag of a connection and a symbol. -/
def setFlag (flags : ConnId → Symbol → Bool) (conn : ConnId) (symbol : Symbol) (value : Bool) :
    ConnId → Symbol → Bool :=
  fun c s => if c = conn ∧ s = symbol then value else flags c s

/-- What a call that begins says of the symbols that a connection wants. -/
def Op.wanted (wanted : ConnId → Symbol → Bool) : Op → ConnId → Symbol → Bool
  | .subscribe conn symbols => fun c s => if c = conn ∧ s ∈ symbols then true else wanted c s
  | .unsubscribe conn symbols => fun c s => if c = conn ∧ s ∈ symbols then false else wanted c s
  | .disconnect conn => fun c s => if c = conn then false else wanted c s
  | _ => wanted

namespace State

variable (st : State)

/-- The program counter of the call at `i` becomes `pc`. -/
def setPc (i gw : ℕ) (pc : Pc) : State := { st with calls := st.calls.set i ⟨gw, pc⟩ }

/-- Whether a gateway has a release task for a symbol that is not done. -/
def hasReleaseTask (gw : ℕ) (symbol : Symbol) : Bool :=
  ((st.releaseTasks gw symbol).bind fun j => st.calls[j]?).any fun call => !call.pc.isDone

/-- `_schedule_release`. -/
def scheduleRelease (gw : ℕ) (symbol : Symbol) : State :=
  if st.hasReleaseTask gw symbol then st
  else
    { st with
      calls := st.calls ++ [⟨gw, .relStart symbol⟩]
      releaseTasks := Function.update st.releaseTasks gw
        (Function.update (st.releaseTasks gw) symbol (some st.calls.length)) }

/-- `_release_tasks.pop(symbol, None)`. -/
def popReleaseTask (gw : ℕ) (symbol : Symbol) : State :=
  { st with
    releaseTasks := Function.update st.releaseTasks gw
      (Function.update (st.releaseTasks gw) symbol none) }

/-- `release_task = self._release_tasks.pop(symbol, None)` and `release_task.cancel()`. If the task
waits for its script, `sent` tells whether the script still reaches Redis. -/
def cancelRelease (gw : ℕ) (symbol : Symbol) (sent : Bool) : State :=
  match (st.releaseTasks gw symbol).bind fun j => (st.calls[j]?).map fun call => (j, call) with
  | none => st.popReleaseTask gw symbol
  | some (j, call) =>
    { st.popReleaseTask gw symbol with
      calls := st.calls.set j ⟨call.gw, call.pc.cancel⟩
      orphans := match call.pc with
        | .relEval symbol now => if sent then (symbol, now) :: st.orphans else st.orphans
        | _ => st.orphans }

end State

/-! ## Steps -/

/-- The labels of steps. -/
inductive Label
  /-- A method of the gateway `gw` is called. -/
  | start (gw : ℕ) (op : Op)
  /-- The call at `i` takes its next step. `listing` is the order in which Redis lists what the step
  lists; `flag` is whether a `SCAN` is over, or whether the script of a cancelled task still
  reaches Redis. -/
  | run (i : ℕ) (listing : List Symbol) (flag : Bool)
  /-- A script whose caller was cancelled takes effect. -/
  | orphan (k : ℕ)
  /-- The clock advances. -/
  | tick (d : ℕ)
  deriving DecidableEq

section Steps

variable (cfg : Settings) (st : State)

/-- The step of the call at `i`, on the gateway `gw`, whose program counter is `pc`. -/
def runCall (i gw : ℕ) (listing : List Symbol) (flag : Bool) : Pc → Option State
  | .subEval c symbol =>
    let expiresAt := c.now + cfg.subscriptionTtlSeconds * second
    let reply := st.redis.subscribeScript st.now c.conn symbol c.now expiresAt
      cfg.subscriptionTtlSeconds
    let changed := if reply.2.2 then symbol :: c.changed else c.changed
    some ({ st with
      redis := reply.1
      unsubscribed := setFlag st.unsubscribed c.conn symbol false }.setPc i gw
        (.subReply { c with changed := changed } symbol reply.2.1))
  | .subReply c symbol after =>
    let pc := if after = 1 then .subSetNx c symbol else subNext st.now c
    some ((st.cancelRelease gw symbol flag).setPc i gw pc)
  | .subSetNx c symbol =>
    let reply := st.redis.setActiveNx symbol
    some ({ st with redis := reply.1 }.setPc i gw
      (if reply.2 then .subPublish c symbol else subNext st.now c))
  | .subPublish c symbol =>
    some ({ st with redis := st.redis.publishControl .subscribe symbol }.setPc i gw
      (subNext st.now c))
  | .unsubEval c symbol =>
    let reply := st.redis.unsubscribeScript c.conn symbol c.now
    let changed := if reply.2.1 then symbol :: c.changed else c.changed
    some ({ st with
      redis := reply.1
      unsubscribed := setFlag st.unsubscribed c.conn symbol true }.setPc i gw
        (.unsubReply { c with changed := changed } symbol reply.2.2))
  -- A release is scheduled whenever no member is left, also when the script has removed none.
  | .unsubReply c symbol after =>
    if after = 0 then some ((st.scheduleRelease gw symbol).setPc i gw (unsubNext st.now c))
    else some (st.setPc i gw (unsubNext st.now c))
  | .hbMembers conn =>
    if listing.Perm (st.redis.conns conn) then some (st.setPc i gw (.hbReply conn listing))
    else none
  | .hbReply conn symbols =>
    if symbols = [] then some (st.setPc i gw (.done []))
    else some (st.setPc i gw
      (hbNext conn (st.now + cfg.subscriptionTtlSeconds * second) symbols))
  | .hbZadd conn expiresAt symbol rest =>
    some ({ st with redis := st.redis.zadd symbol conn expiresAt }.setPc i gw
      (.hbExpire conn expiresAt symbol rest))
  | .hbExpire conn expiresAt symbol rest =>
    some ({ st with
      redis := st.redis.expireSet symbol st.now (cfg.subscriptionTtlSeconds * 2) }.setPc i gw
        (hbNext conn expiresAt rest))
  | .hbExpireConn conn =>
    some ({ st with
      redis := st.redis.expireConn conn st.now cfg.subscriptionTtlSeconds }.setPc i gw (.done []))
  | .discMembers conn =>
    if listing.Perm (st.redis.conns conn) then some (st.setPc i gw (.discReply conn listing))
    else none
  | .discReply conn symbols =>
    if symbols = [] then some (st.setPc i gw (.discDelete conn []))
    else some (st.setPc i gw (unsubNext st.now
      { conn := conn, now := st.now, rest := symbols, disconnecting := true }))
  | .discDelete conn changed =>
    some ({ st with redis := st.redis.delConn conn }.setPc i gw (.done changed))
  | .relStart symbol =>
    some (st.setPc i gw (.relSleep symbol (st.now + cfg.subscriptionGrace)))
  -- `now` is read when the sleep is over, and the script follows.
  | .relSleep symbol wakeAt =>
    if wakeAt ≤ st.now then some (st.setPc i gw (.relEval symbol st.now)) else none
  | .relEval symbol now =>
    let reply := st.redis.releaseScript symbol now
    some ({ st with redis := reply.1 }.setPc i gw (.relReply symbol reply.2))
  -- A symbol that is not released is not published either: the task goes to its `finally`.
  | .relReply symbol released =>
    if released then some (st.setPc i gw (.relPublish symbol))
    else some ((st.popReleaseTask gw symbol).setPc i gw (metricsStart st.now [] none))
  | .relPublish symbol =>
    some ({ st with redis := st.redis.publishControl .unsubscribe symbol }.setPc i gw
      (.relFinally symbol))
  | .relFinally symbol =>
    some ((st.popReleaseTask gw symbol).setPc i gw (metricsStart st.now [] none))
  | .cleanScan c =>
    some (st.setPc i gw (cleanNext st.now { c with keys := listing, last := flag }))
  | .cleanBefore c key => some (st.setPc i gw (.cleanPurge c key (st.redis.sets key).zcard))
  | .cleanPurge c key before =>
    some ({ st with redis := st.redis.purge key c.now }.setPc i gw (.cleanAfter c key before))
  | .cleanAfter c key before =>
    some (st.setPc i gw (.cleanReply c key before (st.redis.sets key).zcard))
  -- The symbol is read back from the key, by `rsplit(":", 1)[-1]`.
  | .cleanReply c key before after =>
    let symbol := afterLastColon (symbolKey key)
    if before ≠ 0 ∧ after = 0 then
      some ((st.scheduleRelease gw symbol).setPc i gw (cleanNext st.now c))
    else some (st.setPc i gw (cleanNext st.now c))
  | .metricsScan m =>
    some (st.setPc i gw (metricsNext { m with keys := listing, last := flag }))
  | .metricsPurge m key =>
    some ({ st with redis := st.redis.purge key m.now }.setPc i gw (.metricsCard m key))
  | .metricsCard m key =>
    let count := (st.redis.sets key).zcard
    some (st.setPc i gw (metricsNext { m with
      clientSubscriptions := m.clientSubscriptions + count
      uniqueSymbols := if count ≠ 0 then m.uniqueSymbols + 1 else m.uniqueSymbols }))
  | .done _ => none

/-- A step of the system. -/
def step : Label → Option State
  | .start gw op =>
    some { st with
      calls := st.calls ++ [⟨gw, op.start st.now⟩]
      wanted := op.wanted st.wanted }
  | .run i listing flag =>
    st.calls[i]?.bind fun call => runCall cfg st i call.gw listing flag call.pc
  | .orphan k =>
    st.orphans[k]?.map fun p =>
      { st with
        redis := (st.redis.releaseScript p.1 p.2).1
        orphans := st.orphans.eraseIdx k }
  | .tick d =>
    some { st with
      now := st.now + d
      redis := st.redis.expireKeys (st.now + d) }

end Steps

/-- The call at `i` takes a step that depends on no choice. -/
abbrev Label.next (i : ℕ) : Label := .run i [] false

/-! ## What steps leave as it is -/

section Frame

variable {cfg : Settings} {st st' : State} {i gw : ℕ} {listing : List Symbol} {flag sent : Bool}
  {pc : Pc} {symbol : Symbol}

/-- A step of a call is the step of its program counter. -/
theorem step_run (h : step cfg st (.run i listing flag) = some st') :
    ∃ gw pc, st.calls[i]? = some ⟨gw, pc⟩ ∧ runCall cfg st i gw listing flag pc = some st' := by
  obtain ⟨⟨gw, pc⟩, hi, hrun⟩ := Option.bind_eq_some_iff.1 h
  exact ⟨gw, pc, hi, hrun⟩

/-- The program counters whose step changes nothing else. -/
def Pc.isLocal : Pc → Bool
  | .hbMembers _ => true
  | .hbReply _ _ => true
  | .discMembers _ => true
  | .discReply _ _ => true
  | .relStart _ => true
  | .relSleep _ _ => true
  | .cleanScan _ => true
  | .cleanBefore _ _ => true
  | .cleanAfter _ _ _ => true
  | .metricsScan _ => true
  | .metricsCard _ _ => true
  | _ => false

/-- A local step leaves everything but the call. -/
theorem runCall_local (hlocal : pc.isLocal = true)
    (h : runCall cfg st i gw listing flag pc = some st') : ∃ pc', st' = st.setPc i gw pc' := by
  cases pc
  case hbMembers conn =>
    rw [runCall] at h
    split_ifs at h
    exact ⟨_, (Option.some.inj h).symm⟩
  case hbReply conn symbols =>
    rw [runCall] at h
    split_ifs at h <;> exact ⟨_, (Option.some.inj h).symm⟩
  case discMembers conn =>
    rw [runCall] at h
    split_ifs at h
    exact ⟨_, (Option.some.inj h).symm⟩
  case discReply conn symbols =>
    rw [runCall] at h
    split_ifs at h <;> exact ⟨_, (Option.some.inj h).symm⟩
  case relSleep symbol wakeAt =>
    rw [runCall] at h
    split_ifs at h
    exact ⟨_, (Option.some.inj h).symm⟩
  all_goals first
    | exact absurd hlocal Bool.false_ne_true
    | exact ⟨_, (Option.some.inj h).symm⟩

/-- A release that is scheduled leaves Redis. -/
@[simp] theorem scheduleRelease_redis (st : State) (gw : ℕ) (symbol : Symbol) :
    (st.scheduleRelease gw symbol).redis = st.redis := by
  unfold State.scheduleRelease
  split_ifs <;> rfl

/-- A release that is scheduled leaves what has been unsubscribed from. -/
@[simp] theorem scheduleRelease_unsubscribed (st : State) (gw : ℕ) (symbol : Symbol) :
    (st.scheduleRelease gw symbol).unsubscribed = st.unsubscribed := by
  unfold State.scheduleRelease
  split_ifs <;> rfl

/-- `_schedule_release` leaves the calls, or lets a task join them. -/
theorem scheduleRelease_calls : (st.scheduleRelease gw symbol).calls =
    if st.hasReleaseTask gw symbol then st.calls else st.calls ++ [⟨gw, .relStart symbol⟩] := by
  unfold State.scheduleRelease
  split_ifs <;> rfl

/-- `_schedule_release` leaves the calls that there are. -/
theorem scheduleRelease_getElem? {call : Call} (h : st.calls[i]? = some call) :
    (st.scheduleRelease gw symbol).calls[i]? = some call := by
  rw [scheduleRelease_calls]
  split_ifs
  · exact h
  · rw [List.getElem?_append_left (List.getElem?_eq_some_iff.1 h).1, h]

/-- A release that is cancelled leaves Redis. -/
@[simp] theorem cancelRelease_redis (st : State) (gw : ℕ) (symbol : Symbol) (sent : Bool) :
    (st.cancelRelease gw symbol sent).redis = st.redis := by
  unfold State.cancelRelease
  split <;> rfl

/-- A release that is cancelled leaves what has been unsubscribed from. -/
@[simp] theorem cancelRelease_unsubscribed (st : State) (gw : ℕ) (symbol : Symbol) (sent : Bool) :
    (st.cancelRelease gw symbol sent).unsubscribed = st.unsubscribed := by
  unfold State.cancelRelease
  split <;> rfl

/-- A cancellation leaves the calls, or changes the one of the task. -/
theorem cancelRelease_calls (st : State) (gw : ℕ) (symbol : Symbol) (sent : Bool) :
    (st.cancelRelease gw symbol sent).calls = st.calls ∨ ∃ j call,
      st.releaseTasks gw symbol = some j ∧ st.calls[j]? = some call ∧
      (st.cancelRelease gw symbol sent).calls = st.calls.set j ⟨call.gw, call.pc.cancel⟩ := by
  unfold State.cancelRelease
  split
  · exact Or.inl rfl
  · next j call heq =>
    obtain ⟨j', hj', hmap⟩ := Option.bind_eq_some_iff.1 heq
    obtain ⟨call', hcall', hpair⟩ := Option.map_eq_some_iff.1 hmap
    obtain ⟨rfl, rfl⟩ := Prod.mk.inj hpair
    exact Or.inr ⟨j', call', hj', hcall', rfl⟩

/-- A cancellation leaves every call that is no release task. -/
theorem cancelRelease_getElem? {call : Call} (h : st.calls[i]? = some call)
    (hpc : call.pc.cancel = call.pc) :
    (st.cancelRelease gw symbol sent).calls[i]? = some call := by
  rcases cancelRelease_calls st gw symbol sent with heq | ⟨j, call', -, hj, heq⟩
  · rw [heq, h]
  · rw [heq]
    by_cases hij : j = i
    · subst hij
      obtain rfl : call' = call := Option.some.inj (hj.symm.trans h)
      rw [hpc, List.getElem?_set_self (List.getElem?_eq_some_iff.1 h).1]
    · rw [List.getElem?_set_ne hij, h]

end Frame

end MarketDataGateway.Registry

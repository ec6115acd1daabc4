import MarketDataGateway.Lib.Transition
import MarketDataGateway.Session.Replies

/-!
# Commands while other tasks run

A command of `receive_loop` step by step, with `heartbeat_loop` of the same session and other tasks
of the gateways between its steps. A step reaches from one `await` that changes a store to the next;
what a script of the registry does is one step, and `handle` of `Session.Receive` is the case that
nothing comes in between (`path_handle`).

A heartbeat lists the symbols of the connection, and then adds the connection to the set of each. An
`unsubscribe` in between is undone by it, although it may have been acknowledged.
`truthful_of_clean` is that, but for that and for a cached payload that is no quote, each reply is
true of the stores when it is sent, and until the next command.
-/

namespace MarketDataGateway.Session.Atomicity

open Lib
open Registry (ConnId Redis)

/-! ## The code -/

/-- A command that is being handled: its payload, and the stores when it was received. -/
structure Turn where
  /-- The payload. -/
  payload : Json
  /-- The stores. -/
  before : State

/-- Where `receive_loop` is. -/
inductive Stage
  /-- It waits for a frame. -/
  | idle
  /-- The command has passed the checks of the entitlements, and waits for the limiter. -/
  | limiting (t : Turn) (command : SubscriptionCommand)
  /-- `subscriptions.subscribe`, which began at `now`, has come to these symbols. -/
  | registering (t : Turn) (command : SubscriptionCommand) (now : Timestamp)
      (todo added : List Symbol)
  /-- The symbols wait for `hub.subscribe`. -/
  | joining (t : Turn) (command : SubscriptionCommand) (globalAdded : List Symbol)
  /-- `hub.subscribe` has raised, and the call that undoes the registry's part has come to these
  symbols. -/
  | undoing (t : Turn) (e : SessionError) (now : Timestamp) (todo : List Symbol)
  /-- The loop over `local_added` has come to these symbols. -/
  | fetching (t : Turn) (command : SubscriptionCommand) (todo localAdded globalAdded : List Symbol)
  /-- The symbols wait for `hub.unsubscribe`. -/
  | leaving (t : Turn) (command : SubscriptionCommand)
  /-- `subscriptions.unsubscribe`, which began at `now`, has come to these symbols. -/
  | unregistering (t : Turn) (command : SubscriptionCommand) (now : Timestamp)
      (todo localRemoved : List Symbol)
  /-- The last message to the command waits to be sent. -/
  | answering (t : Turn) (m : StreamMessage)
  /-- An exception has been raised within the `try`. -/
  | refusing (t : Turn) (e : SessionError)
  /-- The last message to the command has been sent. -/
  | replied (t : Turn) (m : StreamMessage)
  /-- An exception has ended the loop. -/
  | ended (e : SessionError)

/-- The session and what it shares. -/
structure World where
  /-- The stores. -/
  state : State
  /-- `time.time()`. -/
  now : Timestamp
  /-- The clock of Redis. -/
  clock : Timestamp
  /-- Where `receive_loop` is. -/
  stage : Stage
  /-- The messages to commands. -/
  sent : List StreamMessage
  /-- What the heartbeat has listed and not yet added, and the time at which the entries will
  expire. -/
  beat : Option (List Symbol × Timestamp)

section Code

variable (cfg : Config)

/-- What becomes of a payload up to the first `await` that matters. -/
def begin (st : State) (payload : Json) : Stage :=
  let t : Turn := ⟨payload, st⟩
  match SubscriptionCommand.modelValidate cfg.py payload with
  | .error e => .refusing t e
  | .ok command =>
    if command.action = .ping then .answering t ⟨command.requestId, .pong⟩
    else
      match authorize cfg command with
      | .error e => .refusing t e
      | .ok () => .limiting t command

/-- What follows the limiter's answer. -/
def World.afterLimiter (w : World) (allowed : Bool) (t : Turn)
    (command : SubscriptionCommand) : Stage :=
  if allowed then
    if command.action = .subscribe then
      match validateSymbolCount cfg.maxSymbols cfg.identity.tier
          (w.state.subscriptions cfg ∪ command.symbolSet.toFinset).card with
      | .error e => .refusing t e
      | .ok () => .registering t command w.now command.symbolSet []
    else .leaving t command
  else .answering t ⟨command.requestId,
    .error "rate_limit" (some (text "subscription limit exceeded"))⟩

/-- The stores with other keys. -/
def World.withRedis (w : World) (redis : Redis) (stage : Stage) : World :=
  { w with state := { w.state with redis }, stage }

/-- A message is sent. -/
def World.send (w : World) (m : StreamMessage) (stage : Stage) : World :=
  { w with sent := w.sent ++ [m], stage }

/-- The `except`. -/
def World.refuse (w : World) (t : Turn) (e : SessionError) : World :=
  match e.reply with
  | none => { w with stage := .ended e }
  | some data =>
    match StreamMessage.parseRequestId (payloadRequestId t.payload) with
    | none => { w with stage := .ended .validationError }
    | some requestId =>
      let message : StreamMessage := ⟨requestId, data⟩
      if message.encodable then w.send message (.replied t message)
      else { w with stage := .ended .unicodeEncodeError }

/-- A step of `receive_loop` within a command, for what the limiter and the store answer. -/
def World.advance (w : World) (allowed : Bool) (latest : Option PyStr) (fresh : Models.Fresh) :
    Option World :=
  match w.stage with
  | .idle | .replied _ _ | .ended _ => none
  | .limiting t command => some { w with stage := w.afterLimiter cfg allowed t command }
  | .registering t command now (symbol :: todo) added =>
    let expiresAt := now + cfg.settings.subscriptionTtlSeconds * second
    let (redis, after, isNew) :=
      w.state.redis.subscribeScript w.clock cfg.connectionId symbol now expiresAt
      cfg.settings.subscriptionTtlSeconds
    some (w.withRedis (activate redis symbol after)
      (.registering t command now todo (if isNew then added ++ [symbol] else added)))
  | .registering t command now [] added =>
    some (w.withRedis (refreshMetrics w.state.redis now) (.joining t command added))
  | .joining t command globalAdded =>
    match w.state.hub.subscribe cfg.maxSymbols cfg.connectionId command.symbolSet with
    | .error e => some { w with stage := .undoing t e w.now globalAdded }
    | .ok (localAdded, hub) => some { w with
        state := { w.state with hub }
        stage := .fetching t command localAdded localAdded globalAdded }
  | .undoing t e now (symbol :: todo) =>
    some (w.withRedis (w.state.redis.unsubscribeScript cfg.connectionId symbol now).1
      (.undoing t e now todo))
  | .undoing t e now [] => some (w.withRedis (refreshMetrics w.state.redis now) (.refusing t e))
  | .fetching t command (_ :: todo) localAdded globalAdded =>
    match getLatest cfg.pydantic fresh latest with
    | .error e => some { w with stage := .refusing t e }
    | .ok none => some { w with stage := .fetching t command todo localAdded globalAdded }
    | .ok (some quote) =>
      some (w.send ⟨command.requestId,
        .snapshot quote⟩ (.fetching t command todo localAdded globalAdded))
  | .fetching t command [] localAdded globalAdded =>
    some { w with stage := .answering t ⟨command.requestId, .subscribe localAdded globalAdded⟩ }
  | .leaving t command =>
    match w.state.hub.unsubscribe cfg.connectionId command.symbolSet with
    | .error e => some { w with stage := .refusing t e }
    | .ok (localRemoved, hub) => some { w with
        state := { w.state with hub }
        stage := .unregistering t command w.now localRemoved localRemoved }
  | .unregistering t command now (symbol :: todo) localRemoved =>
    some (w.withRedis (w.state.redis.unsubscribeScript cfg.connectionId symbol now).1
      (.unregistering t command now todo localRemoved))
  | .unregistering t command now [] localRemoved =>
    some (w.withRedis (refreshMetrics w.state.redis now)
      (.answering t ⟨command.requestId, .unsubscribe localRemoved⟩))
  | .answering t m => some (w.send m (.replied t m))
  | .refusing t e => some (w.refuse t e)

/-- The steps. -/
inductive Label
  /-- A frame has been received, and read. -/
  | receive (payload : Json)
  /-- The command goes on. -/
  | advance (allowed : Bool) (latest : Option PyStr) (fresh : Models.Fresh)
  /-- `heartbeat` lists the symbols of the connection. -/
  | list (symbols : List Symbol)
  /-- The pipeline of `heartbeat` adds the connection to the set of the next symbol, or is done. -/
  | add
  /-- Other tasks run, and time passes. -/
  | others (state : State) (now clock : Timestamp)

/-- One step. -/
def step (w : World) : Label → Option World
  | .receive payload =>
    match w.stage with
    | .idle | .replied _ _ => some { w with stage := begin cfg w.state payload }
    | _ => none
  | .advance allowed latest fresh => w.advance cfg allowed latest fresh
  | .list symbols =>
    if w.beat = none ∧ symbols.Perm (w.state.redis.conns cfg.connectionId) then
      if symbols = [] then some w
      else some { w with
        beat := some (symbols, w.now + cfg.settings.subscriptionTtlSeconds * second) }
    else none
  | .add =>
    let ttl := cfg.settings.subscriptionTtlSeconds
    match w.beat with
    | none => none
    | some (symbol :: symbols, expiresAt) => some { w with
        state := { w.state with
          redis := (w.state.redis.zadd symbol cfg.connectionId expiresAt).expireSet symbol w.clock
            (ttl * 2) }
        beat := some (symbols, expiresAt) }
    | some ([], _) => some { w with
        state := { w.state with redis := w.state.redis.expireConn cfg.connectionId w.clock ttl }
        beat := none }
  | .others state now clock => some { w with state, now, clock }

end Code

/-! ## What is proved -/

section Spec

variable (cfg : Config)

/-- The session as it is opened: it has no symbols, and its connection is new to the registry. -/
structure Opened (w : World) : Prop where
  session : w.state.hub.sessions cfg.connectionId = some ⟨cfg.identity, ∅⟩
  fresh : ∀ symbol, cfg.connectionId ∉ w.state.redis.sets symbol
  stage : w.stage = .idle
  beat : w.beat = none

/-- No entry of the connection expires, and other tasks leave its entries and its session as they
are. -/
def Admissible (w : World) : Label → Prop
  | .advance _ _ _ =>
    match w.stage with
    | .registering _ _ now (_ :: _) _ => w.now < now + cfg.settings.subscriptionTtlSeconds * second
    | _ => True
  | .add =>
    match w.beat with
    | some (_ :: _, expiresAt) => w.now < expiresAt
    | _ => True
  | .others state now _ =>
    w.now ≤ now ∧ state.hub.sessions cfg.connectionId = w.state.hub.sessions cfg.connectionId ∧
      (∀ symbol, cfg.connectionId ∈ state.redis.sets symbol →
        cfg.connectionId ∈ w.state.redis.sets symbol) ∧
      ∀ symbol, cfg.connectionId ∈ w.state.redis.sets symbol →
        Holds now cfg.connectionId state.redis symbol
  | _ => True

/-- A heartbeat adds the connection only where it still is, and no cached payload of a new symbol is
refused by a `ValidationError`. -/
def Clean (w : World) : Label → Prop
  | .advance _ latest fresh =>
    match w.stage with
    | .fetching _ _ (_ :: _) _ _ => getLatest cfg.pydantic fresh latest ≠ .error .validationError
    | _ => True
  | .add =>
    match w.beat with
    | some (symbol :: _, _) => cfg.connectionId ∈ w.state.redis.sets symbol
    | _ => True
  | _ => True

/-- What a reply says is so: after an error the stores are what they were before the command, and
after an acknowledgement the hub has the symbols that the command asks for, and the registry those
of the hub. -/
structure Truthful (t : Turn) (m : StreamMessage) (w : World) : Prop where
  error : m.data.type = .error →
    w.state.subscriptions cfg = t.before.subscriptions cfg ∧
      ∀ symbol, cfg.connectionId ∈ w.state.redis.sets symbol ↔
        cfg.connectionId ∈ t.before.redis.sets symbol
  ack : m.data.type = .ack → ∀ command,
    SubscriptionCommand.modelValidate cfg.py t.payload = .ok command → command.action ≠ .ping →
      w.state.subscriptions cfg =
        (if command.action = .subscribe then t.before.subscriptions cfg ∪ command.symbolSet.toFinset
        else t.before.subscriptions cfg \ command.symbolSet.toFinset) ∧
      ∀ symbol, Holds w.now cfg.connectionId w.state.redis symbol ↔
        symbol ∈ w.state.subscriptions cfg

end Spec

/-! ## The registry -/

/-- The connection is in the sets of these symbols and in no other, by entries that have not
expired. -/
def Registered (conn : ConnId) (now : Timestamp) (r : Redis) (symbols : Finset Symbol) : Prop :=
  ∀ s, (s ∈ symbols → Holds now conn r s) ∧ (conn ∈ r.sets s → s ∈ symbols)

section Registry

variable {conn : ConnId} {now began clock expiresAt : Timestamp} {r r' : Redis} {symbol : Symbol}
  {symbols symbols' : Finset Symbol} {ttl : ℤ}

/-- A connection is in the sets of its symbols and in no others. -/
theorem Registered.mem_iff (h : Registered conn now r symbols) (s : Symbol) :
    conn ∈ r.sets s ↔ s ∈ symbols :=
  ⟨(h s).2, fun hs => ((h s).1 hs).mem⟩

/-- A registered connection holds its symbols and no others. -/
theorem Registered.holds_iff (h : Registered conn now r symbols) (s : Symbol) :
    Holds now conn r s ↔ s ∈ symbols :=
  ⟨fun hs => (h s).2 hs.mem, (h s).1⟩

/-- Only the sets matter. -/
theorem Registered.congr (h : Registered conn now r symbols) (hsets : r'.sets = r.sets) :
    Registered conn now r' symbols := by
  unfold Registered Holds
  rw [hsets]
  exact h

/-- A purge with an earlier time keeps what has not expired. -/
theorem unexpired_purged {set : SortedSet ConnId} (hle : began ≤ now) (h : set.Unexpired now conn) :
    (set.zremrangebyscore began).Unexpired now conn := by
  obtain ⟨e, he, hm, hlt⟩ := h
  exact ⟨e, List.mem_filter.2 ⟨he, decide_eq_true (hle.trans_lt hlt)⟩, hm, hlt⟩

/-- Metrics that are refreshed leave a connection registered. -/
theorem Registered.refreshMetrics (h : Registered conn now r symbols) (hle : began ≤ now) :
    Registered conn now (refreshMetrics r began) symbols :=
  fun s => ⟨fun hs => unexpired_purged hle ((h s).1 hs),
    fun hmem => (h s).2 (SortedSet.mem_of_mem_zremrangebyscore hmem)⟩

/-- The script of `subscribe` adds its symbol. -/
theorem Registered.subscribeScript (h : Registered conn now r symbols) (httl : 0 < ttl)
    (hexpires : now < expiresAt) :
    Registered conn now (r.subscribeScript clock conn symbol began expiresAt ttl).1
      (insert symbol symbols) := by
  intro s
  refine ⟨fun hs => ?_, fun hmem => ?_⟩
  · unfold Holds
    by_cases hsymbol : s = symbol
    · rw [hsymbol, Redis.subscribeScript_sets_self httl, SortedSet.unexpired_zadd]
      exact Or.inl ⟨rfl, hexpires⟩
    · rw [Redis.subscribeScript_sets_of_ne hsymbol]
      exact (h s).1 (Finset.mem_of_mem_insert_of_ne hs hsymbol)
  · rcases Redis.mem_of_mem_subscribeScript hmem with hmem | ⟨-, rfl⟩
    · exact Finset.mem_insert_of_mem ((h s).2 hmem)
    · exact Finset.mem_insert_self _ _

/-- The script of `unsubscribe` removes its symbol. -/
theorem Registered.unsubscribeScript (h : Registered conn now r symbols) :
    Registered conn now (r.unsubscribeScript conn symbol began).1 (symbols.erase symbol) := by
  intro s
  refine ⟨fun hs => ?_, fun hmem => ?_⟩
  · obtain ⟨hne, hs⟩ := Finset.mem_erase.1 hs
    unfold Holds
    rw [Redis.unsubscribeScript_sets_of_ne hne]
    exact (h s).1 hs
  · obtain ⟨hmem, hne⟩ := Redis.mem_of_mem_unsubscribeScript hmem
    exact Finset.mem_erase.2 ⟨fun hs => hne ⟨rfl, hs⟩, (h s).2 hmem⟩

/-- A heartbeat keeps the entries whose symbol it adds where it is. -/
theorem Registered.zadd (h : Registered conn now r symbols)
    (hmem : symbol ∈ symbols) (httl : 0 < ttl)
    (hexpires : now < expiresAt) :
    Registered conn now ((r.zadd symbol conn expiresAt).expireSet symbol clock ttl) symbols := by
  intro s
  unfold Holds
  rw [Redis.expireSet_sets_of_pos httl]
  by_cases hs : s = symbol
  · rw [hs, Redis.zadd_sets_self, SortedSet.unexpired_zadd]
    exact ⟨fun _ => Or.inl ⟨rfl, hexpires⟩, fun _ => hmem⟩
  · rw [Redis.zadd_sets_of_ne hs]
    exact h s

end Registry

/-! ## The invariant -/

section Invariant

variable (cfg : Config)

/-- When the command began, the registry had the symbols of the hub, and these were `symbols`. -/
structure Turn.Began (t : Turn) (symbols : Finset Symbol) : Prop where
  hub : t.before.subscriptions cfg = symbols
  registry : ∀ symbol, cfg.connectionId ∈ t.before.redis.sets symbol ↔ symbol ∈ symbols

/-- The command of the payload, which is one of this action. -/
structure Turn.Asks (t : Turn) (command : SubscriptionCommand) (action : CommandAction) : Prop where
  valid : SubscriptionCommand.modelValidate cfg.py t.payload = .ok command
  action : command.action = action

/-- What the last message to a command says if the hub and the registry have these symbols. -/
structure Turn.Reports (t : Turn) (m : StreamMessage) (symbols : Finset Symbol) : Prop where
  error : m.data.type = .error → t.Began cfg symbols
  ack : m.data.type = .ack → ∀ command,
    SubscriptionCommand.modelValidate cfg.py t.payload = .ok command → command.action ≠ .ping →
      symbols =
        if command.action = .subscribe then t.before.subscriptions cfg ∪ command.symbolSet.toFinset
        else t.before.subscriptions cfg \ command.symbolSet.toFinset

/-- The symbols of the hub and those of the registry, by where the command is. Between the two
stores' steps they differ by the symbols that the loop of the registry has come past. -/
inductive Expects : Stage → Finset Symbol → Finset Symbol → Prop
  | idle {symbols : Finset Symbol} : Expects .idle symbols symbols
  | limiting {t : Turn} {command : SubscriptionCommand} {symbols : Finset Symbol} :
      t.Began cfg symbols → SubscriptionCommand.modelValidate cfg.py t.payload = .ok command →
      command.action ≠ .ping → Expects (.limiting t command) symbols symbols
  | registering {t : Turn} {command : SubscriptionCommand} {now : Timestamp}
      {done todo added : List Symbol} {symbols : Finset Symbol} :
      t.Began cfg symbols → t.Asks cfg command .subscribe →
      validateSymbolCount cfg.maxSymbols cfg.identity.tier
        (symbols ∪ command.symbolSet.toFinset).card = .ok () →
      done ++ todo = command.symbolSet →
      Expects (.registering t command now todo added) symbols (symbols ∪ done.toFinset)
  | joining {t : Turn} {command : SubscriptionCommand} {globalAdded : List Symbol}
      {symbols : Finset Symbol} : t.Began cfg symbols → t.Asks cfg command .subscribe →
      validateSymbolCount cfg.maxSymbols cfg.identity.tier
        (symbols ∪ command.symbolSet.toFinset).card = .ok () →
      Expects (.joining t command globalAdded) symbols (symbols ∪ command.symbolSet.toFinset)
  | fetching {t : Turn} {command : SubscriptionCommand} {todo localAdded globalAdded : List Symbol}
      {symbols joined : Finset Symbol} : t.Began cfg symbols → t.Asks cfg command .subscribe →
      joined = symbols ∪ command.symbolSet.toFinset →
      Expects (.fetching t command todo localAdded globalAdded) joined joined
  | leaving {t : Turn} {command : SubscriptionCommand} {symbols : Finset Symbol} :
      t.Began cfg symbols → t.Asks cfg command .unsubscribe →
      Expects (.leaving t command) symbols symbols
  | unregistering {t : Turn} {command : SubscriptionCommand} {now : Timestamp}
      {done todo removed : List Symbol} {symbols : Finset Symbol} :
      t.Began cfg symbols → t.Asks cfg command .unsubscribe → done ++ todo = removed →
      removed = command.symbolSet.filter (· ∈ symbols) →
      Expects (.unregistering t command now todo removed) (symbols \ command.symbolSet.toFinset)
        (symbols \ done.toFinset)
  | answering {t : Turn} {m : StreamMessage} {symbols : Finset Symbol} : t.Reports cfg m symbols →
      Expects (.answering t m) symbols symbols
  | refusing {t : Turn} {e : SessionError} {symbols : Finset Symbol} :
      (e.reply = none ∨ t.Began cfg symbols) → Expects (.refusing t e) symbols symbols
  | replied {t : Turn} {m : StreamMessage} {symbols : Finset Symbol} : t.Reports cfg m symbols →
      Expects (.replied t m) symbols symbols
  | ended {e : SessionError} {symbols : Finset Symbol} : Expects (.ended e) symbols symbols

/-- `time.time()` of the call of the registry that is going on. -/
def Stage.began : Stage → Option Timestamp
  | .registering _ _ now _ _ | .undoing _ _ now _ | .unregistering _ _ now _ _ => some now
  | _ => none

/-- What holds in all runs. -/
structure Invariant (w : World) : Prop where
  connected : Connected cfg w.state
  began : ∀ now ∈ w.stage.began, now ≤ w.now
  beat : ∀ p ∈ w.beat, p.2 ≤ w.now + cfg.settings.subscriptionTtlSeconds * second
  expects : ∃ symbols, Expects cfg w.stage (w.state.subscriptions cfg) symbols ∧
    Registered cfg.connectionId w.now w.state.redis symbols

variable {cfg} {w w' : World}

/-- The invariant holds of a world that opens. -/
theorem Opened.invariant (h : Opened cfg w) : Invariant cfg w where
  connected := ⟨_, h.session, rfl⟩
  began := by
    rw [h.stage]
    exact nofun
  beat := by
    rw [h.beat]
    exact nofun
  expects := by
    have hsubs : w.state.subscriptions cfg = ∅ := Hub.subscriptions_eq h.session
    refine ⟨∅, ?_, fun s => ⟨fun hs => absurd hs (Finset.notMem_empty s), fun hmem => ?_⟩⟩
    · rw [h.stage, hsubs]
      exact .idle
    · exact absurd hmem (h.fresh s)

/-- A payload is begun with what the stores have. -/
theorem expects_begin {symbols : Finset Symbol} {payload : Json}
    (hbegan : Turn.Began cfg ⟨payload, w.state⟩ symbols) :
    Expects cfg (begin cfg w.state payload) symbols symbols := by
  unfold begin
  dsimp only
  split
  · exact .refusing (Or.inr hbegan)
  · next command hvalid =>
    split_ifs with hping
    · refine .answering ⟨nofun, fun _ command' hvalid' hnot => ?_⟩
      obtain rfl := Except.ok.inj (hvalid.symm.trans hvalid')
      exact absurd hping hnot
    · split
      · exact .refusing (Or.inr hbegan)
      · exact .limiting hbegan hvalid hping

/-- A command that has begun has taken no time yet. -/
theorem began_begin (st : State) (payload : Json) : (begin cfg st payload).began = none := by
  unfold begin
  dsimp only
  split
  · rfl
  · split_ifs
    · rfl
    · split <;> rfl

/-- The limiter's answer leaves the stores as they are. -/
theorem expects_afterLimiter {t : Turn} {command : SubscriptionCommand} {symbols : Finset Symbol}
    (allowed : Bool) (hbegan : t.Began cfg symbols) (hsubs : w.state.subscriptions cfg = symbols)
    (hvalid : SubscriptionCommand.modelValidate cfg.py t.payload = .ok command)
    (hping : command.action ≠ .ping) :
    Expects cfg (w.afterLimiter cfg allowed t command) symbols symbols := by
  unfold World.afterLimiter
  split_ifs with hallowed hsubscribe
  · split
    · exact .refusing (Or.inr hbegan)
    · next hcount =>
      rw [hsubs] at hcount
      have h := @Expects.registering cfg t command w.now [] command.symbolSet [] symbols hbegan
        ⟨hvalid, hsubscribe⟩ hcount rfl
      rwa [List.toFinset_nil, Finset.union_empty] at h
  · have hunsubscribe : command.action = .unsubscribe := by
      cases haction : command.action with
      | subscribe => exact absurd haction hsubscribe
      | ping => exact absurd haction hping
      | unsubscribe => rfl
    exact .leaving hbegan ⟨hvalid, hunsubscribe⟩
  · exact .answering ⟨fun _ => hbegan, nofun⟩

/-- The time that is taken after the limiter is now. -/
theorem eq_now_of_afterLimiter {allowed : Bool} {t : Turn} {command : SubscriptionCommand}
    {now : Timestamp} (h : now ∈ (w.afterLimiter cfg allowed t command).began) : now = w.now := by
  unfold World.afterLimiter at h
  split_ifs at h
  · split at h
    · exact nomatch h
    · exact (Option.some.inj h).symm
  · exact nomatch h
  · exact nomatch h

/-- The call of the registry that is going on leaves the hub as it is. -/
theorem Invariant.withRedis {redis : Redis} {stage : Stage} {symbols : Finset Symbol}
    (h : Invariant cfg w) (hbegan : ∀ now ∈ stage.began, now ≤ w.now)
    (hexpects : Expects cfg stage (w.state.subscriptions cfg) symbols)
    (hregistered : Registered cfg.connectionId w.now redis symbols) :
    Invariant cfg (w.withRedis redis stage) where
  connected := h.connected
  began := hbegan
  beat := h.beat
  expects := ⟨symbols, hexpects, hregistered⟩

/-- A step that only goes on to another stage. -/
theorem Invariant.withStage {stage : Stage} {sent : List StreamMessage} {symbols : Finset Symbol}
    (h : Invariant cfg w) (hbegan : stage.began = none)
    (hexpects : Expects cfg stage (w.state.subscriptions cfg) symbols)
    (hregistered : Registered cfg.connectionId w.now w.state.redis symbols) :
    Invariant cfg { w with sent, stage } where
  connected := h.connected
  began := by
    show ∀ now ∈ stage.began, now ≤ w.now
    rw [hbegan]
    exact nofun
  beat := h.beat
  expects := ⟨symbols, hexpects, hregistered⟩

/-- A step that changes the session in the hub. -/
theorem Invariant.withHub {hub : Hub} {stage : Stage} {symbols : Finset Symbol}
    (h : Invariant cfg w)
    (hidentity : (hub.sessions cfg.connectionId).map (·.identity) =
      (w.state.hub.sessions cfg.connectionId).map (·.identity))
    (hbegan : ∀ now ∈ stage.began, now ≤ w.now)
    (hexpects : Expects cfg stage (hub.subscriptions cfg.connectionId) symbols)
    (hregistered : Registered cfg.connectionId w.now w.state.redis symbols) :
    Invariant cfg { w with state := { w.state with hub }, stage } where
  connected := h.connected.of_identity hidentity
  began := hbegan
  beat := h.beat
  expects := ⟨symbols, hexpects, hregistered⟩

/-- The last message to a command is sent, if it can be. -/
theorem Invariant.refuse {t : Turn} {e : SessionError} {symbols : Finset Symbol}
    (h : Invariant cfg w)
    (hsubs : w.state.subscriptions cfg = symbols) (hcaught : e.reply = none ∨ t.Began cfg symbols)
    (hregistered : Registered cfg.connectionId w.now w.state.redis symbols) :
    Invariant cfg (w.refuse t e) := by
  subst hsubs
  unfold World.refuse
  split
  · exact h.withStage rfl .ended hregistered
  · next data hreply =>
    have hbegan : t.Began cfg (w.state.subscriptions cfg) := by
      refine hcaught.resolve_left fun hnone => ?_
      rw [hreply] at hnone
      exact nomatch hnone
    split
    · exact h.withStage rfl .ended hregistered
    · dsimp only
      split_ifs
      · refine h.withStage rfl (.replied ⟨fun _ => hbegan, fun hack => ?_⟩) hregistered
        exact absurd ((type_of_reply hreply).symm.trans hack) nofun
      · exact h.withStage rfl .ended hregistered

section Advance

variable {allowed : Bool} {latest : Option PyStr} {fresh : Models.Fresh} {t : Turn}
  {command : SubscriptionCommand} {now : Timestamp}
  {done todo added removed localAdded globalAdded : List Symbol} {symbols joined : Finset Symbol}

/-- The registry's `subscribe` adds the symbols of the command one after another. -/
theorem Invariant.advance_registering (h : Invariant cfg w)
    (hstage : w.stage = .registering t command now todo added)
    (hsubs : w.state.subscriptions cfg = symbols) (hbegan : t.Began cfg symbols)
    (hasks : t.Asks cfg command .subscribe)
    (hcount : validateSymbolCount cfg.maxSymbols cfg.identity.tier
      (symbols ∪ command.symbolSet.toFinset).card = .ok ())
    (hdone : done ++ todo = command.symbolSet)
    (hregistered : Registered cfg.connectionId w.now w.state.redis (symbols ∪ done.toFinset))
    (hadmissible : Admissible cfg w (.advance allowed latest fresh))
    (hstep : w.advance cfg allowed latest fresh = some w') : Invariant cfg w' := by
  have hstart := h.began
  unfold Admissible at hadmissible
  unfold World.advance at hstep
  rw [hstage] at hstep
  rw [hstage] at hstart hadmissible
  have hle : now ≤ w.now := hstart now rfl
  cases todo with
  | nil =>
    -- All symbols are registered: the hub is next.
    obtain rfl := Option.some.inj hstep
    rw [List.append_nil] at hdone
    rw [hdone] at hregistered
    refine h.withRedis (fun _ hnow => by cases hnow) ?_ (hregistered.refreshMetrics hle)
    rw [hsubs]
    exact .joining hbegan hasks hcount
  | cons symbol todo =>
    obtain rfl := Option.some.inj hstep
    dsimp only at hadmissible
    -- The deadline is still to come when the script runs, so the time to live is positive.
    have httl : 0 < cfg.settings.subscriptionTtlSeconds := by
      unfold second at hadmissible
      lia
    refine h.withRedis hstart ?_
      ((hregistered.subscribeScript httl hadmissible).congr (sets_activate _ _ _))
    have hnext : (done ++ [symbol]) ++ todo = command.symbolSet := by
      rw [List.append_assoc]
      exact hdone
    -- One symbol more is registered.
    have hinsert : symbols ∪ (done ++ [symbol]).toFinset =
        insert symbol (symbols ∪ done.toFinset) := by
      ext s
      simp only [Finset.mem_union, List.mem_toFinset, List.mem_append, List.mem_singleton,
        Finset.mem_insert]
      tauto
    rw [hsubs, ← hinsert]
    exact .registering hbegan hasks hcount hnext

/-- The hub's `subscribe` goes through: the count has been checked for the symbols that it has. -/
theorem Invariant.advance_joining (h : Invariant cfg w)
    (hstage : w.stage = .joining t command globalAdded)
    (hsubs : w.state.subscriptions cfg = symbols) (hbegan : t.Began cfg symbols)
    (hasks : t.Asks cfg command .subscribe)
    (hcount : validateSymbolCount cfg.maxSymbols cfg.identity.tier
      (symbols ∪ command.symbolSet.toFinset).card = .ok ())
    (hregistered : Registered cfg.connectionId w.now w.state.redis
      (symbols ∪ command.symbolSet.toFinset))
    (hstep : w.advance cfg allowed latest fresh = some w') : Invariant cfg w' := by
  unfold World.advance at hstep
  rw [hstage] at hstep
  obtain ⟨session, hsession, hidentity⟩ := h.connected
  -- The count has been checked, and the hub has not changed since.
  obtain ⟨localAdded, hub, hrun, hsubscribed⟩ : ∃ localAdded hub,
      w.state.hub.subscribe cfg.maxSymbols cfg.connectionId command.symbolSet =
        .ok (localAdded, hub) ∧
      Hub.Subscribed w.state.hub cfg.connectionId command.symbolSet localAdded hub := by
    refine Hub.exists_subscribe hsession ?_
    rw [hidentity, show w.state.hub.subscriptions cfg.connectionId = symbols from hsubs]
    exact hcount
  dsimp only at hstep
  rw [hrun] at hstep
  obtain rfl := Option.some.inj hstep
  have hhub := hsubscribed.subscriptions
  rw [show w.state.hub.subscriptions cfg.connectionId = symbols from hsubs] at hhub
  refine h.withHub hsubscribed.identity (fun _ hnow => by cases hnow) ?_ hregistered
  rw [hhub]
  exact .fetching hbegan hasks rfl

/-- The snapshots change neither of the stores. -/
theorem Invariant.advance_fetching (h : Invariant cfg w)
    (hstage : w.stage = .fetching t command todo localAdded globalAdded)
    (hsubs : w.state.subscriptions cfg = joined) (hbegan : t.Began cfg symbols)
    (hasks : t.Asks cfg command .subscribe)
    (hjoined : joined = symbols ∪ command.symbolSet.toFinset)
    (hregistered : Registered cfg.connectionId w.now w.state.redis joined)
    (hclean : Clean cfg w (.advance allowed latest fresh))
    (hstep : w.advance cfg allowed latest fresh = some w') : Invariant cfg w' := by
  unfold Clean at hclean
  unfold World.advance at hstep
  rw [hstage] at hstep
  rw [hstage] at hclean
  cases todo with
  | nil =>
    obtain rfl := Option.some.inj hstep
    refine h.withStage rfl ?_ hregistered
    rw [hsubs]
    -- The snapshots are there: the symbols are those that the command has come to.
    refine .answering ⟨fun herror => (by cases herror), fun _ command' hvalid _ => ?_⟩
    obtain rfl := Except.ok.inj (hasks.valid.symm.trans hvalid)
    rw [if_pos hasks.action, hbegan.hub, hjoined]
  | cons symbol todo =>
    dsimp only at hstep
    split at hstep
    · next e hlatest =>
      obtain rfl := Option.some.inj hstep
      refine h.withStage rfl ?_ hregistered
      rw [hsubs]
      refine .refusing (Or.inl ?_)
      -- A payload that fails its validation is the one that a clean step excludes.
      rcases getLatest_eq_error hlatest with rfl | rfl
      · exact absurd hlatest hclean
      · rfl
    · obtain rfl := Option.some.inj hstep
      refine h.withStage rfl ?_ hregistered
      rw [hsubs]
      exact .fetching hbegan hasks hjoined
    · obtain rfl := Option.some.inj hstep
      refine h.withStage rfl ?_ hregistered
      rw [hsubs]
      exact .fetching hbegan hasks hjoined

/-- The hub's `unsubscribe` comes first, and gives the symbols that the registry is to remove. -/
theorem Invariant.advance_leaving (h : Invariant cfg w) (hstage : w.stage = .leaving t command)
    (hsubs : w.state.subscriptions cfg = symbols) (hbegan : t.Began cfg symbols)
    (hasks : t.Asks cfg command .unsubscribe)
    (hregistered : Registered cfg.connectionId w.now w.state.redis symbols)
    (hstep : w.advance cfg allowed latest fresh = some w') : Invariant cfg w' := by
  unfold World.advance at hstep
  rw [hstage] at hstep
  obtain ⟨session, hsession, -⟩ := h.connected
  obtain ⟨localRemoved, hub, hrun, hunsubscribed⟩ : ∃ localRemoved hub,
      w.state.hub.unsubscribe cfg.connectionId command.symbolSet = .ok (localRemoved, hub) ∧
      Hub.Unsubscribed w.state.hub cfg.connectionId command.symbolSet localRemoved hub :=
    Hub.exists_unsubscribe hsession
  dsimp only at hstep
  rw [hrun] at hstep
  obtain rfl := Option.some.inj hstep
  have hhub := hunsubscribed.subscriptions
  have hremoved := hunsubscribed.removed
  rw [show w.state.hub.subscriptions cfg.connectionId = symbols from hsubs] at hhub hremoved
  refine h.withHub hunsubscribed.identity (fun now hnow =>
    (Option.some.inj hnow).ge) ?_ hregistered
  rw [hhub]
  have hexpects := @Expects.unregistering cfg t command w.now [] localRemoved
    localRemoved _ hbegan
    hasks rfl hremoved
  rwa [List.toFinset_nil, Finset.sdiff_empty] at hexpects

/-- The registry's `unsubscribe` removes the symbols one after another. -/
theorem Invariant.advance_unregistering (h : Invariant cfg w)
    (hstage : w.stage = .unregistering t command now todo removed)
    (hsubs : w.state.subscriptions cfg = symbols \ command.symbolSet.toFinset)
    (hbegan : t.Began cfg symbols) (hasks : t.Asks cfg command .unsubscribe)
    (hdone : done ++ todo = removed) (hremoved : removed = command.symbolSet.filter (· ∈ symbols))
    (hregistered : Registered cfg.connectionId w.now w.state.redis (symbols \ done.toFinset))
    (hstep : w.advance cfg allowed latest fresh = some w') : Invariant cfg w' := by
  have hstart := h.began
  unfold World.advance at hstep
  rw [hstage] at hstep
  rw [hstage] at hstart
  have hle : now ≤ w.now := hstart now rfl
  cases todo with
  | nil =>
    obtain rfl := Option.some.inj hstep
    rw [List.append_nil] at hdone
    refine h.withRedis (fun _ hnow => by cases hnow) ?_ (hregistered.refreshMetrics hle)
    -- What has been removed is what the hub has given up.
    have hall : symbols \ done.toFinset = symbols \ command.symbolSet.toFinset := by
      rw [hdone, hremoved]
      ext symbol
      simp only [Finset.mem_sdiff, List.mem_toFinset, List.mem_filter, decide_eq_true_eq]
      tauto
    rw [hsubs, hall]
    refine .answering ⟨fun herror => (by cases herror), fun _ command' hvalid _ => ?_⟩
    obtain rfl := Except.ok.inj (hasks.valid.symm.trans hvalid)
    rw [if_neg (by rw [hasks.action]; exact fun haction => by cases haction), hbegan.hub]
  | cons symbol todo =>
    obtain rfl := Option.some.inj hstep
    refine h.withRedis hstart ?_ hregistered.unsubscribeScript
    have hnext : (done ++ [symbol]) ++ todo = removed := by
      rw [List.append_assoc]
      exact hdone
    have hexpects := @Expects.unregistering cfg t command now (done ++ [symbol]) todo _ _ hbegan
      hasks hnext hremoved
    -- One symbol fewer is registered.
    have herase : symbols \ (done ++ [symbol]).toFinset =
        (symbols \ done.toFinset).erase symbol := by
      ext s
      simp only [Finset.mem_sdiff, List.mem_toFinset, List.mem_append, List.mem_singleton,
        Finset.mem_erase]
      tauto
    rw [hsubs]
    rwa [herase] at hexpects

/-- What one step of a command keeps. -/
theorem Invariant.advance (h : Invariant cfg w)
    (hadmissible : Admissible cfg w (.advance allowed latest fresh))
    (hclean : Clean cfg w (.advance allowed latest fresh))
    (hstep : w.advance cfg allowed latest fresh = some w') : Invariant cfg w' := by
  obtain ⟨symbols, hexpects, hregistered⟩ := h.expects
  generalize hsubs : w.state.subscriptions cfg = subs at hexpects
  have hadvance := hstep
  unfold World.advance at hadvance
  generalize hstage : w.stage = stage at hexpects hadvance
  -- One lemma for each stage that the handler may be in.
  cases hexpects with
  | idle => cases hadvance
  | limiting hbegan hvalid hping =>
    obtain rfl := Option.some.inj hadvance
    have hexpects := expects_afterLimiter (w := w) allowed hbegan hsubs hvalid hping
    rw [← hsubs] at hexpects hregistered
    exact ⟨h.connected, fun now hnow => (eq_now_of_afterLimiter hnow).le, h.beat, _, hexpects,
      hregistered⟩
  | registering hbegan hasks hcount hdone =>
    exact h.advance_registering hstage hsubs hbegan hasks hcount hdone hregistered hadmissible hstep
  | joining hbegan hasks hcount =>
    exact h.advance_joining hstage hsubs hbegan hasks hcount hregistered hstep
  | fetching hbegan hasks hjoined =>
    exact h.advance_fetching hstage hsubs hbegan hasks hjoined hregistered hclean hstep
  | leaving hbegan hasks => exact h.advance_leaving hstage hsubs hbegan hasks hregistered hstep
  | unregistering hbegan hasks hdone hremoved =>
    exact h.advance_unregistering hstage hsubs hbegan hasks hdone hremoved hregistered hstep
  | answering hreports =>
    obtain rfl := Option.some.inj hadvance
    refine h.withStage rfl ?_ hregistered
    rw [hsubs]
    exact .replied hreports
  | refusing hcaught =>
    obtain rfl := Option.some.inj hadvance
    exact h.refuse hsubs hcaught hregistered
  | replied => cases hadvance
  | ended => cases hadvance

end Advance

/-- What a step keeps, where it is admissible and clean. -/
theorem Invariant.step {a : Label} (h : Invariant cfg w) (hadmissible : Admissible cfg w a)
    (hclean : Clean cfg w a) (hstep : step cfg w a = some w') : Invariant cfg w' := by
  cases a with
  | receive payload =>
    obtain ⟨symbols, hexpects, hregistered⟩ := h.expects
    -- Between two commands the hub and the registry have the same symbols.
    have hnext (heq : w.state.subscriptions cfg = symbols) :
        Invariant cfg { w with stage := begin cfg w.state payload } := by
      subst heq
      exact h.withStage (began_begin _ _) (expects_begin ⟨rfl, hregistered.mem_iff⟩) hregistered
    unfold Atomicity.step at hstep
    dsimp only at hstep
    split at hstep
    · next hstage =>
      obtain rfl := Option.some.inj hstep
      rw [hstage] at hexpects
      refine hnext ?_
      cases hexpects
      rfl
    · next hstage =>
      obtain rfl := Option.some.inj hstep
      rw [hstage] at hexpects
      refine hnext ?_
      cases hexpects
      rfl
    · exact nomatch hstep
  | advance allowed latest fresh => exact h.advance hadmissible hclean hstep
  | list symbols =>
    -- The heartbeat lists the symbols, and adds them one after another.
    unfold Atomicity.step at hstep
    dsimp only at hstep
    split_ifs at hstep
    · obtain rfl := Option.some.inj hstep
      exact h
    · obtain rfl := Option.some.inj hstep
      refine ⟨h.connected, h.began, fun p hp => ?_, h.expects⟩
      rw [← Option.some.inj hp]
  | add =>
    unfold Atomicity.step at hstep
    unfold Admissible at hadmissible
    unfold Clean at hclean
    have hbeat := h.beat
    obtain ⟨symbols, hexpects, hregistered⟩ := h.expects
    dsimp only at hstep hadmissible hclean
    split at hstep
    · exact nomatch hstep
    · next symbol todo expiresAt heq =>
      obtain rfl := Option.some.inj hstep
      rw [heq] at hadmissible hclean hbeat
      have hbound : expiresAt ≤ w.now + cfg.settings.subscriptionTtlSeconds * second := hbeat _ rfl
      have httl : 0 < cfg.settings.subscriptionTtlSeconds * 2 := by
        unfold second at hbound
        dsimp only at hadmissible
        lia
      refine ⟨h.connected, h.began, fun p hp => ?_, symbols, hexpects, ?_⟩
      · rw [← Option.some.inj hp]
        exact hbound
      · exact hregistered.zadd ((hregistered symbol).2 hclean) httl hadmissible
    · obtain rfl := Option.some.inj hstep
      exact ⟨h.connected, h.began, nofun, symbols, hexpects,
        hregistered.congr Redis.expireConn_sets⟩
  | others state now clock =>
    -- The others leave the hub's symbols and the registry's as they are.
    obtain ⟨hle, hsession, hold, hheld⟩ := hadmissible
    obtain rfl := Option.some.inj hstep
    obtain ⟨symbols, hexpects, hregistered⟩ := h.expects
    have hsubs : state.subscriptions cfg = w.state.subscriptions cfg := by
      unfold State.subscriptions Hub.subscriptions
      rw [hsession]
    refine ⟨h.connected.of_identity (by rw [hsession]), fun began hbegan =>
      (h.began began hbegan).trans hle,
        fun p hp => (h.beat p hp).trans (by dsimp only; lia), symbols,
      ?_, fun s => ⟨fun hs => hheld s ((hregistered.mem_iff s).2 hs), fun hmem => ?_⟩⟩
    · show Expects cfg w.stage (state.subscriptions cfg) symbols
      rw [hsubs]
      exact hexpects
    · exact (hregistered s).2 (hold s hmem)

/-- In every run whose steps are admissible and clean, each reply is true of the stores when it is
sent, and until the next command begins. -/
theorem truthful_of_clean {t : Turn} {m : StreamMessage} (h0 : Opened cfg w)
    (hpath : Path (step cfg) (fun w a => Admissible cfg w a ∧ Clean cfg w a) w w')
    (hstage : w'.stage = .replied t m) : Truthful cfg t m w' := by
  obtain ⟨-, -, -, symbols, hexpects, hregistered⟩ := hpath.invariant (Invariant cfg) h0.invariant
    fun _ _ _ hinv hok hstep => hinv.step hok.1 hok.2 hstep
  rw [hstage] at hexpects
  generalize hsubs : w'.state.subscriptions cfg = subs at hexpects
  cases hexpects with
  | replied hreports =>
    refine ⟨fun herror => ?_, fun hack command hvalid hping => ?_⟩
    · obtain ⟨hhub, hregistry⟩ := hreports.error herror
      exact ⟨hsubs.trans hhub.symm, fun s => (hregistered.mem_iff s).trans (hregistry s).symm⟩
    · rw [hsubs]
      exact ⟨hreports.ack hack command hvalid hping, hregistered.holds_iff⟩

end Invariant

/-! ## A command that nothing disturbs -/

section Undisturbed

variable {cfg : Config} {env : Surroundings} {beat : Option (List Symbol × Timestamp)}

/-- The session among these surroundings. -/
def World.among (env : Surroundings) (beat : Option (List Symbol × Timestamp)) (state : State)
    (sent : List StreamMessage) (stage : Stage) : World :=
  ⟨state, env.now, env.clock, stage, sent, beat⟩

/-- The command goes on, with what the surroundings answer about the symbol. -/
theorem path_advance {w w' w'' : World} (env : Surroundings) (symbol : Symbol)
    (hstep : w.advance cfg env.allowed (env.latest symbol) env.fresh = some w')
    (h : Path (step cfg) anyStep w' w'') : Path (step cfg) anyStep w w'' :=
  (Lib.Path.refl.tail (.advance env.allowed (env.latest symbol) env.fresh) trivial hstep).trans h

/-- The loop of `subscriptions.subscribe`. -/
theorem path_registering {t : Turn} {command : SubscriptionCommand} {sent : List StreamMessage}
    {hub : Hub} (todo : List Symbol) (r : Redis) (added : List Symbol) :
    let loop := subscribeLoop cfg.settings env.clock env.now cfg.connectionId r todo
    Path (step cfg) anyStep
      (.among env beat ⟨hub, r⟩ sent (.registering t command env.now todo added))
      (.among env beat ⟨hub,
        loop.1⟩ sent (.registering t command env.now [] (added ++ loop.2))) := by
  induction todo generalizing r added with
  | nil =>
    dsimp only [subscribeLoop]
    rw [List.append_nil]
    exact .refl
  | cons symbol todo ih =>
    -- One run of the script, and the rest of the loop from the registry that it leaves.
    let script := r.subscribeScript env.clock cfg.connectionId symbol env.now
      (env.now + cfg.settings.subscriptionTtlSeconds * second) cfg.settings.subscriptionTtlSeconds
    have h := ih (activate script.1 symbol script.2.1)
      (if script.2.2 then added ++ [symbol] else added)
    have hadded (rest : List Symbol) :
        (if script.2.2 then added ++ [symbol] else added) ++ rest =
          added ++ if script.2.2 then symbol :: rest else rest := by
      split_ifs
      · rw [List.append_assoc]
        rfl
      · rfl
    dsimp only at h
    rw [hadded] at h
    exact path_advance env symbol rfl h

/-- The loop of `subscriptions.unsubscribe`. -/
theorem path_unregistering {t : Turn} {command : SubscriptionCommand} {sent : List StreamMessage}
    {hub : Hub} {removed : List Symbol} (todo : List Symbol) (r : Redis) :
    let loop := unsubscribeLoop env.now cfg.connectionId r todo
    Path (step cfg) anyStep
      (.among env beat ⟨hub, r⟩ sent (.unregistering t command env.now todo removed))
      (.among env beat ⟨hub, loop.1⟩ sent (.unregistering t command env.now [] removed)) := by
  induction todo generalizing r with
  | nil => exact .refl
  | cons symbol todo ih => exact path_advance env symbol rfl (ih _)

/-- The same loop, where it undoes what `subscriptions.subscribe` has done. -/
theorem path_undoing {t : Turn} {e : SessionError} {sent : List StreamMessage} {hub : Hub}
    (todo : List Symbol) (r : Redis) :
    let loop := unsubscribeLoop env.now cfg.connectionId r todo
    Path (step cfg) anyStep (.among env beat ⟨hub, r⟩ sent (.undoing t e env.now todo))
      (.among env beat ⟨hub, loop.1⟩ sent (.undoing t e env.now [])) := by
  induction todo generalizing r with
  | nil => exact .refl
  | cons symbol todo ih => exact path_advance env symbol rfl (ih _)

/-- One turn of the loop over `local_added`. -/
theorem advance_fetching {t : Turn} {command : SubscriptionCommand} {st : State}
    {symbol : Symbol} {todo localAdded globalAdded : List Symbol} {sent : List StreamMessage} :
    (World.among env beat st sent
      (.fetching t command (symbol :: todo) localAdded globalAdded)).advance cfg env.allowed
        (env.latest symbol) env.fresh =
      match getLatest cfg.pydantic env.fresh (env.latest symbol) with
      | .error e => some (.among env beat st sent (.refusing t e))
      | .ok none => some (.among env beat st sent (.fetching t command todo localAdded globalAdded))
      | .ok (some quote) =>
        some (.among env beat st (sent ++ [⟨command.requestId, .snapshot quote⟩])
          (.fetching t command todo localAdded globalAdded)) := rfl

/-- The loop over `local_added`. -/
theorem path_fetching {t : Turn} {command : SubscriptionCommand} {st : State}
    {localAdded globalAdded : List Symbol} (todo : List Symbol) (sent : List StreamMessage) :
    let loop := sendSnapshots cfg env command.requestId todo
    Path (step cfg) anyStep
      (.among env beat st sent (.fetching t command todo localAdded globalAdded))
      (.among env beat st (sent ++ loop.1)
        (match loop.2 with
        | .ok () => .fetching t command [] localAdded globalAdded
        | .error e => .refusing t e)) := by
  induction todo generalizing sent with
  | nil =>
    dsimp only [sendSnapshots]
    rw [List.append_nil]
    exact .refl
  | cons symbol todo ih =>
    have hstep := @advance_fetching cfg env beat t command st symbol todo
      localAdded globalAdded sent
    unfold sendSnapshots
    cases hlatest : getLatest cfg.pydantic env.fresh (env.latest symbol) with
    -- The loop ends with the error.
    | error e =>
      rw [hlatest] at hstep
      dsimp only
      rw [List.append_nil]
      exact path_advance env symbol hstep .refl
    | ok o =>
      rw [hlatest] at hstep
      cases o with
      | none => exact path_advance env symbol hstep (ih sent)
      | some quote =>
        have h := ih (sent ++ [⟨command.requestId, .snapshot quote⟩])
        dsimp only at h ⊢
        rw [List.append_assoc] at h
        exact path_advance env symbol hstep h

/-- The `try` has been left: by what it has raised, or after the last message. -/
def Tried (t : Turn) (p : Progress) : Stage → Prop
  | .refusing t' e => t' = t ∧ p.ended = .error e
  | .replied t' m => t' = t ∧ p.ended = .ok () ∧ p.sent.getLast? = some m
  | _ => False

/-- The branch of `subscribe`. -/
theorem path_subscribe {t : Turn} {command : SubscriptionCommand} {st : State}
    {sent : List StreamMessage} (hsubscribe : command.action = .subscribe) :
    ∃ stage, Tried t (subscribe cfg env st command) stage ∧
      Path (step cfg) anyStep
        (.among env beat st sent
        ((World.among env beat st sent .idle).afterLimiter cfg true t command))
        (.among env beat (subscribe cfg env st command).state
          (sent ++ (subscribe cfg env st command).sent) stage) := by
  have hlimiter : (World.among env beat st sent .idle).afterLimiter cfg true t command =
      match validateSymbolCount cfg.maxSymbols cfg.identity.tier
          (st.subscriptions cfg ∪ command.symbolSet.toFinset).card with
      | .error e => .refusing t e
      | .ok () => .registering t command env.now command.symbolSet [] := by
    unfold World.afterLimiter
    rw [if_pos rfl, if_pos hsubscribe]
    rfl
  rw [hlimiter]
  unfold subscribe
  dsimp only [registrySubscribe]
  -- Too many symbols are refused before anything is registered.
  cases hcount : validateSymbolCount cfg.maxSymbols cfg.identity.tier
      (st.subscriptions cfg ∪ command.symbolSet.toFinset).card with
  | error e =>
    refine ⟨.refusing t e, ⟨rfl, rfl⟩, ?_⟩
    dsimp only
    rw [List.append_nil]
    exact .refl
  | ok _ =>
    have hregister :=
      @path_registering cfg env beat t command sent st.hub command.symbolSet st.redis []
    dsimp only at hregister ⊢
    generalize subscribeLoop cfg.settings env.clock env.now cfg.connectionId st.redis
      command.symbolSet = loop at hregister ⊢
    rw [List.nil_append] at hregister
    have hjoining : (World.among env beat ⟨st.hub, refreshMetrics loop.1 env.now⟩ sent
        (.joining t command loop.2)).advance cfg env.allowed (env.latest "") env.fresh =
        match st.hub.subscribe cfg.maxSymbols cfg.connectionId command.symbolSet with
        | .error e => some (.among env beat ⟨st.hub, refreshMetrics loop.1 env.now⟩ sent
            (.undoing t e env.now loop.2))
        | .ok (localAdded, hub) => some (.among env beat ⟨hub, refreshMetrics loop.1 env.now⟩ sent
            (.fetching t command localAdded localAdded loop.2)) := rfl
    -- What the hub refuses is taken out of the registry again.
    cases hrun : st.hub.subscribe cfg.maxSymbols cfg.connectionId command.symbolSet with
    | error e =>
      rw [hrun] at hjoining
      have hundo :=
        @path_undoing cfg env beat t e sent st.hub loop.2 (refreshMetrics loop.1 env.now)
      refine ⟨.refusing t e, ⟨rfl, rfl⟩, hregister.trans (path_advance env "" rfl
        (path_advance env "" hjoining (hundo.trans (path_advance env "" rfl ?_))))⟩
      dsimp only
      rw [List.append_nil]
      exact .refl
    | ok joined =>
      obtain ⟨localAdded, hub⟩ := joined
      rw [hrun] at hjoining
      have hfetch := @path_fetching cfg env beat t command ⟨hub, refreshMetrics loop.1 env.now⟩
        localAdded loop.2 localAdded sent
      have hpath := hregister.trans (path_advance env "" rfl (path_advance env "" hjoining hfetch))
      dsimp only at hpath ⊢
      generalize sendSnapshots cfg env command.requestId localAdded = snapshots at hpath ⊢
      obtain ⟨snapshots, ended⟩ := snapshots
      cases ended with
      | error e => exact ⟨.refusing t e, ⟨rfl, rfl⟩, hpath⟩
      | ok _ =>
        refine ⟨.replied t ⟨command.requestId, .subscribe localAdded loop.2⟩,
          ⟨rfl, rfl, List.getLast?_concat⟩, hpath.trans (path_advance env "" rfl
            (path_advance env "" rfl ?_))⟩
        dsimp only
        rw [← List.append_assoc]
        exact .refl

/-- The branch of `unsubscribe`. -/
theorem path_unsubscribe {t : Turn} {command : SubscriptionCommand} {st : State}
    {sent : List StreamMessage} :
    ∃ stage, Tried t (unsubscribe cfg env st command) stage ∧
      Path (step cfg) anyStep (.among env beat st sent (.leaving t command))
        (.among env beat (unsubscribe cfg env st command).state
          (sent ++ (unsubscribe cfg env st command).sent) stage) := by
  have hleaving : (World.among env beat st sent (.leaving t command)).advance cfg env.allowed
      (env.latest "") env.fresh =
      match st.hub.unsubscribe cfg.connectionId command.symbolSet with
      | .error e => some (.among env beat st sent (.refusing t e))
      | .ok (localRemoved, hub) => some (.among env beat ⟨hub, st.redis⟩ sent
          (.unregistering t command env.now localRemoved localRemoved)) := rfl
  unfold unsubscribe
  cases hrun : st.hub.unsubscribe cfg.connectionId command.symbolSet with
  | error e =>
    rw [hrun] at hleaving
    refine ⟨.refusing t e, ⟨rfl, rfl⟩, path_advance env "" hleaving ?_⟩
    dsimp only
    rw [List.append_nil]
    exact .refl
  | ok left =>
    obtain ⟨localRemoved, hub⟩ := left
    rw [hrun] at hleaving
    exact ⟨.replied t ⟨command.requestId, .unsubscribe localRemoved⟩, ⟨rfl, rfl, rfl⟩,
      path_advance env "" hleaving ((path_unregistering localRemoved st.redis).trans
        (path_advance env "" rfl (path_advance env "" rfl .refl)))⟩

/-- The body of the `try`. -/
theorem path_tryBody (st : State) (sent : List StreamMessage) (payload : Json) :
    ∃ stage, Tried ⟨payload, st⟩ (tryBody cfg env st payload) stage ∧
      Path (step cfg) anyStep (.among env beat st sent (begin cfg st payload))
        (.among env beat (tryBody cfg env st payload).state
          (sent ++ (tryBody cfg env st payload).sent) stage) := by
  have hrefuse (e : SessionError) : ∃ stage, Tried ⟨payload, st⟩ ⟨st, [], .error e⟩ stage ∧
      Path (step cfg) anyStep (.among env beat st sent (.refusing ⟨payload, st⟩ e))
        (.among env beat st (sent ++ []) stage) := by
    refine ⟨.refusing ⟨payload, st⟩ e, ⟨rfl, rfl⟩, ?_⟩
    rw [List.append_nil]
    exact .refl
  have hanswer (m : StreamMessage) : ∃ stage, Tried ⟨payload, st⟩ ⟨st, [m], .ok ()⟩ stage ∧
      Path (step cfg) anyStep (.among env beat st sent (.answering ⟨payload, st⟩ m))
        (.among env beat st (sent ++ [m]) stage) :=
    ⟨.replied ⟨payload, st⟩ m, ⟨rfl, rfl, rfl⟩, path_advance env "" rfl .refl⟩
  unfold tryBody begin perform
  dsimp only
  cases hvalid : SubscriptionCommand.modelValidate cfg.py payload with
  | error e => exact hrefuse e
  | ok command =>
    dsimp only
    by_cases hping : command.action = .ping
    · rw [if_pos hping, if_pos hping]
      exact hanswer _
    · rw [if_neg hping, if_neg hping]
      cases authorize cfg command with
      | error e => exact hrefuse e
      | ok _ =>
        dsimp only
        -- What the limiter answers is the next step.
        have hlimiting {stage : Stage} {w : World}
            (hlimiter : (World.among env beat st sent .idle).afterLimiter cfg env.allowed
              ⟨payload, st⟩ command = stage)
            (h : Path (step cfg) anyStep (.among env beat st sent stage) w) :
            Path (step cfg) anyStep
              (.among env beat st sent (.limiting ⟨payload, st⟩ command)) w :=
          path_advance env "" rfl (hlimiter ▸ h)
        cases hallowed : env.allowed with
        | false =>
          rw [if_neg Bool.false_ne_true]
          obtain ⟨stage, htried, hpath⟩ := hanswer
            ⟨command.requestId, .error "rate_limit" (some (text "subscription limit exceeded"))⟩
          refine ⟨stage, htried, hlimiting ?_ hpath⟩
          rw [hallowed]
          rfl
        | true =>
          rw [if_pos rfl]
          by_cases hsubscribe : command.action = .subscribe
          · rw [if_pos hsubscribe]
            obtain ⟨stage, htried, hpath⟩ := @path_subscribe cfg env beat ⟨payload, st⟩ command
              st sent hsubscribe
            refine ⟨stage, htried, hlimiting ?_ hpath⟩
            rw [hallowed]
          · rw [if_neg hsubscribe]
            obtain ⟨stage, htried, hpath⟩ := @path_unsubscribe cfg env beat ⟨payload, st⟩
              command st sent
            refine ⟨stage, htried, hlimiting ?_ hpath⟩
            unfold World.afterLimiter
            rw [hallowed, if_pos rfl, if_neg hsubscribe]

/-- A command that nothing disturbs takes its session through the steps to where `handle` takes
it. -/
theorem path_handle (st : State) (sent : List StreamMessage) (payload : Json) :
    ∃ stage, Path (step cfg) anyStep (.among env beat st sent .idle)
        (.among env beat (handle cfg env st payload).state
          (sent ++ (handle cfg env st payload).sent) stage) ∧
      match (handle cfg env st payload).ended with
      | .ok () => ∃ m, stage = .replied ⟨payload, st⟩ m ∧
          (handle cfg env st payload).sent.getLast? = some m
      | .error e => stage = .ended e := by
  obtain ⟨stage, htried, hpath⟩ := @path_tryBody cfg env beat st sent payload
  have hbegin : Path (step cfg) anyStep (.among env beat st sent .idle)
      (.among env beat (tryBody cfg env st payload).state
        (sent ++ (tryBody cfg env st payload).sent) stage) :=
    (Lib.Path.refl.tail (.receive payload) trivial rfl).trans hpath
  unfold handle answerError
  generalize tryBody cfg env st payload = p at htried hbegin
  unfold Tried at htried
  split at htried
  · next t e =>
    obtain ⟨rfl, hended⟩ := htried
    -- The `except` is one more step.
    have hrefuse {w : World}
        (hw : (World.among env beat p.state (sent ++ p.sent) (.refusing ⟨payload, st⟩ e)).refuse
          ⟨payload, st⟩ e = w) : Path (step cfg) anyStep (.among env beat st sent .idle) w :=
      hbegin.trans (path_advance env "" (congrArg some hw) .refl)
    unfold World.refuse at hrefuse
    rw [hended]
    dsimp only
    cases hreply : e.reply with
    | none =>
      rw [hreply] at hrefuse
      dsimp only
      rw [hended]
      exact ⟨_, hrefuse rfl, rfl⟩
    | some data =>
      rw [hreply] at hrefuse
      dsimp only at hrefuse ⊢
      cases hrequest : StreamMessage.parseRequestId (payloadRequestId payload) with
      | none =>
        rw [hrequest] at hrefuse
        exact ⟨_, hrefuse rfl, rfl⟩
      | some requestId =>
        rw [hrequest] at hrefuse
        dsimp only at hrefuse ⊢
        cases hmessage : StreamMessage.encodable ⟨requestId, data⟩ with
        | false =>
          rw [hmessage] at hrefuse
          exact ⟨_, hrefuse rfl, rfl⟩
        | true =>
          rw [hmessage] at hrefuse
          refine ⟨_, hrefuse ?_, ⟨requestId, data⟩, rfl, List.getLast?_concat⟩
          rw [if_pos rfl, if_pos rfl, ← List.append_assoc]
          rfl
  · obtain ⟨rfl, hended, hlast⟩ := htried
    rw [hended]
    dsimp only
    rw [hended]
    exact ⟨_, hbegin, _, rfl, hlast⟩
  · exact htried.elim

end Undisturbed

/-! ## Runs -/

/-- What is admissible of the session's own steps, as a test. -/
def timely (cfg : Config) (w : World) : Label → Bool
  | .advance _ _ _ =>
    match w.stage with
    | .registering _ _ now (_ :: _) _ => w.now < now + cfg.settings.subscriptionTtlSeconds * second
    | _ => true
  | .add =>
    match w.beat with
    | some (_ :: _, expiresAt) => w.now < expiresAt
    | _ => true
  | .others _ _ _ => false
  | .receive _ | .list _ => true

/-- A step that is timely may come. -/
theorem admissible_of_timely {cfg : Config} {w : World} {a : Label} (h : timely cfg w a = true) :
    Admissible cfg w a := by
  cases a with
  | others _ _ _ => exact absurd h Bool.false_ne_true
  | receive _ => trivial
  | list _ => trivial
  | add =>
    unfold timely at h
    unfold Admissible
    dsimp only at h ⊢
    split at h
    · exact of_decide_eq_true h
    · trivial
  | advance _ _ _ =>
    unfold timely at h
    unfold Admissible
    dsimp only at h ⊢
    split at h
    · exact of_decide_eq_true h
    · trivial

/-- The session as it is opened. -/
def openedWorld : World := ⟨opened, 0, 0, .idle, [], none⟩

/-- The sample world is one that opens. -/
theorem opened_openedWorld : Opened sampleConfig openedWorld where
  session := rfl
  fresh _ := List.not_mem_nil
  stage := rfl
  beat := rfl

/-- Steps of a command, where this payload is cached. -/
def advances (n : ℕ) (latest : Option PyStr) : List Label :=
  List.replicate n (.advance true latest (cached none).fresh)

/-- `{"action": "unsubscribe", "symbols": ["aapl"]}`. -/
def unsubscribeAapl : Json :=
  .dict [(text "action", .str (text "unsubscribe")), (text "symbols", .list [.str (text "aapl")])]

instance (now : Timestamp) (conn : ConnId) (r : Redis) (symbol : Symbol) :
    Decidable (Holds now conn r symbol) :=
  inferInstanceAs (Decidable ((r.sets symbol).Unexpired now conn))

/-- The last message to a command of this action is of this type, `AAPL` was not in the hub before
it, and is in the hub and the registry or not. -/
def reached (action : CommandAction) (type : MessageType) (before hub registry : Bool) (w : World) :
    Bool :=
  (match w.stage with
  | .replied t m => m.data.type = type &&
      (match SubscriptionCommand.modelValidate sampleConfig.py t.payload with
      | .ok command => command.action = action
      | .error _ => false) &&
      decide ("AAPL" ∈ t.before.subscriptions sampleConfig) == before
  | _ => false) &&
    decide ("AAPL" ∈ w.state.subscriptions sampleConfig) == hub &&
    decide (Holds w.now sampleConfig.connectionId w.state.redis "AAPL") == registry

/-- What the test says. -/
theorem exists_of_reached {action : CommandAction} {type : MessageType} {before hub registry : Bool}
    {w : World} (h : reached action type before hub registry w = true) :
    ∃ t m command, w.stage = .replied t m ∧ m.data.type = type ∧
      SubscriptionCommand.modelValidate sampleConfig.py t.payload = .ok command ∧
      command.action = action ∧
      ("AAPL" ∈ t.before.subscriptions sampleConfig ↔ before = true) ∧
      ("AAPL" ∈ w.state.subscriptions sampleConfig ↔ hub = true) ∧
      (Holds w.now sampleConfig.connectionId w.state.redis "AAPL" ↔ registry = true) := by
  unfold reached at h
  obtain ⟨h, hregistry⟩ := Bool.and_eq_true_iff.1 h
  obtain ⟨h, hhub⟩ := Bool.and_eq_true_iff.1 h
  split at h
  · next t m hstage =>
    obtain ⟨h, hbefore⟩ := Bool.and_eq_true_iff.1 h
    obtain ⟨htype, hvalid⟩ := Bool.and_eq_true_iff.1 h
    split at hvalid
    · next command hcommand =>
      refine ⟨t, m, command, hstage, of_decide_eq_true htype, hcommand,
        of_decide_eq_true hvalid, ?_, ?_, ?_⟩
      · rw [← eq_of_beq hbefore, decide_eq_true_eq]
      · rw [← eq_of_beq hhub, decide_eq_true_eq]
      · rw [← eq_of_beq hregistry, decide_eq_true_eq]
    · exact absurd hvalid Bool.false_ne_true
  · exact absurd h Bool.false_ne_true

/-- No heartbeat, and no payload that is cached. -/
def uncached : Label → Bool
  | .advance _ latest _ => latest.isNone
  | .add => false
  | .receive _ | .list _ | .others _ _ _ => true

/-- A step without the cache is clean. -/
theorem clean_of_uncached {cfg : Config} {w : World} {a : Label} (h : uncached a = true) :
    Clean cfg w a := by
  cases a with
  | advance _ latest _ =>
    obtain rfl := Option.isNone_iff_eq_none.1 h
    unfold Clean
    dsimp only
    split
    · exact nofun
    · trivial
  | add => exact absurd h Bool.false_ne_true
  | receive _ | list _ | others _ _ _ => trivial

/-- The command that subscribes to a symbol without a cached quote is acknowledged. -/
theorem truthful_subscribeAapl : ∃ w t m, w.stage = .replied t m ∧ m.data.type = .ack ∧
    "AAPL" ∈ w.state.subscriptions sampleConfig ∧ Truthful sampleConfig t m w := by
  obtain ⟨w, hpath, hreached⟩ := Path.exists_of_exec (step sampleConfig)
    (fun w a => timely sampleConfig w a = true ∧ uncached a = true) openedWorld
    (.receive subscribeAapl :: advances 7 none) (fun w =>
      reached .subscribe .ack false true true w = true)
    (by decide +kernel)
  obtain ⟨t, m, -, hstage, htype, -, -, -, hhub, -⟩ := exists_of_reached hreached
  refine ⟨w, t, m, hstage, htype, hhub.2 rfl, truthful_of_clean opened_openedWorld ?_ hstage⟩
  exact hpath.mono fun w a hok => ⟨admissible_of_timely hok.1, clean_of_uncached hok.2⟩

/-- A `subscribe` that finds `[]` cached is answered by an error and has subscribed, and an
`unsubscribe` is acknowledged after a heartbeat has added the connection again. -/
theorem exists_misreported : ∃ cfg w₀, Opened cfg w₀ ∧
    (∃ w t m, Path (step cfg) (Admissible cfg) w₀ w ∧ w.stage = .replied t m ∧
      m.data.type = .error ∧ ¬Truthful cfg t m w) ∧
    ∃ w t m, Path (step cfg) (Admissible cfg) w₀ w ∧ w.stage = .replied t m ∧
      m.data.type = .ack ∧ ¬Truthful cfg t m w := by
  refine ⟨sampleConfig, openedWorld, opened_openedWorld, ?_, ?_⟩
  · obtain ⟨w, hpath, hreached⟩ := Path.exists_of_exec (step sampleConfig)
      (fun w a => timely sampleConfig w a = true) openedWorld
      (.receive subscribeAapl :: advances 6 (some (text "[]")))
      (fun w => reached .subscribe .error false true true w = true) (by decide +kernel)
    obtain ⟨t, m, -, hstage, htype, -, -, hbefore, hhub, -⟩ := exists_of_reached hreached
    refine ⟨w, t, m, hpath.mono fun _ _ => admissible_of_timely, hstage, htype, fun htruthful => ?_⟩
    have hjoined := hhub.2 rfl
    rw [(htruthful.error htype).1] at hjoined
    exact absurd (hbefore.1 hjoined) Bool.false_ne_true
  · obtain ⟨w, hpath, hreached⟩ := Path.exists_of_exec (step sampleConfig)
      (fun w a => timely sampleConfig w a = true) openedWorld
      (.receive subscribeAapl :: advances 7 none ++
        [.list ["AAPL"], .receive unsubscribeAapl] ++ advances 4 none ++ .add :: advances 1 none)
      (fun w => reached .unsubscribe .ack true false true w = true) (by decide +kernel)
    obtain ⟨t, m, command, hstage, htype, hvalid, haction, -, hhub, hregistry⟩ :=
      exists_of_reached hreached
    refine ⟨w, t, m, hpath.mono fun _ _ => admissible_of_timely, hstage, htype, fun htruthful => ?_⟩
    have hsame := (htruthful.ack htype command hvalid (by rw [haction]; exact nofun)).2 "AAPL"
    exact absurd (hhub.1 (hsame.1 (hregistry.2 rfl))) Bool.false_ne_true

end MarketDataGateway.Session.Atomicity

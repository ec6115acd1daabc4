import MarketDataGateway.Session.Command
import MarketDataGateway.Session.Membership

/-!
# What a session does with a command

The body of `receive_loop` in `app.py`: one command, from the frame that is received to the reply,
with the hub and the registry. The calls of Redis succeed, no other task of the gateway runs in
between, and no time passes. The rate limiter's answer and the cached quotes are given from outside.

`receive_json` and the `except` are outside the `try`: what they raise ends the session. `outcome`
lists the ways in which the body of the `try` can end.
-/

namespace MarketDataGateway.Session

open Lib
open Access.Profiles (ServiceTier ClientIdentity PyText)
open Registry (ConnId Redis)

/-! ## The code -/

/-- What a session is given when it is opened. -/
structure Config where
  /-- `connection_id`. -/
  connectionId : ConnId
  /-- `identity`. -/
  identity : ClientIdentity
  /-- `max_symbols` of the tiers. -/
  maxSymbols : ServiceTier → ℤ
  /-- `settings`. -/
  settings : Settings
  /-- Python's functions on text. -/
  py : PyText
  /-- How pydantic reads a cached quote. -/
  pydantic : Models.Pydantic
  /-- How deep a value may be nested for the interpreter: `json.loads`, and `str` after it, raise
  `RecursionError` on a deeper one. -/
  maxNesting : ℕ

/-- What a command meets. -/
structure Surroundings where
  /-- `time.time()`. -/
  now : Timestamp
  /-- The clock of Redis. -/
  clock : Timestamp
  /-- What the limiter answers. -/
  allowed : Bool
  /-- `smdg:latest:<symbol>`. -/
  latest : Symbol → Option PyStr
  /-- What the default factories of `QuoteEvent` return. -/
  fresh : Models.Fresh

/-- What commands change. -/
structure State where
  /-- The hub of the gateway. -/
  hub : Hub
  /-- The keys of the registry. -/
  redis : Redis

/-- How far the code has come: the state, the messages that it has sent, and what it has raised. -/
structure Progress where
  /-- The state. -/
  state : State
  /-- The messages. -/
  sent : List StreamMessage
  /-- What has been raised. -/
  ended : Except SessionError Unit

section Code

variable (cfg : Config) (env : Surroundings) (st : State)

/-- The symbols of the session. -/
def State.subscriptions : Finset Symbol := st.hub.subscriptions cfg.connectionId

/-- The loop over `sorted(local_added)`, with what it sends. -/
def sendSnapshots (requestId : Option PyStr) :
    List Symbol → List StreamMessage × Except SessionError Unit
  | [] => ([], .ok ())
  | symbol :: symbols =>
    match getLatest cfg.pydantic env.fresh (env.latest symbol) with
    | .error e => ([], .error e)
    | .ok none => sendSnapshots requestId symbols
    | .ok (some quote) =>
      let (sent, ended) := sendSnapshots requestId symbols
      (⟨requestId, .snapshot quote⟩ :: sent, ended)

/-- The branch of `subscribe`. -/
def subscribe (command : SubscriptionCommand) : Progress :=
  let symbols := command.symbolSet
  match validateSymbolCount cfg.maxSymbols cfg.identity.tier
      (st.subscriptions cfg ∪ symbols.toFinset).card with
  | .error e => ⟨st, [], .error e⟩
  | .ok () =>
    let (redis, globalAdded) :=
      registrySubscribe cfg.settings env.clock env.now cfg.connectionId st.redis symbols
    match st.hub.subscribe cfg.maxSymbols cfg.connectionId symbols with
    | .error e =>
      let (redis, _) := registryUnsubscribe env.now cfg.connectionId redis globalAdded
      ⟨{ st with redis }, [], .error e⟩
    | .ok (localAdded, hub) =>
      let (sent, ended) := sendSnapshots cfg env command.requestId localAdded
      match ended with
      | .error e => ⟨⟨hub, redis⟩, sent, .error e⟩
      | .ok () =>
        ⟨⟨hub, redis⟩, sent ++ [⟨command.requestId, .subscribe localAdded globalAdded⟩], .ok ()⟩

/-- The branch of `unsubscribe`. -/
def unsubscribe (command : SubscriptionCommand) : Progress :=
  match st.hub.unsubscribe cfg.connectionId command.symbolSet with
  | .error e => ⟨st, [], .error e⟩
  | .ok (localRemoved, hub) =>
    let (redis, _) := registryUnsubscribe env.now cfg.connectionId st.redis localRemoved
    ⟨⟨hub, redis⟩, [⟨command.requestId, .unsubscribe localRemoved⟩], .ok ()⟩

/-- The checks of the entitlements. -/
def authorize (command : SubscriptionCommand) : Except SessionError Unit := do
  checkChannels cfg.identity command.channels
  checkSymbols cfg.identity command.symbols

/-- What is done with a command that is valid. `usage.record` raises nothing, and is left out. -/
def perform (command : SubscriptionCommand) : Progress :=
  if command.action = .ping then ⟨st, [⟨command.requestId, .pong⟩], .ok ()⟩
  else
    match authorize cfg command with
    | .error e => ⟨st, [], .error e⟩
    | .ok () =>
      if env.allowed then
        if command.action = .subscribe then subscribe cfg env st command
        else unsubscribe cfg env st command
      else
        let message := some (text "subscription limit exceeded")
        ⟨st, [⟨command.requestId, .error "rate_limit" message⟩], .ok ()⟩

/-- The body of the `try`. -/
def tryBody (payload : Json) : Progress :=
  match SubscriptionCommand.modelValidate cfg.py payload with
  | .error e => ⟨st, [], .error e⟩
  | .ok command => perform cfg env st command

/-- `except (ValidationError, ValueError, AuthorizationError)`, and the data of the reply. -/
def SessionError.reply : SessionError → Option MessageData
  | validationError => some (.error "invalid_command" none)
  | valueError message => some (.error "invalid_command" (some message))
  | authorizationError message => some (.error "forbidden" (some message))
  | unicodeEncodeError => some (.error "invalid_command" none)
  | typeError | keyError | overflow | recursionError => none

/-- `payload.get("request_id") if isinstance(payload, dict) else None`. -/
def payloadRequestId : Json → Option Json
  | .dict entries => getKey (text "request_id") entries
  | _ => none

/-- The `except`. Its message is validated as every message is, and then sent. -/
def answerError (payload : Json) (p : Progress) : Progress :=
  match p.ended with
  | .ok () => p
  | .error e =>
    match e.reply with
    | none => p
    | some data =>
      match StreamMessage.parseRequestId (payloadRequestId payload) with
      | none => { p with ended := .error .validationError }
      | some requestId =>
        let message : StreamMessage := ⟨requestId, data⟩
        if message.encodable then ⟨p.state, p.sent ++ [message], .ok ()⟩
        else { p with ended := .error .unicodeEncodeError }

/-- What is done with a payload. -/
def handle (payload : Json) : Progress := answerError payload (tryBody cfg env st payload)

/-- `websocket.receive_json()`, of a frame with the text of the value. -/
def receiveJson (v : Json) : Except SessionError Json :=
  if cfg.maxNesting < v.nesting then .error .recursionError
  else if v.fits then .ok v
  else .error (.valueError (text "Exceeds the limit (4300 digits) for integer string conversion"))

/-- What is done with a frame. What `receive_json` raises is caught by nothing in the loop. -/
def receive (v : Json) : Progress :=
  match receiveJson cfg v with
  | .error e => ⟨st, [], .error e⟩
  | .ok payload => handle cfg env st payload

end Code

/-! ## How a command ends -/

section Spec

variable (cfg : Config) (env : Surroundings) (st : State)

/-- The session is in the hub. -/
def Connected : Prop :=
  ∃ session, st.hub.sessions cfg.connectionId = some session ∧ session.identity = cfg.identity

/-- The payload is a `subscribe` that passes all checks. -/
structure Admitted (payload : Json) (command : SubscriptionCommand) : Prop where
  valid : SubscriptionCommand.modelValidate cfg.py payload = .ok command
  subscribes : command.action = .subscribe
  authorized : authorize cfg command = .ok ()
  allowed : env.allowed = true
  count : validateSymbolCount cfg.maxSymbols cfg.identity.tier
    (st.subscriptions cfg ∪ command.symbolSet.toFinset).card = .ok ()

/-- The channels that the command is denied can be named in a reply. -/
def NamesChannels (command : SubscriptionCommand) : Prop :=
  ∀ channel ∈ command.channels, channel ∉ cfg.identity.allowedChannels → encodable channel = true

/-- The symbols of a command to which the session has not subscribed. -/
def newSymbols (command : SubscriptionCommand) : List Symbol :=
  command.symbolSet.filter fun symbol => symbol ∉ st.subscriptions cfg

/-- What the first cached payload that is no quote is refused by. -/
def cachedError (symbols : List Symbol) : Option SessionError :=
  symbols.findSome? fun symbol =>
    match getLatest cfg.pydantic env.fresh (env.latest symbol) with
    | .error e => some e
    | .ok _ => none

/-- What the registry holds for the connection. -/
def State.holds (symbol : Symbol) : Prop := Holds env.now cfg.connectionId st.redis symbol

/-- What `subscribe` makes of the state. -/
structure Joined (command : SubscriptionCommand) (st' : State) : Prop where
  hub : Hub.Subscribed st.hub cfg.connectionId command.symbolSet (newSymbols cfg st command) st'.hub
  holds : 0 < cfg.settings.subscriptionTtlSeconds → ∀ symbol,
    st'.holds cfg env symbol ↔ symbol ∈ command.symbolSet ∨ st.holds cfg env symbol

/-- What `unsubscribe` makes of the state. -/
structure Left (command : SubscriptionCommand) (st' : State) : Prop where
  hub : Hub.Unsubscribed st.hub cfg.connectionId command.symbolSet
    (command.symbolSet.filter fun symbol => symbol ∈ st.subscriptions cfg) st'.hub
  holds : ∀ symbol, st'.holds cfg env symbol ↔
    ¬(symbol ∈ command.symbolSet ∧ symbol ∈ st.subscriptions cfg) ∧ st.holds cfg env symbol

/-- The ways in which the body of the `try` ends. -/
inductive Outcome (payload : Json) : Progress → Prop
  /-- The payload makes no command. -/
  | invalid {e : SessionError} :
      SubscriptionCommand.modelValidate cfg.py payload = .error e →
      Outcome payload ⟨st, [], .error e⟩
  /-- A check has failed. -/
  | refused {command : SubscriptionCommand} {e : SessionError} {data : MessageData} :
      SubscriptionCommand.modelValidate cfg.py payload = .ok command → command.action ≠ .ping →
      (∀ command, ¬Admitted cfg env st payload command) → e.reply = some data →
      (data.encodable = true ↔ NamesChannels cfg command) → Outcome payload ⟨st, [], .error e⟩
  /-- A pong, or the limiter's refusal. -/
  | answered {command : SubscriptionCommand} {m : StreamMessage} :
      SubscriptionCommand.modelValidate cfg.py payload = .ok command →
      (∀ command, ¬Admitted cfg env st payload command) →
      (command.action = .ping ∨ m.data.type = .error ∧ NamesChannels cfg command) → m.Terminal →
      Outcome payload ⟨st, [m], .ok ()⟩
  /-- The symbols have been added, and a cached payload is no quote. -/
  | broken {command : SubscriptionCommand} {st' : State} {sent : List StreamMessage}
      {e : SessionError} :
      Admitted cfg env st payload command → Joined cfg env st command st' →
      cachedError cfg env (newSymbols cfg st command) = some e →
      (∀ m ∈ sent, m.data.type = .snapshot) → Outcome payload ⟨st', sent, .error e⟩
  /-- The symbols have been added. -/
  | subscribed {command : SubscriptionCommand} {st' : State} {sent : List StreamMessage}
      {globalAdded : List Symbol} :
      Admitted cfg env st payload command → Joined cfg env st command st' →
      cachedError cfg env (newSymbols cfg st command) = none →
      (∀ m ∈ sent, m.data.type = .snapshot) →
      Outcome payload ⟨st', sent ++
        [⟨command.requestId, .subscribe (newSymbols cfg st command) globalAdded⟩], .ok ()⟩
  /-- The symbols have been removed. -/
  | unsubscribed {command : SubscriptionCommand} {st' : State} {removed : List Symbol} :
      SubscriptionCommand.modelValidate cfg.py payload = .ok command →
      command.action = .unsubscribe → NamesChannels cfg command → Left cfg env st command st' →
      Outcome payload ⟨st', [⟨command.requestId, .unsubscribe removed⟩], .ok ()⟩

variable {cfg env st}

/-- What is sent of the snapshots are snapshots, up to one that cannot be read. -/
theorem sendSnapshots_spec (requestId : Option PyStr) (symbols : List Symbol) :
    (∀ m ∈ (sendSnapshots cfg env requestId symbols).1, m.data.type = .snapshot) ∧
      (sendSnapshots cfg env requestId symbols).2 =
        match cachedError cfg env symbols with
        | none => .ok ()
        | some e => .error e := by
  induction symbols with
  | nil => exact ⟨fun m hm => absurd hm List.not_mem_nil, rfl⟩
  | cons symbol symbols ih =>
    unfold sendSnapshots cachedError
    rw [List.findSome?_cons]
    cases hlatest : getLatest cfg.pydantic env.fresh (env.latest symbol) with
    | error e => exact ⟨fun m hm => absurd hm List.not_mem_nil, rfl⟩
    | ok o =>
      cases o with
      | none => exact ih
      | some quote =>
        refine ⟨fun m hm => ?_, ih.2⟩
        rcases List.mem_cons.1 hm with rfl | hm
        · rfl
        · exact ih.1 m hm

/-- Where the checks of the entitlements pass, no channel is denied. -/
theorem namesChannels_of_authorize {command : SubscriptionCommand}
    (h : authorize cfg command = .ok ()) : NamesChannels cfg command := by
  unfold authorize at h
  cases hchannels : checkChannels cfg.identity command.channels with
  | error e =>
    rw [hchannels] at h
    exact nomatch h
  | ok _ =>
    intro channel hchannel hdenied
    exact absurd (mem_of_checkEntitled hchannels channel hchannel) hdenied

/-- A failed check is answered, by what can be sent if the denied channels can be named. -/
theorem reply_of_authorize {command : SubscriptionCommand} {e : SessionError}
    (h : authorize cfg command = .error e) : ∃ data, e.reply = some data ∧
      (data.encodable = true ↔ NamesChannels cfg command) := by
  unfold authorize at h
  cases hchannels : checkChannels cfg.identity command.channels with
  | error e' =>
    rw [hchannels] at h
    rw [← Except.error.inj (show Except.error e' = .error e from h)]
    obtain ⟨message, rfl, hmessage⟩ := encodable_of_checkEntitled hchannels
    exact ⟨_, rfl, hmessage⟩
  | ok _ =>
    rw [hchannels] at h
    have hsymbols : checkSymbols cfg.identity command.symbols = .error e := h
    unfold checkSymbols at hsymbols
    split at hsymbols
    · exact nomatch hsymbols
    · obtain ⟨message, rfl, hmessage⟩ := encodable_of_checkEntitled hsymbols
      -- The symbols that are denied are of ASCII.
      refine ⟨_, rfl, iff_of_true (hmessage.2 fun name hname _ =>
        ?_) fun channel hchannel hdenied => ?_⟩
      · obtain ⟨symbol, -, rfl⟩ := List.mem_map.1 hname
        exact encodable_symbol symbol
      · exact absurd (mem_of_checkEntitled hchannels channel hchannel) hdenied

/-- What comes of a subscribe command. -/
theorem outcome_subscribe {payload : Json} {command : SubscriptionCommand} (h : Connected cfg st)
    (hvalid : SubscriptionCommand.modelValidate cfg.py payload = .ok command)
    (haction : command.action = .subscribe) (hauthorize : authorize cfg command = .ok ())
    (hallowed : env.allowed = true) :
    Outcome cfg env st payload (subscribe cfg env st command) := by
  obtain ⟨session, hsession, hidentity⟩ := h
  unfold subscribe
  dsimp only
  cases hcount : validateSymbolCount cfg.maxSymbols cfg.identity.tier
      (st.subscriptions cfg ∪ command.symbolSet.toFinset).card with
  | error e =>
    unfold validateSymbolCount at hcount
    dsimp only at hcount
    split_ifs at hcount with hlimit
    rw [← Except.error.inj hcount]
    refine .refused hvalid (by rw [haction]; exact nofun) (fun command' hadmitted => ?_) rfl
      (iff_of_true (encodable_text _) (namesChannels_of_authorize hauthorize))
    have heq : command' = command := Except.ok.inj (hadmitted.valid.symm.trans hvalid)
    rw [heq] at hadmitted
    have hcount' := hadmitted.count
    unfold validateSymbolCount at hcount'
    dsimp only at hcount'
    rw [if_pos hlimit] at hcount'
    exact nomatch hcount'
  | ok _ =>
    -- The command is carried out, and then the snapshots are sent.
    have hadmitted : Admitted cfg env st payload command :=
      ⟨hvalid, haction, hauthorize, hallowed, hcount⟩
    have hcount' := hcount
    rw [← hidentity] at hcount'
    obtain ⟨localAdded, hub, hrun, hsubscribed⟩ := Hub.exists_subscribe hsession hcount'
    rw [hrun]
    dsimp only
    obtain rfl : localAdded = newSymbols cfg st command := hsubscribed.added
    have hjoined (st' : State) (hhub : st'.hub = hub) (hredis : st'.redis =
        (registrySubscribe cfg.settings env.clock env.now cfg.connectionId st.redis
          command.symbolSet).1) : Joined cfg env st command st' := by
      refine ⟨hhub ▸ hsubscribed, fun httl symbol => ?_⟩
      unfold State.holds
      rw [hredis, holds_registrySubscribe httl]
      simp only [true_and]
    obtain ⟨hsnapshots, hended⟩ := @sendSnapshots_spec cfg env command.requestId
      (newSymbols cfg st command)
    cases herror : cachedError cfg env (newSymbols cfg st command) with
    | none =>
      rw [herror] at hended
      rw [hended]
      exact .subscribed hadmitted (hjoined _ rfl rfl) herror hsnapshots
    | some e =>
      rw [herror] at hended
      rw [hended]
      exact .broken hadmitted (hjoined _ rfl rfl) herror hsnapshots

/-- What comes of an unsubscribe command. -/
theorem outcome_unsubscribe {payload : Json} {command : SubscriptionCommand} (h : Connected cfg st)
    (hvalid : SubscriptionCommand.modelValidate cfg.py payload = .ok command)
    (haction : command.action = .unsubscribe) (hauthorize : authorize cfg command = .ok ()) :
    Outcome cfg env st payload (unsubscribe cfg env st command) := by
  obtain ⟨session, hsession, -⟩ := h
  obtain ⟨removed, hub, hrun, hunsubscribed⟩ :=
    @Hub.exists_unsubscribe st.hub cfg.connectionId command.symbolSet session hsession
  unfold unsubscribe
  rw [hrun]
  dsimp only
  obtain rfl := hunsubscribed.removed
  refine .unsubscribed hvalid haction (namesChannels_of_authorize hauthorize)
    ⟨hunsubscribed, fun symbol => ?_⟩
  unfold State.holds
  rw [holds_registryUnsubscribe, List.mem_filter, decide_eq_true_eq]
  simp only [true_and]
  rfl

/-- The body of the `try` ends in one of these ways. -/
theorem outcome (h : Connected cfg st) (payload : Json) :
    Outcome cfg env st payload (tryBody cfg env st payload) := by
  unfold tryBody
  cases hvalid : SubscriptionCommand.modelValidate cfg.py payload with
  | error e => exact .invalid hvalid
  | ok command =>
    -- What the payload is validated to is one command.
    have honly (command' : SubscriptionCommand) (hadmitted : Admitted cfg env st payload command') :
        command' = command := Except.ok.inj (hadmitted.valid.symm.trans hvalid)
    dsimp only
    unfold perform
    by_cases hping : command.action = .ping
    · rw [if_pos hping]
      refine .answered hvalid (fun command' hadmitted => ?_) (Or.inl hping) (Or.inl rfl)
      have hsubscribes := hadmitted.subscribes
      rw [honly command' hadmitted, hping] at hsubscribes
      exact absurd hsubscribes nofun
    · rw [if_neg hping]
      cases hauthorize : authorize cfg command with
      | error e =>
        obtain ⟨data, hreply, hdata⟩ := reply_of_authorize hauthorize
        refine .refused hvalid hping (fun command' hadmitted => ?_) hreply hdata
        rw [honly command' hadmitted] at hadmitted
        exact absurd (hadmitted.authorized.symm.trans hauthorize) nofun
      | ok _ =>
        dsimp only
        split_ifs with hallowed hsubscribes
        · exact outcome_subscribe h hvalid hsubscribes hauthorize hallowed
        · -- The one action that is left.
          have haction : command.action = .unsubscribe := by
            cases haction : command.action with
            | subscribe => exact absurd haction hsubscribes
            | ping => exact absurd haction hping
            | unsubscribe => rfl
          exact outcome_unsubscribe h hvalid haction hauthorize
        · refine .answered hvalid (fun command' hadmitted => ?_)
            (Or.inr ⟨rfl, namesChannels_of_authorize hauthorize⟩) (Or.inr rfl)
          exact hallowed hadmitted.allowed

/-! ## The sends of the `try` -/

/-- A snapshot has the `request_id` of its command. -/
theorem mem_sendSnapshots {requestId : Option PyStr} {symbols : List Symbol} {m : StreamMessage}
    (h : m ∈ (sendSnapshots cfg env requestId symbols).1) :
    m.requestId = requestId ∧ m.data.encodable = true := by
  induction symbols with
  | nil => exact absurd h List.not_mem_nil
  | cons symbol symbols ih =>
    unfold sendSnapshots at h
    split at h
    · exact absurd h List.not_mem_nil
    · exact ih h
    · rcases List.mem_cons.1 h with rfl | h
      · exact ⟨rfl, rfl⟩
      · exact ih h

/-- So has every message to a command. -/
theorem mem_perform {command : SubscriptionCommand} {m : StreamMessage}
    (h : m ∈ (perform cfg env st command).sent) :
    m.requestId = command.requestId ∧ m.data.encodable = true := by
  -- The messages besides the snapshots are made right here.
  have hone {data : MessageData} (hdata : data.encodable = true)
      (h : m ∈ [(⟨command.requestId, data⟩ : StreamMessage)]) :
      m.requestId = command.requestId ∧ m.data.encodable = true := by
    rw [List.mem_singleton.1 h]
    exact ⟨rfl, hdata⟩
  unfold perform at h
  by_cases hping : command.action = .ping
  · rw [if_pos hping] at h
    exact hone rfl h
  · rw [if_neg hping] at h
    split at h
    · exact absurd h List.not_mem_nil
    · split_ifs at h with hallowed hsubscribes
      · unfold subscribe at h
        dsimp only at h
        split at h
        · exact absurd h List.not_mem_nil
        · split at h
          · exact absurd h List.not_mem_nil
          · split at h
            · exact mem_sendSnapshots h
            · rcases List.mem_append.1 h with h | h
              · exact mem_sendSnapshots h
              · exact hone rfl h
      · unfold unsubscribe at h
        split at h
        · exact absurd h List.not_mem_nil
        · exact hone rfl h
      · have hlimit : MessageData.encodable
            (.error "rate_limit" (some (text "subscription limit exceeded"))) = true :=
          encodable_text _
        exact hone hlimit h

/-- What is sent within the `try` can be sent, so that no send raises there. -/
theorem encodable_of_mem_tryBody {payload : Json} {m : StreamMessage}
    (h : m ∈ (tryBody cfg env st payload).sent) : m.encodable = true := by
  unfold tryBody at h
  cases hvalid : SubscriptionCommand.modelValidate cfg.py payload with
  | error e =>
    rw [hvalid] at h
    exact absurd h List.not_mem_nil
  | ok command =>
    rw [hvalid] at h
    obtain ⟨hrequest, hdata⟩ := mem_perform h
    unfold StreamMessage.encodable
    rw [hrequest, hdata, SubscriptionCommand.encodable_requestId hvalid]
    rfl

end Spec

end MarketDataGateway.Session

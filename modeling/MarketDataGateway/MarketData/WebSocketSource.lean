import Mathlib.Algebra.Order.Floor.Ring
import Mathlib.Data.Rat.Floor
import MarketDataGateway.Lib.InsertionMap
import MarketDataGateway.Lib.Scheduler
import MarketDataGateway.MarketData.Replay
import MarketDataGateway.MarketData.Wire

/-!
# The source of the gateway

`GatewayWebSocketSource` of `market-data/gateway-websocket-source.ts`: a source that keeps one
socket to the gateway open, and asks it for the symbols that are desired.

A step is a call of the source, a callback of a socket, or a timer that goes off, with what the
calls to the outside come to (`Outcomes`). Callbacks come from any socket, whether or not its
handlers have been detached, and timers go off in any order. The listeners return, and do not call
the source. Delays are exact.

`output` is what the source has put out so far, the last first: the events, the statuses, and what
has been sent to the sockets. The data of a message comes as what `safeParseWireMessage` makes of
it.
-/

namespace MarketDataGateway.MarketData

open Lib

/-! ## Settings -/

/-- A number of JavaScript, where only the finite ones are told apart. -/
abbrev JsNumber := Option ℚ

/-- `positive`. -/
def positive (value : JsNumber) (name : String) : Except String { q : ℚ // 0 < q } :=
  match value with
  | some q => if h : 0 < q then .ok ⟨q, h⟩ else .error (name ++ " must be a positive finite number")
  | none => .error (name ++ " must be a positive finite number")

/-- `boundedRatio`. -/
def boundedRatio (value : JsNumber) : Except String { q : ℚ // 0 ≤ q ∧ q ≤ 1 } :=
  match value with
  | some q => if h : 0 ≤ q ∧ q ≤ 1 then .ok ⟨q, h⟩ else .error "jitterRatio must be between 0 and 1"
  | none => .error "jitterRatio must be between 0 and 1"

/-- The numbers of `GatewayWebSocketSourceOptions`. -/
structure SourceOptions where
  pingIntervalMs : Option JsNumber := none
  heartbeatTimeoutMs : Option JsNumber := none
  connectionStabilityMs : Option JsNumber := none
  subscriptionAckTimeoutMs : Option JsNumber := none
  initialBackoffMs : Option JsNumber := none
  maximumBackoffMs : Option JsNumber := none
  backoffFactor : Option JsNumber := none
  jitterRatio : Option JsNumber := none

/-- The numbers that a source goes by. -/
structure SourceSettings where
  pingIntervalMs : { q : ℚ // 0 < q }
  heartbeatTimeoutMs : { q : ℚ // 0 < q }
  connectionStabilityMs : { q : ℚ // 0 < q }
  subscriptionAckTimeoutMs : { q : ℚ // 0 < q }
  initialBackoffMs : { q : ℚ // 0 < q }
  maximumBackoffMs : { q : ℚ // 0 < q }
  backoffFactor : { q : ℚ // 0 < q }
  jitterRatio : { q : ℚ // 0 ≤ q ∧ q ≤ 1 }

/-- What the constructor makes of the options. -/
def SourceOptions.settings (options : SourceOptions) : Except String SourceSettings := do
  let pingIntervalMs ← positive (options.pingIntervalMs.getD (some 10000)) "pingIntervalMs"
  let heartbeatTimeoutMs ← positive (options.heartbeatTimeoutMs.getD (some 30000))
    "heartbeatTimeoutMs"
  let connectionStabilityMs ←
    positive (options.connectionStabilityMs.getD (some heartbeatTimeoutMs.1))
    "connectionStabilityMs"
  let subscriptionAckTimeoutMs ←
    positive (options.subscriptionAckTimeoutMs.getD (some 10000)) "subscriptionAckTimeoutMs"
  let initialBackoffMs ← positive (options.initialBackoffMs.getD (some 500)) "initialBackoffMs"
  let maximumBackoffMs ← positive (options.maximumBackoffMs.getD (some 30000)) "maximumBackoffMs"
  let backoffFactor ← positive (options.backoffFactor.getD (some 2)) "backoffFactor"
  let jitterRatio ← boundedRatio (options.jitterRatio.getD (some (1 / 4)))
  return {
    pingIntervalMs, heartbeatTimeoutMs, connectionStabilityMs,
    subscriptionAckTimeoutMs, initialBackoffMs,
    maximumBackoffMs, backoffFactor, jitterRatio }

/-- `clampRandom`. -/
def clampRandom : JsNumber → ℚ
  | none => 0
  | some q => min 1 (max 0 q)

/-- `retryDelay`, which `scheduleReconnect` computes too. -/
def SourceSettings.retryDelay (settings : SourceSettings) (attempt : ℕ) (random : JsNumber) : ℕ :=
  let exponent := attempt - 1
  let baseDelay := min settings.maximumBackoffMs.1
    (settings.initialBackoffMs.1 * settings.backoffFactor.1 ^ exponent)
  let jitter := baseDelay * settings.jitterRatio.1 * clampRandom random
  -- `Math.round` rounds halves up.
  ⌊min settings.maximumBackoffMs.1 (baseDelay + jitter) + 1 / 2⌋.toNat

/-! ## The codes of the gateway -/

/-- What depends on the tables of Unicode, with `toLowerCase`. -/
structure Browser extends Runtime where
  toLowerCase : JsString → JsString
  toLowerCase_ascii : ∀ s,
    (∀ c ∈ s, c.val < 0x80 ∧ ¬(0x41 ≤ c.val ∧ c.val ≤ 0x5A)) → toLowerCase s = s

/-- `[a-z0-9_-]`. -/
def isCodeChar (c : CodeUnit) : Bool :=
  (0x61 ≤ c.val && c.val ≤ 0x7A) || (0x30 ≤ c.val && c.val ≤ 0x39) || c.val == 0x5F || c.val == 0x2D

/-- `replace(/[^a-z0-9_-]+/g, "_")`, where `inRun` says that the character before has been
replaced. -/
def replaceRuns (inRun : Bool) : JsString → JsString
  | [] => []
  | c :: s =>
    if isCodeChar c then c :: replaceRuns false s
    else if inRun then replaceRuns true s
    else js "_" ++ replaceRuns true s

/-- `sanitizeGatewayCode`. -/
def Browser.sanitizeGatewayCode (rt : Browser) (value : JsString) : JsString :=
  let normalized := (replaceRuns false (rt.toLowerCase (trim value))).take 64
  if normalized = [] then js "gateway_error" else normalized

/-- `isTransientSubscriptionError`. -/
def isTransientSubscriptionError (code : JsString) : Bool := code = js "rate_limit"

/-! ## Sockets, commands and events -/

/-- `readyState`. -/
inductive ReadyState
  | connecting
  | opened
  | closing
  | closed
  deriving DecidableEq

/-- The value of a state. A socket goes from lesser to greater ones. -/
def ReadyState.value : ReadyState → ℕ
  | connecting => 0
  | opened => 1
  | closing => 2
  | closed => 3

/-- `WebSocketLike`. The sockets that the factory makes are numbered. -/
structure WebSocketLike where
  id : ℕ
  readyState : ReadyState
  deriving DecidableEq

/-- A command, before `JSON.stringify`. -/
inductive ClientCommand
  | ping (requestId : JsString)
  | change (action : AckAction) (symbols channels : List JsString) (requestId : JsString)
  deriving DecidableEq

/-- `PendingSubscriptionOperation`. -/
structure PendingSubscriptionOperation where
  requestId : JsString
  action : AckAction
  symbols : List JsString
  generation : ℕ
  deriving DecidableEq

/-- The command of an operation. -/
def PendingSubscriptionOperation.command (operation : PendingSubscriptionOperation) :
    ClientCommand :=
  .change operation.action operation.symbols [js "quote"] operation.requestId

/-- `level` of a notice. -/
inductive NoticeLevel
  | warning
  | error
  deriving DecidableEq

/-- `MarketDataSourceEvent`. -/
inductive SourceEvent
  | marketData (point : MarketDataPoint)
  | subscriptionAck (action : AckAction) (symbols : List JsString) (generation : ℕ)
      (requestId : Option JsString)
  | pong (generation : ℕ) (requestId : Option JsString)
  | notice (level : NoticeLevel) (code message : JsString) (generation : ℕ)
      (requestId : Option JsString)
  deriving DecidableEq

/-- `event.generation`. -/
def SourceEvent.generation : SourceEvent → ℕ
  | marketData point => point.generation
  | subscriptionAck _ _ generation _ => generation
  | pong generation _ => generation
  | notice _ _ _ generation _ => generation

/-- What a source puts out. -/
inductive SourceOutput
  /-- An event is given to the listeners. -/
  | emitted (event : SourceEvent)
  /-- A status is given to the listeners. -/
  | status (status : SourceStatus)
  /-- A command is sent. -/
  | sent (socket : ℕ) (command : ClientCommand)
  /-- A socket is closed. -/
  | closed (socket : ℕ) (code : Option ℕ) (reason : Option JsString)
  deriving DecidableEq

/-! ## Timers -/

/-- The fields that hold timers. -/
inductive TimerKind
  | reconnect
  | ping
  | heartbeat
  | connectionStability
  | subscriptionAck
  | subscriptionRetry
  deriving DecidableEq

/-- What a timer calls, with what it captures. -/
inductive TimerCallback
  | reconnect (generation : ℕ)
  | ping (socket generation : ℕ)
  | heartbeat (socket generation : ℕ)
  | connectionStability (socket generation : ℕ)
  | subscriptionAck (socket generation : ℕ) (requestId : JsString)
  | subscriptionRetry (generation : ℕ) (code : JsString)
  deriving DecidableEq

/-- The field of a timer. -/
def TimerCallback.kind : TimerCallback → TimerKind
  | reconnect _ => .reconnect
  | ping _ _ => .ping
  | heartbeat _ _ => .heartbeat
  | connectionStability _ _ => .connectionStability
  | subscriptionAck _ _ _ => .subscriptionAck
  | subscriptionRetry _ _ => .subscriptionRetry

/-! ## The source -/

/-- `GatewayWebSocketSource`. -/
structure GatewayWebSocketSource where
  settings : SourceSettings
  socket : Option WebSocketLike
  timers : TimerFields TimerKind TimerCallback
  desiredSymbols : List JsString
  confirmedSymbols : List JsString
  pendingSubscriptionOperations : InsertionMap JsString PendingSubscriptionOperation
  generation : ℕ
  reconnectAttempt : ℕ
  subscriptionRetryAttempt : ℕ
  requestSequence : ℕ
  running : Bool
  status : SourceStatus
  /-- How many sockets the factory has made. -/
  sockets : ℕ
  /-- What has been put out, the last first. -/
  output : List SourceOutput

/-- What the calls to the outside come to in a step. -/
structure Outcomes where
  /-- The factory makes a socket. It throws otherwise, or the URL is no URL. -/
  connects : Bool
  /-- `send` returns. It throws otherwise. -/
  sends : Bool
  /-- `random()`. -/
  random : JsNumber

namespace GatewayWebSocketSource

/-- `new GatewayWebSocketSource(options)`. -/
def new (options : SourceOptions) : Except String GatewayWebSocketSource := do
  let settings ← options.settings
  return {
    settings
    socket := none
    timers := .empty
    desiredSymbols := []
    confirmedSymbols := []
    pendingSubscriptionOperations := .empty
    generation := 0
    reconnectAttempt := 0
    subscriptionRetryAttempt := 0
    requestSequence := 0
    running := false
    status := ⟨.idle, 0, 0, none, none⟩
    sockets := 0
    output := [] }

variable (s : GatewayWebSocketSource)

/-- `emit`. -/
@[simps]
def emit (event : SourceEvent) : GatewayWebSocketSource :=
  { s with output := .emitted event :: s.output }

/-- `setStatus`. -/
@[simps]
def setStatus (status : SourceStatus) : GatewayWebSocketSource :=
  { s with status := status, output := .status status :: s.output }

/-- `clearPingTimer` and the others like it. -/
@[simps]
def clearTimer (kind : TimerKind) : GatewayWebSocketSource :=
  { s with timers := s.timers.clear kind }

/-- A timer is set, and kept in its field. -/
@[simps]
def setTimer (callback : TimerCallback) (delayMs : ℚ) : GatewayWebSocketSource :=
  { s with timers := s.timers.assign callback.kind callback delayMs }

/-- `clearTimers`. -/
@[simps!]
def clearTimers : GatewayWebSocketSource :=
  (((((s.clearTimer .reconnect).clearTimer .ping).clearTimer .heartbeat).clearTimer
    .connectionStability).clearTimer
    .subscriptionAck).clearTimer .subscriptionRetry

/-- `isCurrentSocket`, for a socket that is not `null`. -/
def isCurrentSocket (socket generation : ℕ) : Bool :=
  s.running && s.socket.map WebSocketLike.id = some socket && s.generation = generation

/-- `isCurrentOpenSocket`. -/
def isCurrentOpenSocket (socket generation : ℕ) : Bool :=
  s.isCurrentSocket socket generation && s.socket.map WebSocketLike.readyState = some .opened

/-- The error is one of the subscriptions, or of the gateway. -/
def isSubscriptionError (error : JsString) : Bool :=
  js "subscription_" <+: error || js "gateway_" <+: error

/-- `clearSubscriptionError`. -/
def clearSubscriptionError : GatewayWebSocketSource :=
  if s.status.lastError.any isSubscriptionError then
    s.setStatus ⟨s.status.state, s.status.generation, s.status.reconnectAttempt, none, none⟩
  else s

/-- `resetSubscriptionState`. -/
@[simps!]
def resetSubscriptionState : GatewayWebSocketSource :=
  { (s.clearTimer .subscriptionAck).clearTimer .subscriptionRetry with
    pendingSubscriptionOperations := .empty
    confirmedSymbols := []
    subscriptionRetryAttempt := 0 }

/-- A decimal number in a template. -/
def decimal (n : ℕ) : JsString := utf16 ((Nat.toDigits 10 n).map CodePoint.ofChar)

/-- What `nextRequestId` returns. -/
def requestId (kind : String) (generation sequence : ℕ) : JsString :=
  js kind ++ js "-" ++ decimal generation ++ js "-" ++ decimal sequence

/-- `scheduleReconnect`. -/
def scheduleReconnect (outcomes : Outcomes) (generation : ℕ) (code : JsString) :
    GatewayWebSocketSource :=
  if !s.running || generation ≠ s.generation then s
  else
    let reconnectAttempt := s.reconnectAttempt + 1
    let delayMs := s.settings.retryDelay reconnectAttempt outcomes.random
    let s := { s with reconnectAttempt }
    let s := s.setStatus ⟨.reconnecting, generation, reconnectAttempt, some delayMs, some code⟩
    s.setTimer (.reconnect generation) delayMs

/-- `socket.close(code, reason)`, whether or not it throws. -/
@[simps]
def closeSocket (socket : ℕ) (code : Option ℕ) (reason : Option JsString) :
    GatewayWebSocketSource :=
  { s with output := .closed socket code reason :: s.output }

/-- `handleSocketFailure`. -/
def handleSocketFailure (outcomes : Outcomes) (socket generation : ℕ) (code : JsString) :
    GatewayWebSocketSource :=
  if s.isCurrentSocket socket generation then
    let s := { s with socket := none }
    let s := ((s.clearTimer .ping).clearTimer .heartbeat).clearTimer .connectionStability
    let s := s.resetSubscriptionState
    let s := s.closeSocket socket none none
    s.scheduleReconnect outcomes generation code
  else s

/-- `sendCommand`. -/
def sendCommand (outcomes : Outcomes) (socket generation : ℕ) (command : ClientCommand) :
    GatewayWebSocketSource :=
  if s.isCurrentOpenSocket socket generation then
    if outcomes.sends then { s with output := .sent socket command :: s.output }
    else s.handleSocketFailure outcomes socket generation (js "send_failed")
  else s

/-- `openSocket`. -/
def openSocket (outcomes : Outcomes) (isReconnect : Bool) : GatewayWebSocketSource :=
  if s.running then
    let generation := s.generation + 1
    let s := { s with generation }
    let s := s.resetSubscriptionState
    let s := s.setStatus
      ⟨if isReconnect then .reconnecting else .connecting, generation,
      s.reconnectAttempt, none, none⟩
    if outcomes.connects then
      { s with socket := some ⟨s.sockets, .connecting⟩, sockets := s.sockets + 1 }
    else s.scheduleReconnect outcomes generation (js "connection_factory_failed")
  else s

/-! ### Subscriptions -/

/-- `scheduleSubscriptionAckTimeout`. -/
def scheduleSubscriptionAckTimeout (socket generation : ℕ) (requestId : JsString) :
    GatewayWebSocketSource :=
  (s.clearTimer .subscriptionAck).setTimer (.subscriptionAck socket generation requestId)
    s.settings.subscriptionAckTimeoutMs.1

/-- The operation that `flushDesiredSymbols` sends next. -/
def nextOperation (action : AckAction) (symbols : List JsString) : PendingSubscriptionOperation :=
  ⟨requestId action.value s.generation (s.requestSequence + 1), action, symbols, s.generation⟩

/-- An operation becomes pending, and waits for its acknowledgement. -/
def addOperation (socket : ℕ) (operation : PendingSubscriptionOperation) : GatewayWebSocketSource :=
  { s with
    requestSequence := s.requestSequence + 1
    pendingSubscriptionOperations :=
      s.pendingSubscriptionOperations.set operation.requestId operation }
    |>.scheduleSubscriptionAckTimeout socket operation.generation operation.requestId

/-- `flushDesiredSymbols`. -/
def flushDesiredSymbols (outcomes : Outcomes) : GatewayWebSocketSource :=
  match s.socket with
  | none => s
  | some socket =>
    if !s.isCurrentOpenSocket socket.id s.generation then s
    else if s.pendingSubscriptionOperations.entries ≠ [] ||
      s.timers.field .subscriptionRetry ≠ none then s
    else
      let removed := s.confirmedSymbols.filter (· ∉ s.desiredSymbols)
      let added := s.desiredSymbols.filter (· ∉ s.confirmedSymbols)
      let action : Option AckAction :=
        if removed ≠ [] then some .unsubscribe else if added ≠ [] then some .subscribe else none
      let symbols := if action = some .unsubscribe then removed else added
      match action with
      | none => s.clearSubscriptionError
      | some action =>
        if symbols = [] then s.clearSubscriptionError
        else
          let operation := s.nextOperation action symbols
          (s.addOperation socket.id operation).sendCommand outcomes socket.id
            s.generation operation.command

/-- `scheduleSubscriptionRetry`. -/
def scheduleSubscriptionRetry (outcomes : Outcomes) (generation : ℕ) (code : JsString) :
    GatewayWebSocketSource :=
  if !s.running || generation ≠ s.generation then s
  else if s.confirmedSymbols = s.desiredSymbols then s.clearSubscriptionError
  else if s.timers.field .subscriptionRetry ≠ none then s
  else
    let subscriptionRetryAttempt := s.subscriptionRetryAttempt + 1
    let delayMs := s.settings.retryDelay subscriptionRetryAttempt outcomes.random
    let s := { s with subscriptionRetryAttempt }
    let s := s.setStatus ⟨s.status.state, generation, s.status.reconnectAttempt,
      some delayMs, some code⟩
    s.setTimer (.subscriptionRetry generation code) delayMs

/-- The symbols that are confirmed once an operation has been acknowledged. -/
def confirm (confirmed : List JsString)
    (operation : PendingSubscriptionOperation) : List JsString :=
  (operation.symbols.foldl (fun confirmed symbol =>
    match operation.action with
    | .subscribe => if symbol ∈ confirmed then confirmed else confirmed ++ [symbol]
    | .unsubscribe => confirmed.filter (· ≠ symbol)) confirmed.eraseDups).insertionSort (· ≤ ·)

/-- `handleSubscriptionAck`. -/
def handleSubscriptionAck (outcomes : Outcomes) (action : AckAction) (requestId : Option JsString)
    (generation : ℕ) : GatewayWebSocketSource :=
  match (requestId.bind s.pendingSubscriptionOperations.get).filter fun operation =>
      operation.generation = generation && operation.action = action with
  | none => s.emit (.notice .warning (js "unmatched_subscription_ack")
      (js "The gateway acknowledged an unknown subscription operation") generation requestId)
  | some operation =>
    let s := { s with
      pendingSubscriptionOperations := s.pendingSubscriptionOperations.delete operation.requestId }
    let s := s.clearTimer .subscriptionAck
    let s := { s with
      confirmedSymbols := confirm s.confirmedSymbols operation
      subscriptionRetryAttempt := 0 }
    let s := s.clearSubscriptionError
    let s := s.emit (.subscriptionAck operation.action operation.symbols generation
      (some operation.requestId))
    s.flushDesiredSymbols outcomes

/-- `handleGatewayError`. -/
def handleGatewayError (rt : Browser) (outcomes : Outcomes) (rawCode : JsString)
    (requestId : Option JsString)
    (generation : ℕ) : GatewayWebSocketSource :=
  let code := rt.sanitizeGatewayCode rawCode
  let operation := requestId.bind s.pendingSubscriptionOperations.get
  let s := match operation with
    | some operation =>
      if operation.generation = generation then
        { s with
          pendingSubscriptionOperations :=
            s.pendingSubscriptionOperations.delete operation.requestId }.clearTimer .subscriptionAck
      else s
    | none => s
  let message := match operation with
    | none => js "The gateway reported an error (" ++ code ++ js ")"
    | some operation =>
      js "The gateway rejected the " ++ js operation.action.value ++
        js " operation (" ++ code ++ js ")"
  let s := s.emit (.notice .error code message generation requestId)
  match operation with
  | some _ =>
    let statusCode := js "subscription_" ++ code
    if isTransientSubscriptionError code
      then s.scheduleSubscriptionRetry outcomes generation statusCode
    else s.setStatus ⟨s.status.state, generation, s.status.reconnectAttempt, none, some statusCode⟩
  | none =>
    s.setStatus ⟨s.status.state, generation, s.status.reconnectAttempt, none,
      some (js "gateway_" ++ code)⟩

/-! ### Timers of a socket -/

/-- `nextRequestId` and `sendCommand` of `ping`. -/
def sendPing (outcomes : Outcomes) (socket generation : ℕ) : GatewayWebSocketSource :=
  let requestSequence := s.requestSequence + 1
  { s with requestSequence }.sendCommand outcomes socket generation
    (.ping (requestId "ping" generation requestSequence))

/-- `ping`. -/
def ping (outcomes : Outcomes) : GatewayWebSocketSource :=
  match s.socket with
  | none => s
  | some socket =>
    if s.isCurrentOpenSocket socket.id s.generation
      then s.sendPing outcomes socket.id s.generation else s

/-- `schedulePing`. -/
def schedulePing (socket generation : ℕ) : GatewayWebSocketSource :=
  (s.clearTimer .ping).setTimer (.ping socket generation) s.settings.pingIntervalMs.1

/-- `scheduleHeartbeatTimeout`. -/
def scheduleHeartbeatTimeout (socket generation : ℕ) : GatewayWebSocketSource :=
  (s.clearTimer .heartbeat).setTimer (.heartbeat socket generation) s.settings.heartbeatTimeoutMs.1

/-- `scheduleConnectionStability`. -/
def scheduleConnectionStability (socket generation : ℕ) : GatewayWebSocketSource :=
  if s.reconnectAttempt = 0 || s.timers.field .connectionStability ≠ none then s
  else s.setTimer (.connectionStability socket generation) s.settings.connectionStabilityMs.1

/-! ### Callbacks -/

/-- `handleOpen`. -/
def handleOpen (outcomes : Outcomes) (socket generation : ℕ) : GatewayWebSocketSource :=
  if s.isCurrentSocket socket generation then
    let s := s.setStatus ⟨.live, generation, s.reconnectAttempt, none, none⟩
    let s := s.flushDesiredSymbols outcomes
    let s := s.schedulePing socket generation
    s.scheduleHeartbeatTimeout socket generation
  else s

/-- `emitWireMessage`. -/
def emitWireMessage (rt : Browser) (outcomes : Outcomes) (message : WireMessage) (generation : ℕ) :
    GatewayWebSocketSource :=
  match message.data with
  | .snapshot quote stale ageMs =>
    s.emit (.marketData ⟨normalizeWireQuote quote, .snapshot, generation, stale,
      ageMs, message.requestId⟩)
  | .quote quote =>
    s.emit (.marketData ⟨normalizeWireQuote quote, .live, generation, false, 0, message.requestId⟩)
  | .pong => s.emit (.pong generation message.requestId)
  | .ack action _ _ => s.handleSubscriptionAck outcomes action message.requestId generation
  | .warning code text _ => s.emit (.notice .warning code text generation message.requestId)
  | .error code _ => s.handleGatewayError rt outcomes code message.requestId generation
  | .connected .. => s
  | .heartbeat _ => s

/-- `handleMessage`. -/
def handleMessage (rt : Browser) (outcomes : Outcomes) (socket generation : ℕ)
    (parsed : Option WireMessage) :
    GatewayWebSocketSource :=
  if s.isCurrentSocket socket generation then
    match parsed with
    | none => s.emit (.notice .warning (js "invalid_wire_message")
        (js "The gateway sent a frame that did not match the public wire contract") generation none)
    | some message =>
      let s := s.scheduleHeartbeatTimeout socket generation
      let s := s.scheduleConnectionStability socket generation
      s.emitWireMessage rt outcomes message generation
  else s

/-- What a timer calls, after it has emptied its field. -/
def goOff (outcomes : Outcomes) : TimerCallback → GatewayWebSocketSource
  | .reconnect generation =>
    if !s.running || generation ≠ s.generation then s else s.openSocket outcomes true
  | .ping socket generation =>
    if s.isCurrentOpenSocket socket generation
    then (s.ping outcomes).schedulePing socket generation else s
  | .heartbeat socket generation =>
    if s.isCurrentOpenSocket socket generation then
      s.handleSocketFailure outcomes socket generation (js "heartbeat_timeout")
    else s
  | .connectionStability socket generation =>
    if s.isCurrentOpenSocket socket generation then
      let lastError := s.status.lastError.filter isSubscriptionError
      { s with reconnectAttempt := 0 }.setStatus ⟨.live, generation, 0, none, lastError⟩
    else s
  | .subscriptionAck socket generation requestId =>
    if s.isCurrentOpenSocket socket generation then
      match (s.pendingSubscriptionOperations.get requestId).filter (·.generation = generation) with
      | none => s
      | some _ =>
        let s := s.emit (.notice .error (js "subscription_ack_timeout")
          (js "The gateway did not acknowledge the subscription operation in time")
          generation (some requestId))
        s.handleSocketFailure outcomes socket generation (js "subscription_ack_timeout")
    else s
  | .subscriptionRetry generation code =>
    if !s.running || generation ≠ s.generation then s
    else
      let s := s.setStatus ⟨s.status.state, generation, s.status.reconnectAttempt, none, some code⟩
      s.flushDesiredSymbols outcomes

/-! ### Calls -/

/-- `start`. -/
def start (outcomes : Outcomes) : GatewayWebSocketSource :=
  if s.running then s
  else { s with running := true, reconnectAttempt := 0 }.openSocket outcomes false

/-- The socket is given up, and closed if there is one. -/
def dropSocket (code : ℕ) (reason : String) : GatewayWebSocketSource :=
  let socket := s.socket
  let s := { s with socket := none }.resetSubscriptionState
  match socket with
  | none => s
  | some socket => s.closeSocket socket.id (some code) (some (js reason))

/-- `stop`. -/
def stop : GatewayWebSocketSource :=
  if !s.running && s.status.state = .stopped then s
  else
    let s := { s with running := false, generation := s.generation + 1 }.clearTimers
    let s := s.dropSocket 1000 "client stopped"
    s.setStatus ⟨.stopped, s.generation, 0, none, none⟩

/-- `reconnectNow`. -/
def reconnectNow (outcomes : Outcomes) : GatewayWebSocketSource :=
  if s.running then
    let s := { s.clearTimers with reconnectAttempt := 0 }
    (s.dropSocket 1012 "client reconnect").openSocket outcomes true
  else s

/-- `replaceSymbols`. -/
def replaceSymbols (rt : Browser) (outcomes : Outcomes) (symbols : List JsString) :
    GatewayWebSocketSource :=
  let normalized := rt.normalizeSymbols symbols
  if s.desiredSymbols = normalized then s
  else
    let s := { s with desiredSymbols := normalized }
    let s := { s.clearTimer .subscriptionRetry with subscriptionRetryAttempt := 0 }
    let s := s.clearSubscriptionError
    -- The second clearing of what has just been cleared changes nothing.
    if s.pendingSubscriptionOperations.entries = [] && s.confirmedSymbols = s.desiredSymbols then
      { s.clearTimer .subscriptionRetry with subscriptionRetryAttempt := 0 }.clearSubscriptionError
    else s.flushDesiredSymbols outcomes

end GatewayWebSocketSource

/-! ## Steps -/

/-- What happens to a source. -/
inductive SourceAction
  | start
  | stop
  | reconnectNow
  | replaceSymbols (symbols : List JsString)
  | ping
  /-- `onopen`. -/
  | opened (socket generation : ℕ)
  /-- `onmessage`. -/
  | message (socket generation : ℕ) (parsed : Option WireMessage)
  /-- `onerror`. -/
  | failed (socket generation : ℕ)
  /-- `onclose`. -/
  | closed (socket generation : ℕ)
  /-- A timer goes off. -/
  | timer (handle : ℕ)
  /-- The current socket goes over to another state. -/
  | advance (readyState : ReadyState)

/-- A step of a source. There is none for a timer that is not armed, and for a state that the socket
does not go over to. -/
def GatewayWebSocketSource.step (rt : Browser) (s : GatewayWebSocketSource) :
    SourceAction × Outcomes → Option GatewayWebSocketSource
  | (action, outcomes) =>
    match action with
    | .start => some (s.start outcomes)
    | .stop => some s.stop
    | .reconnectNow => some (s.reconnectNow outcomes)
    | .replaceSymbols symbols => some (s.replaceSymbols rt outcomes symbols)
    | .ping => some (s.ping outcomes)
    | .opened socket generation => some (s.handleOpen outcomes socket generation)
    | .message socket generation parsed =>
      some (s.handleMessage rt outcomes socket generation parsed)
    | .failed socket generation =>
      some (s.handleSocketFailure outcomes socket generation (js "connection_error"))
    | .closed socket generation =>
      some (s.handleSocketFailure outcomes socket generation (js "connection_closed"))
    | .timer handle => (s.timers.scheduler.callback handle).map fun callback =>
        { s with timers := s.timers.goOff handle callback.kind }.goOff outcomes callback
    | .advance readyState => s.socket.bind fun socket =>
        if socket.readyState.value < readyState.value then
          some { s with socket := some { socket with readyState } }
        else none

end MarketDataGateway.MarketData

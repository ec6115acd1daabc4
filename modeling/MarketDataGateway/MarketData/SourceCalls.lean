import MarketDataGateway.Lib.Calls
import MarketDataGateway.MarketData.WebSocketSource

/-!
# The source with its listeners

The methods of `GatewayWebSocketSource` with the places at which they tell the listeners something:
`emit` and `setStatus` call each listener, and a method goes on after that from the state that the
listeners leave, or not at all if one of them throws.

Where the listeners do nothing but return, each method comes to what `WebSocketSource.lean` says
(`run_method`).
-/

namespace MarketDataGateway.MarketData

open Lib

/-- A call of the source. -/
abbrev SourceCall := Call GatewayWebSocketSource

namespace SourceCall

open GatewayWebSocketSource (isSubscriptionError requestId confirm)

variable (s : GatewayWebSocketSource)

/-- `emit`. -/
def emit (event : SourceEvent) : SourceCall := .telling (s.emit event) .returned

/-- `setStatus`. -/
def setStatus (status : SourceStatus) : SourceCall := .telling (s.setStatus status) .returned

/-- `clearSubscriptionError`. -/
def clearSubscriptionError : SourceCall :=
  if s.status.lastError.any isSubscriptionError then
    setStatus s ⟨s.status.state, s.status.generation, s.status.reconnectAttempt, none, none⟩
  else .returned s

/-- `scheduleReconnect`. -/
def scheduleReconnect (outcomes : Outcomes) (generation : ℕ) (code : JsString) : SourceCall :=
  if !s.running || generation ≠ s.generation then .returned s
  else
    let reconnectAttempt := s.reconnectAttempt + 1
    let delayMs := s.settings.retryDelay reconnectAttempt outcomes.random
    (setStatus { s with reconnectAttempt }
      ⟨.reconnecting, generation, reconnectAttempt, some delayMs, some code⟩).bind fun s =>
    .returned (s.setTimer (.reconnect generation) delayMs)

/-- `handleSocketFailure`. -/
def handleSocketFailure (outcomes : Outcomes) (socket generation : ℕ)
    (code : JsString) : SourceCall :=
  if s.isCurrentSocket socket generation then
    let s := { s with socket := none }
    let s := ((s.clearTimer .ping).clearTimer .heartbeat).clearTimer .connectionStability
    let s := s.resetSubscriptionState
    let s := s.closeSocket socket none none
    scheduleReconnect s outcomes generation code
  else .returned s

/-- `sendCommand`. -/
def sendCommand (outcomes : Outcomes) (socket generation : ℕ)
    (command : ClientCommand) : SourceCall :=
  if s.isCurrentOpenSocket socket generation then
    if outcomes.sends then .returned { s with output := .sent socket command :: s.output }
    else handleSocketFailure s outcomes socket generation (js "send_failed")
  else .returned s

/-- `openSocket`. -/
def openSocket (outcomes : Outcomes) (isReconnect : Bool) : SourceCall :=
  if s.running then
    let generation := s.generation + 1
    let s := { s with generation }
    let s := s.resetSubscriptionState
    (setStatus s ⟨if isReconnect then .reconnecting else .connecting, generation,
      s.reconnectAttempt, none, none⟩).bind fun s =>
    if outcomes.connects then
      .returned { s with socket := some ⟨s.sockets, .connecting⟩, sockets := s.sockets + 1 }
    else scheduleReconnect s outcomes generation (js "connection_factory_failed")
  else .returned s

/-! ## Subscriptions -/

/-- `flushDesiredSymbols`. -/
def flushDesiredSymbols (outcomes : Outcomes) : SourceCall :=
  match s.socket with
  | none => .returned s
  | some socket =>
    if !s.isCurrentOpenSocket socket.id s.generation then .returned s
    else if s.pendingSubscriptionOperations.entries ≠ [] ∨
        s.timers.field .subscriptionRetry ≠ none then .returned s
    else
      let removed := s.confirmedSymbols.filter (· ∉ s.desiredSymbols)
      let added := s.desiredSymbols.filter (· ∉ s.confirmedSymbols)
      let action : Option AckAction :=
        if removed ≠ [] then some .unsubscribe else if added ≠ [] then some .subscribe else none
      let symbols := if action = some .unsubscribe then removed else added
      match action with
      | none => clearSubscriptionError s
      | some action =>
        if symbols = [] then clearSubscriptionError s
        else
          let operation := s.nextOperation action symbols
          sendCommand (s.addOperation socket.id operation) outcomes socket.id s.generation
            operation.command

/-- `scheduleSubscriptionRetry`. -/
def scheduleSubscriptionRetry (outcomes : Outcomes) (generation : ℕ)
    (code : JsString) : SourceCall :=
  if !s.running || generation ≠ s.generation then .returned s
  else if s.confirmedSymbols = s.desiredSymbols then clearSubscriptionError s
  else if s.timers.field .subscriptionRetry ≠ none then .returned s
  else
    let subscriptionRetryAttempt := s.subscriptionRetryAttempt + 1
    let delayMs := s.settings.retryDelay subscriptionRetryAttempt outcomes.random
    (setStatus { s with subscriptionRetryAttempt }
      ⟨s.status.state, generation, s.status.reconnectAttempt, some delayMs,
      some code⟩).bind fun s =>
    .returned (s.setTimer (.subscriptionRetry generation code) delayMs)

/-- `handleSubscriptionAck`. -/
def handleSubscriptionAck (outcomes : Outcomes) (action : AckAction) (requestId : Option JsString)
    (generation : ℕ) : SourceCall :=
  match (requestId.bind s.pendingSubscriptionOperations.get).filter fun operation =>
      operation.generation = generation && operation.action = action with
  | none => emit s (.notice .warning (js "unmatched_subscription_ack")
      (js "The gateway acknowledged an unknown subscription operation") generation requestId)
  | some operation =>
    let s := { s with
      pendingSubscriptionOperations := s.pendingSubscriptionOperations.delete operation.requestId }
    let s := s.clearTimer .subscriptionAck
    let s := { s with
      confirmedSymbols := confirm s.confirmedSymbols operation
      subscriptionRetryAttempt := 0 }
    (clearSubscriptionError s).bind fun s =>
    (emit s (.subscriptionAck operation.action operation.symbols generation
      (some operation.requestId))).bind fun s =>
    flushDesiredSymbols s outcomes

/-- `handleGatewayError`. -/
def handleGatewayError (rt : Browser) (outcomes : Outcomes) (rawCode : JsString)
    (requestId : Option JsString) (generation : ℕ) : SourceCall :=
  let code := rt.sanitizeGatewayCode rawCode
  let operation := requestId.bind s.pendingSubscriptionOperations.get
  let s := match operation with
    | some operation =>
      if operation.generation = generation then
        { s with
          pendingSubscriptionOperations :=
            s.pendingSubscriptionOperations.delete operation.requestId }.clearTimer .subscriptionAck
      else s
    | none => s
  let message := match operation with
    | none => js "The gateway reported an error (" ++ code ++ js ")"
    | some operation =>
      js "The gateway rejected the " ++ js operation.action.value ++
        js " operation (" ++ code ++ js ")"
  (emit s (.notice .error code message generation requestId)).bind fun s =>
  match operation with
  | some _ =>
    let statusCode := js "subscription_" ++ code
    if isTransientSubscriptionError code
      then scheduleSubscriptionRetry s outcomes generation statusCode
    else setStatus s ⟨s.status.state, generation, s.status.reconnectAttempt, none, some statusCode⟩
  | none =>
    setStatus s ⟨s.status.state, generation, s.status.reconnectAttempt, none,
      some (js "gateway_" ++ code)⟩

/-! ## Callbacks -/

/-- `nextRequestId` and `sendCommand` of `ping`. -/
def sendPing (outcomes : Outcomes) (socket generation : ℕ) : SourceCall :=
  let requestSequence := s.requestSequence + 1
  sendCommand { s with requestSequence } outcomes socket generation
    (.ping (requestId "ping" generation requestSequence))

/-- `ping`. -/
def ping (outcomes : Outcomes) : SourceCall :=
  match s.socket with
  | none => .returned s
  | some socket =>
    if s.isCurrentOpenSocket socket.id s.generation then sendPing s outcomes socket.id s.generation
    else .returned s

/-- `handleOpen`. -/
def handleOpen (outcomes : Outcomes) (socket generation : ℕ) : SourceCall :=
  if s.isCurrentSocket socket generation then
    (setStatus s ⟨.live, generation, s.reconnectAttempt, none, none⟩).bind fun s =>
    (flushDesiredSymbols s outcomes).bind fun s =>
    .returned ((s.schedulePing socket generation).scheduleHeartbeatTimeout socket generation)
  else .returned s

/-- `emitWireMessage`. -/
def emitWireMessage (rt : Browser) (outcomes : Outcomes) (message : WireMessage) (generation : ℕ) :
    SourceCall :=
  match message.data with
  | .snapshot quote stale ageMs =>
    emit s (.marketData
      ⟨normalizeWireQuote quote, .snapshot, generation, stale, ageMs, message.requestId⟩)
  | .quote quote =>
    emit s (.marketData ⟨normalizeWireQuote quote, .live, generation, false, 0, message.requestId⟩)
  | .pong => emit s (.pong generation message.requestId)
  | .ack action _ _ => handleSubscriptionAck s outcomes action message.requestId generation
  | .warning code text _ => emit s (.notice .warning code text generation message.requestId)
  | .error code _ => handleGatewayError s rt outcomes code message.requestId generation
  | .connected .. => .returned s
  | .heartbeat _ => .returned s

/-- `handleMessage`. -/
def handleMessage (rt : Browser) (outcomes : Outcomes) (socket generation : ℕ)
    (parsed : Option WireMessage) : SourceCall :=
  if s.isCurrentSocket socket generation then
    match parsed with
    | none => emit s (.notice .warning (js "invalid_wire_message")
        (js "The gateway sent a frame that did not match the public wire contract") generation none)
    | some message =>
      let s := s.scheduleHeartbeatTimeout socket generation
      let s := s.scheduleConnectionStability socket generation
      emitWireMessage s rt outcomes message generation
  else .returned s

/-- What a timer calls, after it has emptied its field. -/
def goOff (outcomes : Outcomes) : TimerCallback → SourceCall
  | .reconnect generation =>
    if !s.running || generation ≠ s.generation then .returned s else openSocket s outcomes true
  | .ping socket generation =>
    if s.isCurrentOpenSocket socket generation then
      (ping s outcomes).bind fun s => .returned (s.schedulePing socket generation)
    else .returned s
  | .heartbeat socket generation =>
    if s.isCurrentOpenSocket socket generation then
      handleSocketFailure s outcomes socket generation (js "heartbeat_timeout")
    else .returned s
  | .connectionStability socket generation =>
    if s.isCurrentOpenSocket socket generation then
      let lastError := s.status.lastError.filter isSubscriptionError
      setStatus { s with reconnectAttempt := 0 } ⟨.live, generation, 0, none, lastError⟩
    else .returned s
  | .subscriptionAck socket generation requestId =>
    if s.isCurrentOpenSocket socket generation then
      match (s.pendingSubscriptionOperations.get requestId).filter (·.generation = generation) with
      | none => .returned s
      | some _ =>
        (emit s (.notice .error (js "subscription_ack_timeout")
          (js "The gateway did not acknowledge the subscription operation in time") generation
          (some requestId))).bind fun s =>
        handleSocketFailure s outcomes socket generation (js "subscription_ack_timeout")
    else .returned s
  | .subscriptionRetry generation code =>
    if !s.running || generation ≠ s.generation then .returned s
    else
      (setStatus s ⟨s.status.state, generation, s.status.reconnectAttempt, none, some code⟩).bind
        fun s => flushDesiredSymbols s outcomes

/-! ## Calls from outside -/

/-- `start`. -/
def start (outcomes : Outcomes) : SourceCall :=
  if s.running then .returned s
  else openSocket { s with running := true, reconnectAttempt := 0 } outcomes false

/-- `stop`. -/
def stop : SourceCall :=
  if !s.running && s.status.state = .stopped then .returned s
  else
    let s := { s with running := false, generation := s.generation + 1 }.clearTimers
    let s := s.dropSocket 1000 "client stopped"
    setStatus s ⟨.stopped, s.generation, 0, none, none⟩

/-- `reconnectNow`. -/
def reconnectNow (outcomes : Outcomes) : SourceCall :=
  if s.running then
    let s := { s.clearTimers with reconnectAttempt := 0 }
    openSocket (s.dropSocket 1012 "client reconnect") outcomes true
  else .returned s

/-- `replaceSymbols`. -/
def replaceSymbols (rt : Browser) (outcomes : Outcomes) (symbols : List JsString) : SourceCall :=
  let normalized := rt.normalizeSymbols symbols
  if s.desiredSymbols = normalized then .returned s
  else
    let s := { s with desiredSymbols := normalized }
    let s := { s.clearTimer .subscriptionRetry with subscriptionRetryAttempt := 0 }
    (clearSubscriptionError s).bind fun s =>
    if s.pendingSubscriptionOperations.entries = [] && s.confirmedSymbols = s.desiredSymbols then
      clearSubscriptionError { s.clearTimer .subscriptionRetry with subscriptionRetryAttempt := 0 }
    else flushDesiredSymbols s outcomes

/-- What an action calls. There is nothing to call for a timer that is not armed, and for a state
that the socket does not go over to. -/
def method (rt : Browser) (s : GatewayWebSocketSource) :
    SourceAction × Outcomes → Option SourceCall
  | (action, outcomes) =>
    match action with
    | .start => some (start s outcomes)
    | .stop => some (stop s)
    | .reconnectNow => some (reconnectNow s outcomes)
    | .replaceSymbols symbols => some (replaceSymbols s rt outcomes symbols)
    | .ping => some (ping s outcomes)
    | .opened socket generation => some (handleOpen s outcomes socket generation)
    | .message socket generation parsed =>
      some (handleMessage s rt outcomes socket generation parsed)
    | .failed socket generation =>
      some (handleSocketFailure s outcomes socket generation (js "connection_error"))
    | .closed socket generation =>
      some (handleSocketFailure s outcomes socket generation (js "connection_closed"))
    | .timer handle => (s.timers.scheduler.callback handle).map fun callback =>
        goOff { s with timers := s.timers.goOff handle callback.kind } outcomes callback
    | .advance readyState => s.socket.bind fun socket =>
        if socket.readyState.value < readyState.value then
          some (.returned { s with socket := some { socket with readyState } })
        else none

/-! ## Listeners that return -/

variable {s} {outcomes : Outcomes} {generation socket : ℕ} {code : JsString} {rt : Browser}

/-- To clear the subscription error comes to what it does without listeners. -/
theorem run_clearSubscriptionError : (clearSubscriptionError s).run = s.clearSubscriptionError := by
  unfold clearSubscriptionError GatewayWebSocketSource.clearSubscriptionError
  split_ifs <;> rfl

/-- To arm the reconnect timer comes to what it does without listeners. -/
theorem run_scheduleReconnect :
    (scheduleReconnect s outcomes generation code).run =
    s.scheduleReconnect outcomes generation code := by
  unfold scheduleReconnect GatewayWebSocketSource.scheduleReconnect
  split_ifs <;> rfl

/-- The failure of a socket comes to what it does without listeners. -/
theorem run_handleSocketFailure : (handleSocketFailure s outcomes socket generation code).run =
    s.handleSocketFailure outcomes socket generation code := by
  unfold handleSocketFailure GatewayWebSocketSource.handleSocketFailure
  split_ifs
  · exact run_scheduleReconnect
  · rfl

/-- To send a command comes to what it does without listeners. -/
theorem run_sendCommand {command : ClientCommand} :
    (sendCommand s outcomes socket generation command).run =
    s.sendCommand outcomes socket generation command := by
  unfold sendCommand GatewayWebSocketSource.sendCommand
  split_ifs
  · rfl
  · exact run_handleSocketFailure
  · rfl

/-- To open a socket comes to what it does without listeners. -/
theorem run_openSocket {isReconnect : Bool} :
    (openSocket s outcomes isReconnect).run = s.openSocket outcomes isReconnect := by
  unfold openSocket GatewayWebSocketSource.openSocket
  split_ifs
  all_goals first | rfl | exact run_scheduleReconnect

/-- To flush the desired symbols comes to what it does without listeners. -/
theorem run_flushDesiredSymbols :
    (flushDesiredSymbols s outcomes).run = s.flushDesiredSymbols outcomes := by
  unfold flushDesiredSymbols GatewayWebSocketSource.flushDesiredSymbols
  cases s.socket with
  | none => rfl
  | some socket =>
    dsimp only
    rw [apply_ite Call.run, apply_ite Call.run]
    simp only [Call.run_returned, Bool.or_eq_true, decide_eq_true_eq]
    generalize (if s.confirmedSymbols.filter (· ∉ s.desiredSymbols) ≠ []
      then some AckAction.unsubscribe
      else if s.desiredSymbols.filter (· ∉ s.confirmedSymbols) ≠ [] then some .subscribe
      else none) = action
    cases action with
    | none => rw [run_clearSubscriptionError]
    | some action => rw [apply_ite Call.run, run_clearSubscriptionError, run_sendCommand]

/-- To arm the retry timer comes to what it does without listeners. -/
theorem run_scheduleSubscriptionRetry : (scheduleSubscriptionRetry s outcomes generation code).run =
    s.scheduleSubscriptionRetry outcomes generation code := by
  unfold scheduleSubscriptionRetry GatewayWebSocketSource.scheduleSubscriptionRetry
  split_ifs
  · rfl
  · exact run_clearSubscriptionError
  · rfl
  · rfl

/-- An acknowledgement comes to what it does without listeners. -/
theorem run_handleSubscriptionAck {action : AckAction} {requestId : Option JsString} :
    (handleSubscriptionAck s outcomes action requestId generation).run =
      s.handleSubscriptionAck outcomes action requestId generation := by
  unfold handleSubscriptionAck GatewayWebSocketSource.handleSubscriptionAck
  cases (requestId.bind s.pendingSubscriptionOperations.get).filter _ with
  | none => rfl
  | some operation =>
    dsimp only
    rw [Call.run_bind, Call.run_bind, run_clearSubscriptionError, run_flushDesiredSymbols]
    rfl

/-- An error of the gateway comes to what it does without listeners. -/
theorem run_handleGatewayError {rawCode : JsString} {requestId : Option JsString} :
    (handleGatewayError s rt outcomes rawCode requestId generation).run =
      s.handleGatewayError rt outcomes rawCode requestId generation := by
  unfold handleGatewayError GatewayWebSocketSource.handleGatewayError
  rw [Call.run_bind]
  cases requestId.bind s.pendingSubscriptionOperations.get with
  | none => rfl
  | some operation =>
    dsimp only
    rw [apply_ite Call.run, run_scheduleSubscriptionRetry]
    rfl

/-- A ping comes to what it does without listeners. -/
theorem run_ping : (ping s outcomes).run = s.ping outcomes := by
  unfold ping GatewayWebSocketSource.ping
  cases s.socket with
  | none => rfl
  | some socket =>
    dsimp only
    rw [apply_ite Call.run]
    congr 1
    exact run_sendCommand

/-- A socket that opens comes to what it does without listeners. -/
theorem run_handleOpen :
    (handleOpen s outcomes socket generation).run = s.handleOpen outcomes socket generation := by
  unfold handleOpen GatewayWebSocketSource.handleOpen
  split_ifs
  · rw [Call.run_bind, Call.run_bind, run_flushDesiredSymbols]
    rfl
  · rfl

/-- To emit a message comes to what it does without listeners. -/
theorem run_emitWireMessage {message : WireMessage} :
    (emitWireMessage s rt outcomes message generation).run =
      s.emitWireMessage rt outcomes message generation := by
  unfold emitWireMessage GatewayWebSocketSource.emitWireMessage
  cases message.data with
  | ack action symbols transitions => exact run_handleSubscriptionAck
  | error code text => exact run_handleGatewayError
  | _ => rfl

/-- To handle a message comes to what it does without listeners. -/
theorem run_handleMessage {parsed : Option WireMessage} :
    (handleMessage s rt outcomes socket generation parsed).run =
      s.handleMessage rt outcomes socket generation parsed := by
  unfold handleMessage GatewayWebSocketSource.handleMessage
  split_ifs
  · cases parsed with
    | none => rfl
    | some message => exact run_emitWireMessage
  · rfl

/-- A timer that goes off comes to what it does without listeners. -/
theorem run_goOff {callback : TimerCallback} :
    (goOff s outcomes callback).run = s.goOff outcomes callback := by
  cases callback with
  | reconnect generation =>
    unfold goOff GatewayWebSocketSource.goOff
    dsimp only
    split_ifs
    · rfl
    · exact run_openSocket
  | ping socket generation =>
    unfold goOff GatewayWebSocketSource.goOff
    dsimp only
    split_ifs
    · rw [Call.run_bind, run_ping]
      rfl
    · rfl
  | heartbeat socket generation =>
    unfold goOff GatewayWebSocketSource.goOff
    dsimp only
    split_ifs
    · exact run_handleSocketFailure
    · rfl
  | connectionStability socket generation =>
    unfold goOff GatewayWebSocketSource.goOff
    dsimp only
    split_ifs <;> rfl
  | subscriptionAck socket generation requestId =>
    unfold goOff GatewayWebSocketSource.goOff
    dsimp only
    split_ifs
    · cases (s.pendingSubscriptionOperations.get requestId).filter _ with
      | none => rfl
      -- Without listeners, the notice changes the output only.
      | some operation => exact run_handleSocketFailure
    · rfl
  | subscriptionRetry generation code =>
    unfold goOff GatewayWebSocketSource.goOff
    dsimp only
    split_ifs
    · rfl
    · exact run_flushDesiredSymbols

/-- A start comes to what it does without listeners. -/
theorem run_start : (start s outcomes).run = s.start outcomes := by
  unfold start GatewayWebSocketSource.start
  split_ifs
  · rfl
  · exact run_openSocket

/-- A stop comes to what it does without listeners. -/
theorem run_stop : (stop s).run = s.stop := by
  unfold stop GatewayWebSocketSource.stop
  split_ifs <;> rfl

/-- A reconnect comes to what it does without listeners. -/
theorem run_reconnectNow : (reconnectNow s outcomes).run = s.reconnectNow outcomes := by
  unfold reconnectNow GatewayWebSocketSource.reconnectNow
  split_ifs
  · exact run_openSocket
  · rfl

/-- New symbols come to what they do without listeners. -/
theorem run_replaceSymbols {symbols : List JsString} :
    (replaceSymbols s rt outcomes symbols).run = s.replaceSymbols rt outcomes symbols := by
  unfold replaceSymbols GatewayWebSocketSource.replaceSymbols
  dsimp only
  rw [apply_ite Call.run, Call.run_bind, apply_ite Call.run, run_clearSubscriptionError,
    run_clearSubscriptionError, run_flushDesiredSymbols]
  rfl

/-- Where the listeners do nothing but return, what is called comes to a step of the source. -/
theorem run_method (a : SourceAction × Outcomes) : (method rt s a).map Call.run = s.step rt a := by
  obtain ⟨action, outcomes⟩ := a
  cases action with
  | start => exact congrArg some run_start
  | stop => exact congrArg some run_stop
  | reconnectNow => exact congrArg some run_reconnectNow
  | replaceSymbols symbols => exact congrArg some run_replaceSymbols
  | ping => exact congrArg some run_ping
  | opened socket generation => exact congrArg some run_handleOpen
  | message socket generation parsed => exact congrArg some run_handleMessage
  | failed socket generation => exact congrArg some run_handleSocketFailure
  | closed socket generation => exact congrArg some run_handleSocketFailure
  | timer handle =>
    change ((s.timers.scheduler.callback handle).map _).map _ =
      (s.timers.scheduler.callback handle).map _
    rw [Option.map_map]
    exact Option.map_congr fun callback _ => run_goOff
  | advance readyState =>
    change (s.socket.bind _).map _ = s.socket.bind _
    rw [Option.map_bind]
    refine Option.bind_congr fun socket _ => ?_
    change Option.map Call.run (if _ then _ else _) = _
    split_ifs <;> rfl

end SourceCall

end MarketDataGateway.MarketData

import MarketDataGateway.MarketData.SourceMoves

/-!
# What the listeners of a source see

Wherever a method of `GatewayWebSocketSource` tells its listeners something, the source has come
there by moves, with those of calls that are cut short (`method_keeps`). So whatever the moves keep
holds at every moment at which the listeners have the control, and after a call that a listener has
ended by throwing.
-/

namespace MarketDataGateway.MarketData.GatewayWebSocketSource

open Lib

variable {s s' s₀ : GatewayWebSocketSource} {socket : WebSocketLike}
  {outcomes : Outcomes} {code : JsString}
  {operation : PendingSubscriptionOperation} {rt : Browser} {cut : Bool}

/-! ## Sockets that are given up -/

/-- The socket has been given up as the listeners are told so, and nothing is armed yet. -/
theorem tells_handleSocketFailure (hrunning : s.running = true) (hsocket : s.socket = some socket) :
    (SourceCall.handleSocketFailure s outcomes socket.id s.generation code).Tells
    (Fails false s socket) := by
  have hcurrent : s.isCurrentSocket socket.id s.generation = true :=
    isCurrentSocket_iff.2 ⟨hrunning, ⟨socket, hsocket, rfl⟩, rfl⟩
  unfold SourceCall.handleSocketFailure
  rw [if_pos hcurrent]
  unfold SourceCall.scheduleReconnect
  rw [if_neg (by simp [hrunning])]
  refine ⟨⟨rfl, rfl, rfl, rfl, rfl, rfl, rfl, rfl, ⟨rfl, rfl⟩, rfl,
    fun hagrees hreconnect => ?_⟩, trivial⟩
  obtain ⟨hcleared, harmed⟩ := hagrees.foldl_clear
    [.ping, .heartbeat, .connectionStability, .subscriptionAck, .subscriptionRetry]
  refine ⟨hcleared, fun kind => (harmed kind).trans ?_⟩
  cases kind <;> first | rfl | exact hreconnect

/-- The listeners are told something of a socket that fails, if any socket does. -/
theorem tells_failure (id generation : ℕ) :
    (SourceCall.handleSocketFailure s outcomes id generation code).Tells (Moves true s) := by
  by_cases hcurrent : s.isCurrentSocket id generation = true
  · obtain ⟨hrunning, ⟨socket, hsocket, rfl⟩, rfl⟩ := isCurrentSocket_iff.1 hcurrent
    exact (tells_handleSocketFailure hrunning hsocket).mono fun t hfails =>
      .single (.fail false (Or.inr rfl) hsocket hfails)
  · unfold SourceCall.handleSocketFailure
    rw [if_neg hcurrent]
    trivial

/-- The same of a command that cannot be sent. -/
theorem tells_sendCommand (hrunning : s.running = true) (hsocket : s.socket = some socket)
    (command : ClientCommand) :
    (SourceCall.sendCommand s outcomes socket.id s.generation command).Tells
    (Fails false s socket) := by
  unfold SourceCall.sendCommand
  split_ifs
  · trivial
  · exact tells_handleSocketFailure hrunning hsocket
  · trivial

/-! ## Subscriptions -/

/-- What the source tells as it clears the subscription error is a move on. -/
theorem tells_clearSubscriptionError (hs : Consistent s) :
    (SourceCall.clearSubscriptionError s).Tells (Moves cut s) := by
  unfold SourceCall.clearSubscriptionError
  split_ifs
  · exact ⟨.single (.report _ hs.generation (Or.inl rfl)), trivial⟩
  · trivial

/-- What the source tells as it flushes its symbols are moves on. -/
theorem tells_flushDesiredSymbols (hs : Consistent s) :
    (SourceCall.flushDesiredSymbols s outcomes).Tells (Moves true s) := by
  rcases @flushDesiredSymbols_call s outcomes hs with ⟨-, hcall⟩ | ⟨-, -, hcall⟩ |
    ⟨socket, operation, hrequests, hcall⟩
  · rw [hcall]
    trivial
  · rw [hcall]
    exact tells_clearSubscriptionError hs
  · rw [hcall]
    have hrunning : (s.addOperation socket.id operation).running = true :=
      hs.running_of hrequests.current
    have htells := @tells_sendCommand (s.addOperation socket.id operation) socket outcomes hrunning
      hrequests.current operation.command
    exact htells.mono fun t hfails => .single (.refuse false (Or.inr rfl) hrequests hfails)

/-- What the source tells as it arms the retry timer is a move on. -/
theorem tells_scheduleSubscriptionRetry (hs : Consistent s) :
    (SourceCall.scheduleSubscriptionRetry s outcomes s.generation code).Tells (Moves cut s) := by
  unfold SourceCall.scheduleSubscriptionRetry
  split_ifs
  · trivial
  · exact tells_clearSubscriptionError hs
  · trivial
  · refine ⟨?_, trivial⟩
    let delayMs := s.settings.retryDelay (s.subscriptionRetryAttempt + 1) outcomes.random
    have hattempt := @Move.attempt cut s (s.subscriptionRetryAttempt + 1)
    have hreport := @Move.report cut
      { s with subscriptionRetryAttempt := s.subscriptionRetryAttempt + 1 }
      ⟨s.status.state, s.generation, s.status.reconnectAttempt, some delayMs,
        some code⟩ rfl (Or.inl rfl)
    exact (Relation.ReflTransGen.single hattempt).tail hreport

/-! ## Messages -/

/-- What comes of a message in one of its states: moves, or an answer to the pending operation and
then moves. -/
def Hears (message : WireMessage) (s s' : GatewayWebSocketSource) : Prop :=
  Moves true s s' ∨ ∃ s₁, Answers message s s₁ ∧ Moves true s₁ s'

/-- What the source tells of an acknowledgement is what the message brings about. -/
theorem tells_handleSubscriptionAck {message : WireMessage} {action : AckAction}
    {symbols : List JsString}
    {transitions : Option (List JsString)} (hs : Consistent s) (hsocket : s.socket = some socket)
    (hdata : message.data = .ack action symbols transitions) :
    (SourceCall.handleSubscriptionAck s outcomes action message.requestId s.generation).Tells
      (Hears message s) := by
  unfold SourceCall.handleSubscriptionAck
  cases hoperation : (message.requestId.bind s.pendingSubscriptionOperations.get).filter
    fun operation =>
      operation.generation = s.generation && operation.action = action with
  | none => exact ⟨Or.inl (.single (.emit _ hsocket rfl)), trivial⟩
  | some operation =>
    obtain ⟨hget, hmatches⟩ := Option.filter_eq_some_iff.1 hoperation
    obtain ⟨requestId, hid, hget⟩ := Option.bind_eq_some_iff.1 hget
    rw [Bool.and_eq_true, decide_eq_true_eq, decide_eq_true_eq] at hmatches
    obtain ⟨k, hawaits, rfl⟩ := hs.awaits_of_get hget
    -- The message answers the operation before anything is told.
    have hanswers : Answers message s (s.accept operation) :=
      .accepted symbols transitions hawaits hid (by
      rw [hdata, hmatches.2])
    obtain ⟨hconsistent, -, -, -⟩ := hanswers.consistent hs
    have hemit : Move true (s.accept operation).clearSubscriptionError
        ((s.accept operation).clearSubscriptionError.emit
          (.subscriptionAck operation.action operation.symbols s.generation
          (some operation.requestId))) :=
      .emit _ (clearSubscriptionError_socket.trans hsocket)
        (@clearSubscriptionError_generation (s.accept operation)).symm
    have hcleared := @clearSubscriptionError_moves _ true hconsistent
    have hemitted := hcleared.tail hemit
    have hheard {t : GatewayWebSocketSource} (h : Moves true (s.accept operation) t) :
        Hears message s t :=
      Or.inr ⟨_, hanswers, h⟩
    dsimp only
    rw [Call.tells_bind, Call.tells_bind, SourceCall.run_clearSubscriptionError]
    -- Three parts tell: clearing the error, the event, and the flush.
    refine ⟨?_, ⟨hheard hemitted, trivial⟩, ?_⟩
    · exact Call.Tells.mono (tells_clearSubscriptionError hconsistent) fun t ht => hheard ht
    · exact Call.Tells.mono
        (tells_flushDesiredSymbols (Moves.consistent hemitted hconsistent)) fun t ht =>
        hheard (hemitted.trans ht)

/-- What the source tells of an error of the gateway is what the message brings about. -/
theorem tells_handleGatewayError {message : WireMessage}
    {rawCode text : JsString} (hs : Consistent s)
    (hsocket : s.socket = some socket) (hdata : message.data = .error rawCode text) :
    (SourceCall.handleGatewayError s rt outcomes rawCode message.requestId s.generation).Tells
      (Hears message s) := by
  unfold SourceCall.handleGatewayError
  cases hoperation : message.requestId.bind s.pendingSubscriptionOperations.get with
  | none =>
    -- An error without an operation is told, and set as the last one.
    have hemit := @Move.emit true _ _ (.notice .error (rt.sanitizeGatewayCode rawCode)
      (js "The gateway reported an error (" ++ rt.sanitizeGatewayCode rawCode ++
      js ")") s.generation
      message.requestId) hsocket rfl
    have hemitted := Relation.ReflTransGen.single hemit
    exact ⟨Or.inl hemitted, Or.inl (hemitted.tail (.report _ rfl (Or.inl rfl))), trivial⟩
  | some operation =>
    obtain ⟨requestId, hid, hget⟩ := Option.bind_eq_some_iff.1 hoperation
    obtain ⟨k, hawaits, rfl⟩ := hs.awaits_of_get hget
    -- The operation is off before anything is told of it.
    have hanswers : Answers message s (s.reject operation) :=
      .rejected rawCode text hawaits hid hdata
    obtain ⟨hconsistent, -, -, -⟩ := hanswers.consistent hs
    have hemit : Move true (s.reject operation) ((s.reject operation).emit
        (.notice .error (rt.sanitizeGatewayCode rawCode)
          (js "The gateway rejected the " ++ js operation.action.value ++ js " operation (" ++
            rt.sanitizeGatewayCode rawCode ++ js ")") s.generation message.requestId)) :=
            .emit _ hsocket rfl
    have hemitted := Relation.ReflTransGen.single hemit
    have hheard {t : GatewayWebSocketSource} (h : Moves true (s.reject operation) t) :
        Hears message s t :=
      Or.inr ⟨_, hanswers, h⟩
    dsimp only
    rw [if_pos hawaits.generation]
    refine ⟨hheard hemitted, ?_⟩
    split_ifs
    · exact Call.Tells.mono
        (tells_scheduleSubscriptionRetry (hemit.consistent hconsistent)) fun t ht =>
        hheard (hemitted.trans ht)
    · exact ⟨hheard (hemitted.tail (.report _ rfl (Or.inl rfl))), trivial⟩

/-- What the source tells of any other message is what it brings about. -/
theorem tells_emitWireMessage (hs : Consistent s) (hsocket : s.socket = some socket)
    (message : WireMessage) :
    (SourceCall.emitWireMessage s rt outcomes message s.generation).Tells (Hears message s) := by
  unfold SourceCall.emitWireMessage
  cases hdata : message.data with
  | ack action symbols transitions => exact tells_handleSubscriptionAck hs hsocket hdata
  | error code text => exact tells_handleGatewayError hs hsocket hdata
  | connected => trivial
  | heartbeat => trivial
  | _ => exact ⟨Or.inl (.single (.emit _ hsocket rfl)), trivial⟩

/-- What the source tells of a message is what it brings about. -/
theorem tells_handleMessage (hs : Consistent s) (id generation : ℕ) (parsed : Option WireMessage) :
    (SourceCall.handleMessage s rt outcomes id generation parsed).Tells
      (Comes true (.message id generation parsed) s) := by
  unfold SourceCall.handleMessage
  split_ifs with hcurrent
  · obtain ⟨hrunning, ⟨socket, hsocket, rfl⟩, rfl⟩ := isCurrentSocket_iff.1 hcurrent
    cases parsed with
    | none => exact ⟨Or.inl (.single (.emit _ hsocket rfl)), trivial⟩
    | some message =>
      obtain ⟨hmoves, hkept⟩ := @watches_moves s socket true hs hrunning hsocket
      have htells := @tells_emitWireMessage _ socket outcomes rt (Moves.consistent hmoves hs)
        (hkept.1.trans hsocket) message
      rw [hkept.2] at htells
      refine htells.mono fun t ht => ?_
      rcases ht with hplain | ⟨s₁, hanswers, hrest⟩
      · exact Or.inl (hmoves.trans hplain)
      · refine Or.inr ⟨socket.id, message, _, s₁, rfl, ?_, hmoves, hkept.1, hanswers, hrest⟩
        rw [hsocket]
        rfl
  · trivial

/-! ## Timers, and the calls of a source -/

/-- What the source tells as it pings are moves on. -/
theorem tells_ping : (SourceCall.ping s outcomes).Tells (Moves true s) := by
  unfold SourceCall.ping
  cases hsocket : s.socket with
  | none => trivial
  | some socket =>
    dsimp only
    split_ifs with hcurrent
    · obtain ⟨hrunning, -, -⟩ := isCurrentOpenSocket_iff.1 hcurrent
      have hcount := Relation.ReflTransGen.single (@Move.count true s)
      have htells := @tells_sendCommand
        { s with requestSequence := s.requestSequence + 1 } socket outcomes
        hrunning hsocket (.ping (requestId "ping" s.generation (s.requestSequence + 1)))
      exact htells.mono fun t hfails => hcount.tail (.fail false (Or.inr rfl) hsocket hfails)
    · trivial

/-- What the source tells as a socket opens are moves on. -/
theorem tells_handleOpen (hs : Consistent s) (id generation : ℕ) :
    (SourceCall.handleOpen s outcomes id generation).Tells (Moves true s) := by
  unfold SourceCall.handleOpen
  split_ifs with hcurrent
  · obtain ⟨hrunning, ⟨socket, hsocket, rfl⟩, rfl⟩ := isCurrentSocket_iff.1 hcurrent
    have hlive : Move true s (s.setStatus ⟨.live, s.generation, s.reconnectAttempt, none, none⟩) :=
      .report _ rfl (Or.inr ⟨rfl, by rw [hsocket]; exact Option.some_ne_none socket⟩)
    have hreported := Relation.ReflTransGen.single hlive
    refine ⟨hreported, ?_⟩
    dsimp only [Call.bind]
    rw [Call.tells_bind]
    exact ⟨Call.Tells.mono (tells_flushDesiredSymbols (hlive.consistent hs)) fun t ht =>
      hreported.trans ht, trivial⟩
  · trivial

/-- A socket is about to be opened, or could not be made. -/
theorem tells_openSocket (h : s.Disconnects s₀) (isReconnect : Bool) :
    (SourceCall.openSocket s₀ outcomes isReconnect).Tells (Moves true s) := by
  have hmiss {t : GatewayWebSocketSource} (hmisses : Misses false s₀ t) : Moves true s t :=
    .single (.miss false (Or.inr rfl) h hmisses)
  -- Opening clears the two timers of the operations, and no other.
  have hcleared (hagrees : s₀.timers.Agrees TimerCallback.kind)
    (hreconnect : s₀.timers.armed .reconnect = none) :
      ([.subscriptionAck, .subscriptionRetry].foldl TimerFields.clear s₀.timers).Agrees
      TimerCallback.kind ∧
        ∀ kind, ([.subscriptionAck,
        .subscriptionRetry].foldl TimerFields.clear s₀.timers).armed kind =
          if kind = .reconnect ∧ false = true then some (.reconnect (s₀.generation + 1))
          else if kind = .subscriptionAck ∨ kind = .subscriptionRetry then none
            else s₀.timers.armed kind := by
    obtain ⟨hcleared, harmed⟩ := hagrees.foldl_clear [.subscriptionAck, .subscriptionRetry]
    refine ⟨hcleared, fun kind => (harmed kind).trans ?_⟩
    cases kind <;> rfl
  unfold SourceCall.openSocket
  rw [if_pos h.running]
  refine ⟨hmiss ⟨h.running, h.noSocket, rfl, rfl, rfl, rfl, rfl, rfl, ⟨?_, rfl⟩,
    Or.inl rfl, hcleared⟩, ?_⟩
  · cases isReconnect
    · exact Or.inl rfl
    · exact Or.inr rfl
  · dsimp only [Call.bind]
    by_cases hconnects : outcomes.connects = true
    · rw [if_pos hconnects]
      trivial
    · rw [if_neg hconnects]
      unfold SourceCall.scheduleReconnect
      rw [if_neg (by simp [h.running])]
      -- The socket could not be made, and a reconnect is told of instead.
      exact ⟨hmiss ⟨h.running, h.noSocket, rfl, rfl, rfl, rfl, rfl, rfl, ⟨Or.inr rfl, rfl⟩,
        Or.inr ⟨_, rfl, rfl⟩, hcleared⟩, trivial⟩

/-- What the source tells as a timer goes off that is neither for a reconnect nor for an answer are
moves on. -/
theorem tells_goOff_of_ne {callback : TimerCallback} (hs : Consistent s)
    (hkind : callback.kind ≠ .reconnect ∧ callback.kind ≠ .subscriptionAck) :
    (SourceCall.goOff s outcomes callback).Tells (Moves true s) := by
  cases callback with
  | reconnect => exact absurd rfl hkind.1
  | subscriptionAck => exact absurd rfl hkind.2
  | ping id generation =>
    unfold SourceCall.goOff
    dsimp only
    split_ifs
    · rw [Call.tells_bind]
      exact ⟨tells_ping, trivial⟩
    · trivial
  | heartbeat id generation =>
    unfold SourceCall.goOff
    dsimp only
    split_ifs
    · exact tells_failure id generation
    · trivial
  | connectionStability id generation =>
    unfold SourceCall.goOff
    dsimp only
    split_ifs with hcurrent
    · obtain ⟨hrunning, ⟨socket, hsocket, -, -⟩, rfl⟩ := isCurrentOpenSocket_iff.1 hcurrent
      -- The attempts are set to zero, and the status tells so.
      refine ⟨(Relation.ReflTransGen.single (.steady hsocket)).tail ?_, trivial⟩
      exact .report _ rfl (Or.inr ⟨rfl, hsocket ▸ Option.some_ne_none socket⟩)
    · trivial
  | subscriptionRetry generation code =>
    unfold SourceCall.goOff
    dsimp only
    split_ifs with hstale
    · trivial
    · obtain ⟨-, hgeneration⟩ : s.running = true ∧
        generation = s.generation := by simpa using hstale
      -- The error that is retried is told first.
      have hreport : Move true s (s.setStatus
          ⟨s.status.state, generation, s.status.reconnectAttempt, none, some code⟩) :=
        .report _ hgeneration (Or.inl rfl)
      have hreported := Relation.ReflTransGen.single hreport
      exact ⟨hreported, Call.Tells.mono
        (tells_flushDesiredSymbols (hreport.consistent hs)) fun t ht =>
        hreported.trans ht⟩

/-- What the source tells as a timer goes off are moves on. -/
theorem tells_goOff {handle : ℕ} {callback : TimerCallback} (hs : Consistent s)
    (hcallback : s.timers.scheduler.callback handle = some callback) :
    (SourceCall.goOff { s with timers := s.timers.goOff handle callback.kind }
    outcomes callback).Tells
      (Moves true s) := by
  have harmed := hs.timers.armed_of_callback hcallback
  by_cases hreconnect : callback.kind = .reconnect
  · rw [hreconnect] at harmed
    obtain ⟨hruns, hnoSocket, rfl⟩ := hs.reconnect callback harmed
    unfold SourceCall.goOff
    dsimp only
    rw [if_neg (by simp [hruns])]
    exact tells_openSocket (hs.disconnects_of_reconnect hcallback) true
  by_cases hack : callback.kind = .subscriptionAck
  · rw [hack] at harmed
    obtain ⟨socket, operation, hawaits, rfl⟩ := hs.awaits_of_armed harmed
    have hrunning := hs.running_of hawaits.current
    unfold SourceCall.goOff
    dsimp only
    split_ifs with hcurrent
    · obtain ⟨-, ⟨k, hk, -, hopened⟩, -⟩ := isCurrentOpenSocket_iff.1 hcurrent
      have hk : s.socket = some k := hk
      obtain rfl : k = socket := Option.some.inj (hk.symm.trans hawaits.current)
      rw [hawaits.get, Option.filter_some, if_pos (by simpa using hawaits.generation)]
      -- A listener that throws here leaves the operation pending without a timer.
      have hexpire : Move true s { s with timers := s.timers.goOff handle .subscriptionAck } :=
        .expire handle _ hcallback (fun h => by cases h) fun _ => Or.inl rfl
      have hemitted := (Relation.ReflTransGen.single hexpire).tail (.emit (.notice .error
        (js "subscription_ack_timeout")
        (js "The gateway did not acknowledge the subscription operation in time") s.generation
        (some operation.requestId)) hawaits.current rfl)
      exact ⟨hemitted, (tells_failure k.id s.generation).mono fun t ht => hemitted.trans ht⟩
    · trivial
  · have hexpire : Move true s { s with timers := s.timers.goOff handle callback.kind } :=
      .expire handle callback hcallback hreconnect fun h => absurd h hack
    have hexpired := Relation.ReflTransGen.single hexpire
    exact (tells_goOff_of_ne (hexpire.consistent hs) ⟨hreconnect, hack⟩).mono fun t ht =>
      hexpired.trans ht

/-- What the source tells as it starts are moves on. -/
theorem tells_start (hs : Consistent s) : (SourceCall.start s outcomes).Tells (Moves true s) := by
  unfold SourceCall.start
  split_ifs with hrunning
  · trivial
  · exact tells_openSocket (hs.disconnects_of_start (Bool.not_eq_true _ ▸ hrunning)) false

/-- What the source tells as it reconnects are moves on. -/
theorem tells_reconnectNow : (SourceCall.reconnectNow s outcomes).Tells (Moves true s) := by
  unfold SourceCall.reconnectNow
  split_ifs with hrunning
  · exact tells_openSocket (disconnects_of_reconnectNow hrunning) true
  · trivial

/-- What the source tells as it stops is a move on. -/
theorem tells_stop : (SourceCall.stop s).Tells (Moves cut s) := by
  have hstop : Move cut s (SourceCall.stop s).run := SourceCall.run_stop (s := s) ▸ .stop
  unfold SourceCall.stop at hstop ⊢
  split_ifs at hstop ⊢
  · trivial
  · exact ⟨.single hstop, trivial⟩

/-- What the source tells of new symbols are moves on. -/
theorem tells_replaceSymbols (hs : Consistent s) (symbols : List JsString) :
    (SourceCall.replaceSymbols s rt outcomes symbols).Tells (Moves true s) := by
  unfold SourceCall.replaceSymbols
  dsimp only
  by_cases hsame : s.desiredSymbols = rt.normalizeSymbols symbols
  · rw [if_pos hsame]
    trivial
  rw [if_neg hsame]
  have hdesire := @Move.desire true s (rt.normalizeSymbols symbols)
    (Or.inr rt.pairwise_normalizeSymbols)
  have hdesired := Relation.ReflTransGen.single hdesire
  have hcleared := @clearSubscriptionError_moves _ true (hdesire.consistent hs)
  have hmoves := hdesired.trans hcleared
  have hconsistent := Moves.consistent hmoves hs
  rw [Call.tells_bind, SourceCall.run_clearSubscriptionError]
  refine ⟨Call.Tells.mono (tells_clearSubscriptionError (hdesire.consistent hs)) fun t ht =>
    hdesired.trans ht, ?_⟩
  split_ifs
  · have hagain (t : GatewayWebSocketSource) :
        Move true t { t.clearTimer .subscriptionRetry with subscriptionRetryAttempt := 0 } :=
      .desire t.desiredSymbols (Or.inl rfl)
    exact Call.Tells.mono (tells_clearSubscriptionError ((hagain _).consistent hconsistent))
      fun t ht =>
      (hmoves.tail (hagain _)).trans ht
  · exact Call.Tells.mono (tells_flushDesiredSymbols hconsistent) fun t ht => hmoves.trans ht

/-! ## All calls -/

/-- Wherever the listeners are told something, what has come of the action is moves, and an answer
to the pending operation at most. -/
theorem method_tells {action : SourceAction} {call : SourceCall} (hs : Consistent s)
    (hcall : SourceCall.method rt s (action, outcomes) = some call) :
    call.Tells (Comes true action s) := by
  have hmoves {call : SourceCall} (h : call.Tells (Moves true s)) :
      call.Tells (Comes true action s) :=
    h.mono fun t ht => Or.inl ht
  cases action with
  | start =>
    obtain rfl := Option.some.inj hcall
    exact hmoves (tells_start hs)
  | stop =>
    obtain rfl := Option.some.inj hcall
    exact hmoves tells_stop
  | reconnectNow =>
    obtain rfl := Option.some.inj hcall
    exact hmoves tells_reconnectNow
  | replaceSymbols symbols =>
    obtain rfl := Option.some.inj hcall
    exact hmoves (tells_replaceSymbols hs symbols)
  | ping =>
    obtain rfl := Option.some.inj hcall
    exact hmoves tells_ping
  | opened id generation =>
    obtain rfl := Option.some.inj hcall
    exact hmoves (tells_handleOpen hs id generation)
  | message id generation parsed =>
    obtain rfl := Option.some.inj hcall
    -- Only a message answers an operation.
    exact tells_handleMessage hs id generation parsed
  | failed id generation =>
    obtain rfl := Option.some.inj hcall
    exact hmoves (tells_failure id generation)
  | closed id generation =>
    obtain rfl := Option.some.inj hcall
    exact hmoves (tells_failure id generation)
  | timer handle =>
    obtain ⟨callback, hcallback, rfl⟩ := Option.map_eq_some_iff.1 hcall
    exact hmoves (tells_goOff hs hcallback)
  | advance readyState =>
    obtain ⟨socket, hsocket, hadvance⟩ := Option.bind_eq_some_iff.1 hcall
    split_ifs at hadvance
    obtain rfl := Option.some.inj hadvance
    trivial

/-- A call keeps what the moves and the answers keep. -/
theorem method_keeps {p : GatewayWebSocketSource → Prop} {call : SourceCall}
    {a : SourceAction × Outcomes}
    (hs : Consistent s) (hp : ∀ t, Comes true a.1 s t → p t)
    (hcall : SourceCall.method rt s a = some call) :
    call.Keeps p := by
  have hstep : s.step rt a = some call.run :=
    (SourceCall.run_method a).symm.trans (congrArg (Option.map Call.run) hcall)
  exact ⟨(method_tells hs hcall).mono hp, hp _ (step_comes true hs hstep)⟩

end MarketDataGateway.MarketData.GatewayWebSocketSource

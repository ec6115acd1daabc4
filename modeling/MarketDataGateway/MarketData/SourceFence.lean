import MarketDataGateway.MarketData.SourceRuns

/-!
# The fences of a source

What a source emits stems from a message of its current socket, or from an operation on it that has
not been acknowledged in time (`method_said`), a source that has been stopped emits nothing until it
is started again (`silent_until_started`), and a timer that has been set for another socket or
generation only leaves its field (`method_of_stale`). `fenced_run` puts this together with what is
recorded of the output, for listeners that may throw but do not call the source.
-/

namespace MarketDataGateway.MarketData

open Lib

/-- The event, if one is emitted. -/
def SourceOutput.event? : SourceOutput → Option SourceEvent
  | .emitted event => some event
  | .status _ => none
  | .sent _ _ => none
  | .closed _ _ _ => none

/-- The events that have been emitted, the last first. -/
def emittedEvents (output : List SourceOutput) : List SourceEvent :=
  output.filterMap SourceOutput.event?

/-- The generation that a timer has been set in. -/
def TimerCallback.generation : TimerCallback → ℕ
  | .reconnect generation => generation
  | .ping _ generation => generation
  | .heartbeat _ generation => generation
  | .connectionStability _ generation => generation
  | .subscriptionAck _ generation _ => generation
  | .subscriptionRetry generation _ => generation

namespace GatewayWebSocketSource

variable {s t u s₀ : GatewayWebSocketSource} {outcomes : Outcomes} {rt : Browser}
  {p q : SourceEvent → Prop}
  {id generation : ℕ} {sends : Bool} {code : JsString} {call : SourceCall}
    {next : GatewayWebSocketSource → SourceCall}

/-! ## What is put out -/

/-- An output may be put out: an event with a property, a status or the end of a socket, and with
`sends` a command. -/
def Allows (p : SourceEvent → Prop) (sends : Bool) : SourceOutput → Prop
  | .emitted event => p event
  | .status _ => True
  | .sent _ _ => sends = true
  | .closed _ _ _ => True

/-- Something may have been put out, all of it allowed. -/
def Puts (p : SourceEvent → Prop) (sends : Bool) (s t : GatewayWebSocketSource) : Prop :=
  ∃ output, t.output = output ++ s.output ∧ ∀ o ∈ output, Allows p sends o

/-- Nothing has been put out. -/
theorem Puts.of_eq (h : t.output = s.output) : Puts p sends s t :=
  ⟨[], h, fun _ ho => absurd ho List.not_mem_nil⟩

/-- One thing has been put out. -/
theorem Puts.of_cons {o : SourceOutput} (h : t.output = o :: s.output)
    (ho : Allows p sends o) : Puts p sends s t :=
  ⟨[o], h, fun _ hother => List.mem_singleton.1 hother ▸ ho⟩

/-- What is put out later comes on top. -/
theorem Puts.trans (h : Puts p sends s t) (h' : Puts p sends t u) : Puts p sends s u := by
  obtain ⟨first, hfirst, hp⟩ := h
  obtain ⟨second, hsecond, hp'⟩ := h'
  refine ⟨second ++ first, by rw [hsecond, hfirst, List.append_assoc], fun o ho => ?_⟩
  exact (List.mem_append.1 ho).elim (hp' o) (hp o)

/-- More may be allowed. -/
theorem Puts.mono (h : Puts p sends s t) (hpq : ∀ event, p event → q event) : Puts q sends s t := by
  obtain ⟨output, houtput, hp⟩ := h
  refine ⟨output, houtput, fun o ho => ?_⟩
  have hallows := hp o ho
  cases o with
  | emitted event => exact hpq event hallows
  | _ => exact hallows

/-- Where no command is sent, one could have been. -/
theorem Puts.sending (h : Puts p false s t) : Puts p true s t := by
  obtain ⟨output, houtput, hp⟩ := h
  refine ⟨output, houtput, fun o ho => ?_⟩
  have hallows := hp o ho
  cases o with
  | sent => rfl
  | _ => exact hallows

/-- What has been put out stays. -/
theorem Puts.suffix (h : Puts p sends s t) : s.output <:+ t.output := by
  obtain ⟨output, houtput, -⟩ := h
  exact ⟨output, houtput.symm⟩

/-- Each event that has been emitted has the property. -/
theorem Puts.emitted (h : Puts p sends s t) :
    ∃ output, t.output = output ++ s.output ∧ ∀ event, .emitted event ∈ output → p event := by
  obtain ⟨output, houtput, hp⟩ := h
  exact ⟨output, houtput, fun event hevent => hp _ hevent⟩

/-- If no event has the property, none has been emitted. -/
theorem Puts.emittedEvents_eq (h : Puts (fun _ => False) sends s t) :
    emittedEvents t.output = emittedEvents s.output := by
  obtain ⟨output, houtput, hnone⟩ := h
  unfold emittedEvents
  rw [houtput, List.filterMap_append, List.filterMap_eq_nil_iff.2 fun o ho => ?_]
  · rfl
  · have hallows := hnone o ho
    cases o with
    | emitted event => exact hallows.elim
    | _ => rfl

/-- What a call puts out is allowed, and if it sends a command, it does not tell the listeners
anything after that. -/
def Says (p : SourceEvent → Prop) (s : GatewayWebSocketSource) (call : SourceCall) : Prop :=
  call.Tells (Puts p false s) ∧ Puts p true s call.run

/-- A call that sends nothing. -/
theorem says_of_keeps (h : call.Keeps (Puts p false s)) : Says p s call := ⟨h.1, h.2.sending⟩

/-- What a call puts out, up to any point at which the listeners have the control. -/
theorem Says.keeps (h : Says p s call) : call.Keeps (Puts p true s) :=
  ⟨h.1.mono fun _ ht => ht.sending, h.2⟩

/-- More may be allowed of a call. -/
theorem Says.mono (h : Says p s call) (hpq : ∀ event, p event → q event) : Says q s call :=
  ⟨h.1.mono fun _ ht => ht.mono hpq, h.2.mono hpq⟩

/-- What is put out by a call that begins where something has been put out. -/
theorem says_after (hcall : Says p t call) (h : Puts p false s t) : Says p s call :=
  ⟨hcall.1.mono fun _ => h.trans, h.sending.trans hcall.2⟩

/-- What is put out by a call that sends nothing, and what follows it. -/
theorem says_bind (h : call.Keeps (Puts p false s)) (hnext : ∀ t, Says p t (next t)) :
    Says p s (call.bind next) := by
  have hsaid := says_after (hnext call.run) h.2
  refine ⟨Call.tells_bind.2 ⟨h.1, hsaid.1⟩, ?_⟩
  rw [Call.run_bind]
  exact hsaid.2

/-- After a command has been sent, nothing but the state changes. -/
theorem says_then (h : Says p s call) {last : GatewayWebSocketSource → GatewayWebSocketSource}
    (hlast : ∀ t, (last t).output = t.output) :
    Says p s (call.bind fun t => .returned (last t)) := by
  refine ⟨Call.tells_bind.2 ⟨h.1, trivial⟩, ?_⟩
  rw [Call.run_bind]
  exact h.2.trans (.of_eq (hlast _))

/-- A call that returns at once puts out what has been put out by then. -/
theorem keeps_returned (h : Puts p false s t) :
    (Call.returned t : SourceCall).Keeps (Puts p false s) := ⟨trivial, h⟩

/-- What is put out by calls that send nothing, one after the other. -/
theorem keeps_bind (h : call.Keeps (Puts p false s))
    (hnext : ∀ t, (next t).Keeps (Puts p false t)) :
    (call.bind next).Keeps (Puts p false s) :=
  h.bind fun hputs => (hnext call.run).mono fun _ => hputs.trans

/-- What is put out by a call that sends nothing and begins where something has been put out. -/
theorem keeps_after (hcall : call.Keeps (Puts p false t)) (h : Puts p false s t) :
    call.Keeps (Puts p false s) :=
  hcall.mono fun _ => h.trans

/-- An event is emitted. -/
theorem keeps_emit {event : SourceEvent} (h : p event) :
    (SourceCall.emit s event).Keeps (Puts p false s) :=
  ⟨⟨.of_cons rfl h, trivial⟩, .of_cons rfl h⟩

/-- A status is reported. -/
theorem keeps_setStatus (status : SourceStatus) :
    (SourceCall.setStatus s status).Keeps (Puts p false s) :=
  ⟨⟨.of_cons rfl trivial, trivial⟩, .of_cons rfl trivial⟩

/-! ### Methods -/

/-- Nothing is put out that may not be as the subscription error is cleared. -/
theorem keeps_clearSubscriptionError :
    (SourceCall.clearSubscriptionError s).Keeps (Puts p false s) := by
  unfold SourceCall.clearSubscriptionError
  split_ifs
  · exact keeps_setStatus _
  · exact keeps_returned (.of_eq rfl)

/-- Nothing is put out that may not be as the reconnect timer is armed. -/
theorem keeps_scheduleReconnect :
    (SourceCall.scheduleReconnect s outcomes generation code).Keeps (Puts p false s) := by
  unfold SourceCall.scheduleReconnect
  split_ifs
  · exact keeps_returned (.of_eq rfl)
  · exact keeps_bind (keeps_setStatus _) fun t => keeps_returned (.of_eq rfl)

/-- A socket is given up without an event. -/
theorem keeps_handleSocketFailure :
    (SourceCall.handleSocketFailure s outcomes id generation code).Keeps (Puts p false s) := by
  unfold SourceCall.handleSocketFailure
  split_ifs
  · exact keeps_after keeps_scheduleReconnect (.of_cons rfl trivial)
  · exact keeps_returned (.of_eq rfl)

/-- A command is sent, or the socket given up. -/
theorem says_sendCommand (command : ClientCommand) :
    Says p s (SourceCall.sendCommand s outcomes id generation command) := by
  unfold SourceCall.sendCommand
  split_ifs
  · exact ⟨trivial, .of_cons rfl rfl⟩
  · exact says_of_keeps keeps_handleSocketFailure
  · exact says_of_keeps (keeps_returned (.of_eq rfl))

/-- Nothing is put out that may not be as a socket is opened. -/
theorem keeps_openSocket (isReconnect : Bool) :
    (SourceCall.openSocket s outcomes isReconnect).Keeps (Puts p false s) := by
  unfold SourceCall.openSocket
  by_cases hrunning : s.running = true
  · rw [if_pos hrunning]
    refine keeps_bind (keeps_after (keeps_setStatus _) (.of_eq rfl)) fun t => ?_
    by_cases hconnects : outcomes.connects = true
    · rw [if_pos hconnects]
      exact keeps_returned (.of_eq rfl)
    · rw [if_neg hconnects]
      exact keeps_scheduleReconnect
  · rw [if_neg hrunning]
    exact keeps_returned (.of_eq rfl)

/-- An operation is sent at the end. -/
theorem says_flushDesiredSymbols : Says p s (SourceCall.flushDesiredSymbols s outcomes) := by
  unfold SourceCall.flushDesiredSymbols
  cases s.socket with
  | none => exact says_of_keeps (keeps_returned (.of_eq rfl))
  | some socket =>
    dsimp only
    by_cases hshut : (!s.isCurrentOpenSocket socket.id s.generation) = true
    · rw [if_pos hshut]
      exact says_of_keeps (keeps_returned (.of_eq rfl))
    by_cases hbusy : s.pendingSubscriptionOperations.entries ≠ [] ∨
      s.timers.field .subscriptionRetry ≠ none
    · rw [if_neg hshut, if_pos hbusy]
      exact says_of_keeps (keeps_returned (.of_eq rfl))
    rw [if_neg hshut, if_neg hbusy]
    generalize (if s.confirmedSymbols.filter (· ∉ s.desiredSymbols) ≠ []
      then some AckAction.unsubscribe
      else if s.desiredSymbols.filter (· ∉ s.confirmedSymbols) ≠ [] then some .subscribe
      else none) = action
    cases action with
    -- Nothing is to be asked for.
    | none => exact says_of_keeps keeps_clearSubscriptionError
    | some action =>
      dsimp only
      generalize (if some action = some AckAction.unsubscribe
        then s.confirmedSymbols.filter (· ∉ s.desiredSymbols)
        else s.desiredSymbols.filter (· ∉ s.confirmedSymbols)) = symbols
      split_ifs
      · exact says_of_keeps keeps_clearSubscriptionError
      · exact says_after (says_sendCommand _) (.of_eq rfl)

/-- Nothing is put out that may not be as the retry timer is armed. -/
theorem keeps_scheduleSubscriptionRetry :
    (SourceCall.scheduleSubscriptionRetry s outcomes generation code).Keeps (Puts p false s) := by
  unfold SourceCall.scheduleSubscriptionRetry
  split_ifs
  · exact keeps_returned (.of_eq rfl)
  · exact keeps_clearSubscriptionError
  · exact keeps_returned (.of_eq rfl)
  · exact keeps_bind (keeps_setStatus _) fun t => keeps_returned (.of_eq rfl)

/-- A ping puts out what it may. -/
theorem says_ping : Says p s (SourceCall.ping s outcomes) := by
  unfold SourceCall.ping
  cases s.socket with
  | none => exact says_of_keeps (keeps_returned (.of_eq rfl))
  | some socket =>
    dsimp only
    split_ifs
    · exact says_after (says_sendCommand _) (.of_eq rfl)
    · exact says_of_keeps (keeps_returned (.of_eq rfl))

/-- An open socket is reported before it is used. -/
theorem says_handleOpen : Says p s (SourceCall.handleOpen s outcomes id generation) := by
  unfold SourceCall.handleOpen
  split_ifs
  · exact says_bind (keeps_setStatus _) fun t => says_then says_flushDesiredSymbols fun t => rfl
  · exact says_of_keeps (keeps_returned (.of_eq rfl))

/-- Nothing is put out that may not be at a start. -/
theorem keeps_start : (SourceCall.start s outcomes).Keeps (Puts p false s) := by
  unfold SourceCall.start
  split_ifs
  · exact keeps_returned (.of_eq rfl)
  · exact keeps_after (keeps_openSocket false) (.of_eq rfl)

/-- A socket is closed without an event, if there is one. -/
theorem puts_dropSocket (number : ℕ) (reason : String) :
    Puts p false s (s.dropSocket number reason) := by
  obtain ⟨output, heq, houtput⟩ := dropSocket_eq s number reason
  rw [heq]
  rcases houtput with rfl | ⟨socket, closeCode, closeReason, -, rfl⟩
  · exact .of_eq rfl
  · exact .of_cons rfl trivial

/-- Nothing is put out that may not be at a stop. -/
theorem keeps_stop : (SourceCall.stop s).Keeps (Puts p false s) := by
  unfold SourceCall.stop
  split_ifs
  · exact keeps_returned (.of_eq rfl)
  · refine keeps_after (keeps_setStatus _) ?_
    exact puts_dropSocket (s :=
      { s with running := false, generation := s.generation + 1 }.clearTimers) _ _

/-- Nothing is put out that may not be at a reconnect. -/
theorem keeps_reconnectNow : (SourceCall.reconnectNow s outcomes).Keeps (Puts p false s) := by
  unfold SourceCall.reconnectNow
  split_ifs
  · refine keeps_after (keeps_openSocket true) ?_
    exact puts_dropSocket (s := { s.clearTimers with reconnectAttempt := 0 }) _ _
  · exact keeps_returned (.of_eq rfl)

/-- Other symbols are asked for at the end. -/
theorem says_replaceSymbols (symbols : List JsString) :
    Says p s (SourceCall.replaceSymbols s rt outcomes symbols) := by
  unfold SourceCall.replaceSymbols
  dsimp only
  split_ifs
  · exact says_of_keeps (keeps_returned (.of_eq rfl))
  · refine says_bind (keeps_after keeps_clearSubscriptionError (.of_eq rfl)) fun t => ?_
    split_ifs
    · exact says_of_keeps (keeps_after keeps_clearSubscriptionError (.of_eq rfl))
    · exact says_flushDesiredSymbols

/-! ### Messages and timers -/

/-- An acknowledgement is passed on with the generation of its socket. -/
theorem says_handleSubscriptionAck {action : AckAction} {requestId : Option JsString} :
    Says (fun event => event.generation = generation) s
      (SourceCall.handleSubscriptionAck s outcomes action requestId generation) := by
  unfold SourceCall.handleSubscriptionAck
  cases (requestId.bind s.pendingSubscriptionOperations.get).filter _ with
  | none => exact says_of_keeps (keeps_emit rfl)
  | some operation =>
    refine says_bind (keeps_after keeps_clearSubscriptionError (.of_eq rfl)) fun t => ?_
    exact says_bind (keeps_emit rfl) fun t => says_flushDesiredSymbols

/-- And so is an error. -/
theorem keeps_handleGatewayError {rawCode : JsString} {requestId : Option JsString} :
    (SourceCall.handleGatewayError s rt outcomes rawCode requestId generation).Keeps
      (Puts (fun event => event.generation = generation) false s) := by
  unfold SourceCall.handleGatewayError
  cases requestId.bind s.pendingSubscriptionOperations.get with
  | none => exact keeps_bind (keeps_emit rfl) fun t => keeps_setStatus _
  | some operation =>
    refine keeps_bind (keeps_after (keeps_emit rfl) ?_) fun t => ?_
    · dsimp only
      split_ifs <;> exact .of_eq rfl
    · dsimp only
      split_ifs
      · exact keeps_scheduleSubscriptionRetry
      · exact keeps_setStatus _

/-- Whatever a message says is passed on so. -/
theorem says_emitWireMessage (message : WireMessage) :
    Says (fun event => event.generation = generation) s
    (SourceCall.emitWireMessage s rt outcomes message generation) := by
  unfold SourceCall.emitWireMessage
  cases message.data with
  | ack action symbols transitions => exact says_handleSubscriptionAck
  | error code text => exact says_of_keeps keeps_handleGatewayError
  | connected => exact says_of_keeps (keeps_returned (.of_eq rfl))
  | heartbeat => exact says_of_keeps (keeps_returned (.of_eq rfl))
  | _ => exact says_of_keeps (keeps_emit rfl)

/-- Only a message of the current socket is passed on. -/
theorem says_handleMessage (parsed : Option WireMessage) :
    Says (fun event => s.isCurrentSocket id generation = true ∧ event.generation = generation) s
      (SourceCall.handleMessage s rt outcomes id generation parsed) := by
  unfold SourceCall.handleMessage
  split_ifs with hcurrent
  · cases parsed with
    | none => exact says_of_keeps (keeps_emit ⟨hcurrent, rfl⟩)
    | some message =>
      refine Says.mono (p := fun event => event.generation =
        generation) ?_ fun _ heq => ⟨hcurrent, heq⟩
      refine says_after (says_emitWireMessage message) (.of_eq ?_)
      unfold scheduleConnectionStability
      split_ifs <;> rfl
  · exact says_of_keeps (keeps_returned (.of_eq rfl))

/-- The event stems from a message of the current socket, or from an operation on it that has not
been acknowledged in time. -/
def Stems (s : GatewayWebSocketSource) (action : SourceAction) (event : SourceEvent) : Prop :=
  match action with
  | .message socket generation _ =>
    s.isCurrentSocket socket generation = true ∧ event.generation = generation
  | .timer handle => ∃ socket generation requestId,
      s.timers.scheduler.callback handle = some (.subscriptionAck socket generation requestId) ∧
        s.isCurrentOpenSocket socket generation = true ∧ event.generation = generation
  | _ => False

/-- What a timer calls emits nothing, other than that an operation has not been acknowledged in
time. -/
theorem says_goOff (callback : TimerCallback) :
    Says (fun event => ∃ socket generation requestId,
    callback = .subscriptionAck socket generation requestId ∧
      s.isCurrentOpenSocket socket generation = true ∧ event.generation = generation) s
      (SourceCall.goOff s outcomes callback) := by
  cases callback with
  | reconnect generation =>
    unfold SourceCall.goOff
    dsimp only
    split_ifs
    · exact says_of_keeps (keeps_returned (.of_eq rfl))
    · exact says_of_keeps (keeps_openSocket true)
  | ping socket generation =>
    unfold SourceCall.goOff
    dsimp only
    split_ifs
    · exact says_then says_ping fun t => rfl
    · exact says_of_keeps (keeps_returned (.of_eq rfl))
  | heartbeat socket generation =>
    unfold SourceCall.goOff
    dsimp only
    split_ifs
    · exact says_of_keeps keeps_handleSocketFailure
    · exact says_of_keeps (keeps_returned (.of_eq rfl))
  | connectionStability socket generation =>
    unfold SourceCall.goOff
    dsimp only
    split_ifs
    · exact says_of_keeps (keeps_after (keeps_setStatus _) (.of_eq rfl))
    · exact says_of_keeps (keeps_returned (.of_eq rfl))
  | subscriptionAck socket generation requestId =>
    -- Only this callback tells something before it moves the source.
    unfold SourceCall.goOff
    dsimp only
    split_ifs with hcurrent
    · cases (s.pendingSubscriptionOperations.get requestId).filter _ with
      | none => exact says_of_keeps (keeps_returned (.of_eq rfl))
      | some operation =>
        refine says_of_keeps (keeps_bind (keeps_emit ?_) fun t => keeps_handleSocketFailure)
        exact ⟨socket, generation, requestId, rfl, hcurrent, rfl⟩
    · exact says_of_keeps (keeps_returned (.of_eq rfl))
  | subscriptionRetry generation code =>
    unfold SourceCall.goOff
    dsimp only
    split_ifs
    · exact says_of_keeps (keeps_returned (.of_eq rfl))
    · exact says_bind (keeps_setStatus _) fun t => says_flushDesiredSymbols

/-- What a call emits stems from the current socket. -/
theorem method_said {action : SourceAction}
    (hcall : SourceCall.method rt s (action, outcomes) = some call) :
    Says (s.Stems action) s call := by
  cases action with
  | start =>
    obtain rfl := Option.some.inj hcall
    exact says_of_keeps keeps_start
  | stop =>
    obtain rfl := Option.some.inj hcall
    exact says_of_keeps keeps_stop
  | reconnectNow =>
    obtain rfl := Option.some.inj hcall
    exact says_of_keeps keeps_reconnectNow
  | replaceSymbols symbols =>
    obtain rfl := Option.some.inj hcall
    exact says_replaceSymbols symbols
  | ping =>
    obtain rfl := Option.some.inj hcall
    exact says_ping
  | opened id generation =>
    obtain rfl := Option.some.inj hcall
    exact says_handleOpen
  | message id generation parsed =>
    obtain rfl := Option.some.inj hcall
    exact says_handleMessage parsed
  | failed id generation =>
    obtain rfl := Option.some.inj hcall
    exact says_of_keeps keeps_handleSocketFailure
  | closed id generation =>
    obtain rfl := Option.some.inj hcall
    exact says_of_keeps keeps_handleSocketFailure
  | timer handle =>
    obtain ⟨callback, hcallback, rfl⟩ := Option.map_eq_some_iff.1 hcall
    -- What goes off has left its field before it is called.
    have hsaid := @says_goOff
      { s with timers := s.timers.goOff handle callback.kind } outcomes callback
    have hsaid := says_after (s := s) hsaid (.of_eq rfl)
    refine hsaid.mono ?_
    rintro event ⟨socket, generation, requestId, rfl, hcurrent, hgeneration⟩
    exact ⟨socket, generation, requestId, hcallback, hcurrent, hgeneration⟩
  | advance readyState =>
    obtain ⟨socket, hsocket, hadvance⟩ := Option.bind_eq_some_iff.1 hcall
    split_ifs at hadvance
    obtain rfl := Option.some.inj hadvance
    exact says_of_keeps (keeps_returned (.of_eq rfl))

/-! ## Timers of another socket or generation -/

/-- The timer has not been set for the current socket in the current generation, or the source does
not run. -/
def Stale (s : GatewayWebSocketSource) (callback : TimerCallback) : Prop :=
  s.running = false ∨ callback.generation ≠ s.generation ∨
    ∃ n, callback.socket = some n ∧ s.socket.map WebSocketLike.id ≠ some n

/-- Such a timer does nothing. -/
theorem goOff_of_stale {callback : TimerCallback} (h : s.Stale callback) :
    SourceCall.goOff s outcomes callback = .returned s := by
  have hshut {socket : ℕ} (hsocket : callback.socket = some socket) :
      ¬s.isCurrentOpenSocket socket callback.generation = true := by
    rw [isCurrentOpenSocket_iff]
    rintro ⟨hrunning, ⟨k, hk, rfl, -⟩, hgeneration⟩
    rcases h with hstopped | hother | ⟨n, hn, hne⟩
    · exact absurd (hrunning.symm.trans hstopped) (by decide)
    · exact hother hgeneration.symm
    · obtain rfl := Option.some.inj (hsocket.symm.trans hn)
      exact hne (by rw [hk]; rfl)
  have hlate (hsocket : callback.socket = none) : s.running = false ∨
      callback.generation ≠ s.generation := by
    rcases h with hstopped | hother | ⟨n, hn, -⟩
    · exact Or.inl hstopped
    · exact Or.inr hother
    · cases hsocket.symm.trans hn
  cases callback with
  | reconnect generation => exact if_pos (by simpa [TimerCallback.generation] using hlate rfl)
  | ping socket generation => exact if_neg (hshut rfl)
  | heartbeat socket generation => exact if_neg (hshut rfl)
  | connectionStability socket generation => exact if_neg (hshut rfl)
  | subscriptionAck socket generation requestId => exact if_neg (hshut rfl)
  | subscriptionRetry generation code =>
    exact if_pos (by simpa [TimerCallback.generation] using hlate rfl)

/-- When it goes off, all that happens is that it leaves its field. -/
theorem method_of_stale {handle : ℕ} {callback : TimerCallback}
    (hcallback : s.timers.scheduler.callback handle = some callback) (h : s.Stale callback) :
    SourceCall.method rt s (.timer handle, outcomes) =
      some (.returned { s with timers := s.timers.goOff handle callback.kind }) := by
  change (s.timers.scheduler.callback handle).map _ = _
  rw [hcallback]
  refine congrArg some ?_
  exact goOff_of_stale (s := { s with timers := s.timers.goOff handle callback.kind }) h

/-! ## A source that does not run -/

/-- A call of a source that does not run leaves it so, unless it starts it. -/
theorem method_stopped {action : SourceAction} (hstopped : s.running = false)
    (hstart : action ≠ .start)
    (hcall : SourceCall.method rt s (action, outcomes) = some call) :
    call.Keeps (·.running = false) := by
  have hcurrent (id generation : ℕ) : ¬s.isCurrentSocket id generation = true := fun h =>
    absurd ((isCurrentSocket_iff.1 h).1.symm.trans hstopped) (by decide)
  have hopen (id generation : ℕ) : ¬s.isCurrentOpenSocket id generation = true := fun h =>
    absurd ((isCurrentOpenSocket_iff.1 h).1.symm.trans hstopped) (by decide)
  have hsame : (Call.returned s : SourceCall).Keeps (·.running = false) := ⟨trivial, hstopped⟩
  -- Nothing but a start makes it run again: what needs a current socket returns at once.
  cases action with
  | start => exact absurd rfl hstart
  | stop =>
    obtain rfl := Option.some.inj hcall
    refine ⟨?_, SourceCall.run_stop (s := s) ▸ stop_running s⟩
    have hrun := SourceCall.run_stop (s := s) ▸ stop_running s
    unfold SourceCall.stop at hrun ⊢
    split_ifs at hrun ⊢
    · trivial
    · exact ⟨hrun, trivial⟩
  | reconnectNow =>
    obtain rfl := Option.some.inj hcall
    unfold SourceCall.reconnectNow
    rw [if_neg (by simp [hstopped])]
    exact hsame
  | replaceSymbols symbols =>
    obtain rfl := Option.some.inj hcall
    have hclear {t : GatewayWebSocketSource} (ht : t.running = false) :
        (SourceCall.clearSubscriptionError t).Keeps (·.running = false) := by
      unfold SourceCall.clearSubscriptionError
      split_ifs
      · exact ⟨⟨ht, trivial⟩, ht⟩
      · exact ⟨trivial, ht⟩
    unfold SourceCall.replaceSymbols
    dsimp only
    split_ifs
    · exact hsame
    · refine Call.Keeps.bind (hclear (by exact hstopped)) fun ht => ?_
      generalize (SourceCall.clearSubscriptionError _).run = t at ht ⊢
      split_ifs
      · exact hclear ht
      · unfold SourceCall.flushDesiredSymbols
        cases t.socket with
        | none => exact ⟨trivial, ht⟩
        | some socket =>
          have hshut : t.isCurrentOpenSocket socket.id t.generation = false := by
            rw [← Bool.not_eq_true, isCurrentOpenSocket_iff]
            exact fun h => absurd (h.1.symm.trans ht) (by decide)
          dsimp only
          rw [if_pos (by simp [hshut])]
          exact ⟨trivial, ht⟩
  | ping =>
    obtain rfl := Option.some.inj hcall
    unfold SourceCall.ping
    cases s.socket with
    | none => exact hsame
    | some socket =>
      dsimp only
      rw [if_neg (hopen _ _)]
      exact hsame
  | opened id generation =>
    obtain rfl := Option.some.inj hcall
    unfold SourceCall.handleOpen
    rw [if_neg (hcurrent _ _)]
    exact hsame
  | message id generation parsed =>
    obtain rfl := Option.some.inj hcall
    unfold SourceCall.handleMessage
    rw [if_neg (hcurrent _ _)]
    exact hsame
  | failed id generation =>
    obtain rfl := Option.some.inj hcall
    unfold SourceCall.handleSocketFailure
    rw [if_neg (hcurrent _ _)]
    exact hsame
  | closed id generation =>
    obtain rfl := Option.some.inj hcall
    unfold SourceCall.handleSocketFailure
    rw [if_neg (hcurrent _ _)]
    exact hsame
  | timer handle =>
    obtain ⟨callback, hcallback, -⟩ := Option.map_eq_some_iff.1 hcall
    rw [method_of_stale hcallback (Or.inl hstopped)] at hcall
    obtain rfl := Option.some.inj hcall
    exact ⟨trivial, hstopped⟩
  | advance readyState =>
    obtain ⟨socket, hsocket, hadvance⟩ := Option.bind_eq_some_iff.1 hcall
    split_ifs at hadvance
    obtain rfl := Option.some.inj hadvance
    exact ⟨trivial, hstopped⟩

/-- Once a source is called to stop, it emits nothing until it is called to start. -/
theorem silent_until_started {c c₁ c₂ : Calls GatewayWebSocketSource} (hwaiting : c.waiting = [])
    (hstop : callStep rt c (.call (.stop, outcomes)) = some c₁)
    (h : Path (callStep rt) (fun c a => Calls.Unnested c a ∧ ∀ b, a = .call b →
    b.1 ≠ .start) c₁ c₂) :
    emittedEvents c₂.state.output = emittedEvents c.state.output := by
  obtain ⟨s, waiting⟩ := c
  obtain rfl : waiting = [] := hwaiting
  obtain rfl := Option.some.inj hstop
  let Silent := fun t : GatewayWebSocketSource =>
    t.running = false ∧ emittedEvents t.output = emittedEvents s.output
  have hbegin : Calls.Kept Silent (Calls.proceed (SourceCall.stop s) []) := by
    have hputs := (keeps_stop (s := s) (p := fun _ => False)).mono fun t ht => ht.emittedEvents_eq
    have hrunning : (SourceCall.stop s).Keeps (·.running = false) := by
      have hrun := SourceCall.run_stop (s := s) ▸ stop_running s
      refine ⟨?_, hrun⟩
      unfold SourceCall.stop at hrun ⊢
      split_ifs at hrun ⊢
      · trivial
      · exact ⟨hrun, trivial⟩
    exact Calls.kept_proceed (hrunning.and hputs)
  have hmethod (t : GatewayWebSocketSource) (b : SourceAction × Outcomes)
    (call : SourceCall) (hb : b.1 ≠ .start)
      (ht : Silent t) (hcall : SourceCall.method rt t b = some call) : call.Keeps Silent := by
    -- Without a current socket nothing can stem from it.
    refine (method_stopped ht.1 hb hcall).and ((method_said hcall).keeps.mono fun u hu => ?_)
    refine (hu.mono ?_).emittedEvents_eq.trans ht.2
    intro event hstems
    obtain ⟨action, outcomes⟩ := b
    cases action with
    | message socket generation parsed =>
      exact absurd ((isCurrentSocket_iff.1 hstems.1).1.symm.trans ht.1) (by decide)
    | timer handle =>
      obtain ⟨socket, generation, requestId, -, hcurrent, -⟩ := hstems
      exact absurd ((isCurrentOpenSocket_iff.1 hcurrent).1.symm.trans ht.1) (by decide)
    | _ => exact hstems
  exact (hbegin.path hmethod h).1.2

/-! ## Runs -/

/-- In every run a source is consistent, and its output is recorded, whenever its listeners have the
control or no call is under way. -/
theorem kept_of_unnested {options : SourceOptions} {c : Calls GatewayWebSocketSource}
    (hnew : new options = .ok s₀)
    (h : Path (callStep rt) Calls.Unnested ⟨s₀, []⟩ c) : Consistent c.state ∧ c.state.Logged := by
  refine (Calls.kept_of_path (p := fun s => Consistent s ∧ s.Logged) (fun s a call hs hcall => ?_)
    ⟨consistent_new hnew, logged_new hnew⟩ h).1
  exact method_keeps hs.1 (fun t hcomes => ⟨hcomes.consistent hs.1, hcomes.logged hs.1 hs.2⟩) hcall

/-- In every run whose listeners do not call the source: an event comes with the generation of the
status before it, of a source that has not been stopped; the generations of events and statuses do
not decrease; no socket is sent to or closed after it has been closed or a later one has been used;
at most one socket is current, and no two timers of a kind are armed. What a call emits stems from a
message of the current socket, or from an operation on it that has not been acknowledged in time. A
source that is stopped emits nothing until it is started. A timer that has been set for another
socket or generation only leaves its field. -/
theorem fenced_run (rt : Browser) (options : SourceOptions) (s₀ : GatewayWebSocketSource)
    (c : Calls GatewayWebSocketSource) (hnew : new options = .ok s₀)
    (h : Path (callStep rt) Calls.Unnested ⟨s₀, []⟩ c) :
    Fenced c.state.output ∧ lastStatus c.state.output = c.state.status ∧
    (c.state.output.filterMap SourceOutput.stamp).Pairwise (· ≥ ·) ∧
    (∀ m n g g', c.state.isCurrentSocket m g = true → c.state.isCurrentSocket n g' = true →
      m = n ∧ g = g' ∧ g = c.state.status.generation) ∧
    (∀ m n x y, c.state.timers.scheduler.callback m = some x →
    c.state.timers.scheduler.callback n = some y →
      x.kind = y.kind → m = n) ∧
    (c.waiting = [] →
      (∀ action outcomes call, SourceCall.method rt c.state (action, outcomes) = some call →
        call.Keeps fun t => ∃ output, t.output = output ++ c.state.output ∧
          ∀ event, .emitted event ∈ output → c.state.Stems action event) ∧
      (∀ outcomes c₁ c₂, callStep rt c (.call (.stop, outcomes)) = some c₁ →
        Path (callStep rt) (fun c a => Calls.Unnested c a ∧ ∀ b, a = .call b → b.1 ≠ .start) c₁ c₂ →
          emittedEvents c₂.state.output = emittedEvents c.state.output) ∧
      ∀ handle callback outcomes, c.state.timers.scheduler.callback handle = some callback →
        c.state.Stale callback → SourceCall.method rt c.state (.timer handle, outcomes) =
          some
          (.returned { c.state with timers := c.state.timers.goOff handle callback.kind })) := by
  -- The state is consistent and its log is fenced, after each call.
  obtain ⟨hs, hlogged⟩ := kept_of_unnested hnew h
  refine ⟨hlogged.fenced, hlogged.last, hlogged.fenced.pairwise, fun m n g g' hm hn => ?_,
    fun m n x y => hs.timers.unique, fun hwaiting => ⟨fun action outcomes call hcall =>
      (method_said hcall).keeps.mono fun t ht => ht.emitted, fun outcomes c₁ c₂ =>
        silent_until_started hwaiting, fun handle callback outcomes => method_of_stale⟩⟩
  obtain ⟨-, ⟨k, hk, rfl⟩, rfl⟩ := isCurrentSocket_iff.1 hm
  obtain ⟨-, ⟨k', hk', rfl⟩, rfl⟩ := isCurrentSocket_iff.1 hn
  obtain rfl := Option.some.inj (hk.symm.trans hk')
  exact ⟨rfl, rfl, hs.generation.symm⟩

/-- The time of a message. -/
def newYear : IsoString := ⟨js "2026-01-01T00:00:00Z", by decide +kernel⟩

/-- The operation of a source is acknowledged, but a listener throws, and then it is stopped. -/
def acknowledgedCalls : List (CallLabel (SourceAction × Outcomes)) :=
  requestingCalls ++ [.call (.message 0 1 (some ⟨newYear,
    some (js "subscribe-1-1"), .ack .subscribe [js "A"] none⟩), fairOutcomes), .throws,
    .call (.stop, fairOutcomes),
    .returns]

/-- The acknowledgement has been passed on with the generation of its socket. -/
theorem fenced_run_acknowledged : ∃ c : Calls GatewayWebSocketSource,
    emittedEvents c.state.output =
    [.subscriptionAck .subscribe [js "A"] 1 (some (js "subscribe-1-1"))] ∧
      Fenced c.state.output := by
  obtain ⟨c, hpath, hevents⟩ := Path.exists_of_exec (callStep asciiBrowser) Calls.Unnested
    ⟨defaultSource, []⟩ acknowledgedCalls (fun c => emittedEvents c.state.output =
      [.subscriptionAck .subscribe [js "A"] 1 (some (js "subscribe-1-1"))]) (by decide +kernel)
  exact ⟨c, hevents, (fenced_run asciiBrowser {} defaultSource c new_default hpath).1⟩

end GatewayWebSocketSource

end MarketDataGateway.MarketData

import MarketDataGateway.MarketData.SourceMoves
import MarketDataGateway.MarketData.SubscriptionManager

/-!
# What a source tells, one after the other

`Speaks` goes through a call of a source from one thing that it tells to the next: each is an event
or a status, and in between nothing changes of what a subscription manager goes by (`Unchanged`).
An acknowledgement or an error that answers the pending operation, other symbols, and a new socket
do change something. What comes before and after them is gone through here (`speaks_goOff` and
others), and they themselves where they are heard.
-/

namespace MarketDataGateway.MarketData.GatewayWebSocketSource

open Lib

variable {s t u : GatewayWebSocketSource} {call : SourceCall} {outcomes : Outcomes}
  {code : JsString} {status : SourceStatus} {event : SourceEvent}

/-- Nothing has changed that is desired, confirmed or pending, unless the socket is gone. -/
structure Unchanged (s t : GatewayWebSocketSource) : Prop where
  desired : t.desiredSymbols = s.desiredSymbols
  output : ∀ o ∈ s.output, o ∈ t.output
  confirmed : t.socket ≠ none → s.socket ≠ none ∧ t.confirmedSymbols = s.confirmedSymbols
  pending : t.socket ≠ none → ∀ e ∈ s.pendingSubscriptionOperations.entries,
    e ∈ t.pendingSubscriptionOperations.entries
  generation : s.generation ≤ t.generation ∧ (t.socket ≠ none → t.generation = s.generation)

/-- What is as before is unchanged. -/
theorem Unchanged.of_eq (hdesired : t.desiredSymbols = s.desiredSymbols)
    (houtput : ∀ o ∈ s.output, o ∈ t.output) (hsocket : t.socket = s.socket)
    (hconfirmed : t.confirmedSymbols = s.confirmedSymbols)
    (hpending : t.pendingSubscriptionOperations = s.pendingSubscriptionOperations)
    (hgeneration : t.generation = s.generation) : Unchanged s t where
  desired := hdesired
  output := houtput
  confirmed h := ⟨hsocket ▸ h, hconfirmed⟩
  pending _ e he := by rw [hpending]; exact he
  generation := ⟨hgeneration.ge, fun _ => hgeneration⟩

/-- Nothing has changed. -/
theorem Unchanged.refl (s : GatewayWebSocketSource) : Unchanged s s :=
  .of_eq rfl (fun _ h => h) rfl rfl rfl rfl

/-- What stays unchanged twice is unchanged. -/
theorem Unchanged.trans (h : Unchanged s t) (h' : Unchanged t u) : Unchanged s u where
  desired := h'.desired.trans h.desired
  output o ho := h'.output o (h.output o ho)
  confirmed hsocket := by
    obtain ⟨hbetween, hsame⟩ := h'.confirmed hsocket
    obtain ⟨hbefore, hsame'⟩ := h.confirmed hbetween
    exact ⟨hbefore, hsame.trans hsame'⟩
  pending hsocket e he := h'.pending hsocket e (h.pending (h'.confirmed hsocket).1 e he)
  generation := ⟨h.generation.1.trans h'.generation.1, fun hsocket =>
    (h'.generation.2 hsocket).trans (h.generation.2 (h'.confirmed hsocket).1)⟩

/-- A source that has lost its socket counts as unchanged. -/
theorem Unchanged.of_none (hdesired : t.desiredSymbols = s.desiredSymbols)
    (houtput : ∀ o ∈ s.output, o ∈ t.output) (hsocket : t.socket = none)
    (hgeneration : s.generation ≤ t.generation) : Unchanged s t where
  desired := hdesired
  output := houtput
  confirmed h := absurd hsocket h
  pending h := absurd hsocket h
  generation := ⟨hgeneration, fun h => absurd hsocket h⟩

/-- A source that disconnects loses its socket. -/
theorem Unchanged.of_disconnects (h : s.Disconnects t) : Unchanged s t := by
  refine .of_none h.desired (fun o ho => ?_) h.noSocket h.generation.ge
  rcases h.output with heq | ⟨socket, code, reason, -, heq⟩
  · exact heq ▸ ho
  · exact heq ▸ List.mem_cons_of_mem _ ho

/-- The source tells a status, or an event that is no acknowledgement. -/
inductive Utters (s t : GatewayWebSocketSource) : Prop
  /-- A status is told. -/
  | reports (before : List SourceOutput) (h : Unchanged s t)
      (houtput : t.output = .status t.status :: before)
  /-- An event is told. -/
  | emits (event : SourceEvent) (before : List SourceOutput) (h : Unchanged s t)
      (houtput : t.output = .emitted event :: before) (hstatus : t.status = s.status)
      (hplain : ∀ action symbols generation requestId,
        event ≠ .subscriptionAck action symbols generation requestId)

/-- Nothing but statuses and plain events comes from the call, from the state on. -/
def Speaks : GatewayWebSocketSource → SourceCall → Prop
  | s, .returned t => Unchanged s t ∧ t.status = s.status
  | s, .telling t rest => Utters s t ∧ Speaks t (rest t)

/-- What says something after nothing has changed says it from before. -/
theorem Utters.of_unchanged (h : Unchanged s t) (hstatus : t.status = s.status)
    (hutters : Utters t u) : Utters s u := by
  cases hutters with
  | reports before h' houtput => exact .reports before (h.trans h') houtput
  | emits event before h' houtput hsame hplain =>
    exact .emits event before (h.trans h') houtput (hsame.trans hstatus) hplain

/-- A call that speaks after nothing has changed speaks from before. -/
theorem Speaks.of_unchanged (h : Unchanged s t) (hstatus : t.status = s.status)
    (hspeaks : Speaks t call) : Speaks s call := by
  cases call with
  | returned u => exact ⟨h.trans hspeaks.1, hspeaks.2.trans hstatus⟩
  | telling u rest => exact ⟨hspeaks.1.of_unchanged h hstatus, hspeaks.2⟩

/-- A call speaks with what follows it. -/
theorem Speaks.bind {next : GatewayWebSocketSource → SourceCall} (h : Speaks s call)
    (hnext : Speaks call.run (next call.run)) : Speaks s (call.bind next) := by
  induction call generalizing s with
  | returned t => exact hnext.of_unchanged h.1 h.2
  | telling t rest ih => exact ⟨h.1, ih t h.2 hnext⟩

/-- A call that returns at once. -/
theorem speaks_returned (h : Unchanged s t) (hstatus : t.status = s.status) :
    Speaks s (.returned t) := ⟨h, hstatus⟩

/-- What has been put out stays. -/
theorem mem_cons_output {o o' : SourceOutput} (h : o ∈ s.output) : o ∈ o' :: s.output :=
  List.mem_cons_of_mem _ h

/-- A status is set. -/
theorem speaks_setStatus (h : Unchanged s t) (status : SourceStatus) :
    Speaks s (SourceCall.setStatus t status) := by
  have hset : Unchanged t (t.setStatus status) :=
    .of_eq rfl (fun _ => mem_cons_output) rfl rfl rfl rfl
  exact ⟨.reports t.output (h.trans hset) rfl, .refl _, rfl⟩

/-- A plain event is emitted. -/
theorem speaks_emit (event : SourceEvent) (hplain : ∀ action symbols generation requestId,
    event ≠ .subscriptionAck action symbols generation requestId) :
    Speaks s (SourceCall.emit s event) :=
  ⟨.emits event s.output (.of_eq rfl (fun _ => mem_cons_output) rfl rfl rfl rfl) rfl rfl hplain,
    .refl _, rfl⟩

/-- The subscription error is cleared. -/
theorem speaks_clearSubscriptionError : Speaks s (SourceCall.clearSubscriptionError s) := by
  unfold SourceCall.clearSubscriptionError
  split_ifs
  · exact speaks_setStatus (.refl s) _
  · exact speaks_returned (.refl s) rfl

/-- A reconnect is scheduled. -/
theorem speaks_scheduleReconnect (generation : ℕ) :
    Speaks s (SourceCall.scheduleReconnect s outcomes generation code) := by
  unfold SourceCall.scheduleReconnect
  split_ifs
  · exact speaks_returned (.refl s) rfl
  · have hattempt : Unchanged s { s with reconnectAttempt := s.reconnectAttempt + 1 } :=
      .of_eq rfl (fun _ h => h) rfl rfl rfl rfl
    exact (speaks_setStatus hattempt _).bind
      (speaks_returned (.of_eq rfl (fun _ h => h) rfl rfl rfl rfl) rfl)

/-- A socket fails. -/
theorem speaks_handleSocketFailure (socket generation : ℕ) :
    Speaks s (SourceCall.handleSocketFailure s outcomes socket generation code) := by
  unfold SourceCall.handleSocketFailure
  split_ifs
  · show Speaks s (SourceCall.scheduleReconnect _ outcomes generation code)
    refine Speaks.of_unchanged ?_ ?_ (speaks_scheduleReconnect generation)
    · exact .of_none rfl (fun _ => mem_cons_output) rfl le_rfl
    · rfl
  · exact speaks_returned (.refl s) rfl

/-- A command is sent. -/
theorem speaks_sendCommand (socket generation : ℕ) (command : ClientCommand) :
    Speaks s (SourceCall.sendCommand s outcomes socket generation command) := by
  unfold SourceCall.sendCommand
  split_ifs
  · exact speaks_returned (.of_eq rfl (fun _ => mem_cons_output) rfl rfl rfl rfl) rfl
  · exact speaks_handleSocketFailure socket generation
  · exact speaks_returned (.refl s) rfl

/-- The desired symbols are flushed. -/
theorem speaks_flushDesiredSymbols : Speaks s (SourceCall.flushDesiredSymbols s outcomes) := by
  unfold SourceCall.flushDesiredSymbols
  cases s.socket with
  | none => exact speaks_returned (.refl s) rfl
  | some socket =>
    dsimp only
    split_ifs with _ hbusy
    · exact speaks_returned (.refl s) rfl
    · exact speaks_returned (.refl s) rfl
    all_goals
      try exact speaks_clearSubscriptionError
    -- Nothing has been pending before the operation that is sent.
    all_goals
      rw [not_or, not_not] at hbusy
      have hadded (operation : PendingSubscriptionOperation) :
          Unchanged s (s.addOperation socket.id operation) :=
        ⟨rfl, fun _ h => h, fun h => ⟨h, rfl⟩, fun _ e he => by
          rw [hbusy.1] at he
          exact absurd he List.not_mem_nil, le_rfl, fun _ => rfl⟩
      exact (speaks_sendCommand _ _ _).of_unchanged (hadded _) rfl

/-- A retry is scheduled. -/
theorem speaks_scheduleSubscriptionRetry (generation : ℕ) :
    Speaks s (SourceCall.scheduleSubscriptionRetry s outcomes generation code) := by
  unfold SourceCall.scheduleSubscriptionRetry
  split_ifs
  · exact speaks_returned (.refl s) rfl
  · exact speaks_clearSubscriptionError
  · exact speaks_returned (.refl s) rfl
  · have hattempt :
        Unchanged s { s with subscriptionRetryAttempt := s.subscriptionRetryAttempt + 1 } :=
      .of_eq rfl (fun _ h => h) rfl rfl rfl rfl
    exact (speaks_setStatus hattempt _).bind
      (speaks_returned (.of_eq rfl (fun _ h => h) rfl rfl rfl rfl) rfl)

/-- Other symbols are desired, and flushed. -/
theorem speaks_replaceSymbols {rt : Browser} (symbols : List JsString) :
    Speaks { s with desiredSymbols := rt.normalizeSymbols symbols }
      (SourceCall.replaceSymbols s rt outcomes symbols) := by
  unfold SourceCall.replaceSymbols
  dsimp only
  split_ifs with hsame
  · exact speaks_returned ⟨hsame, fun _ ho => ho, fun h => ⟨h, rfl⟩, fun _ _ he => he,
      le_rfl, fun _ => rfl⟩ rfl
  · refine Speaks.of_unchanged (t := { { s with
      desiredSymbols := rt.normalizeSymbols symbols }.clearTimer .subscriptionRetry with
        subscriptionRetryAttempt := 0 }) ?_ ?_ ?_
    · exact .of_eq rfl (fun _ ho => ho) rfl rfl rfl rfl
    · rfl
    · refine speaks_clearSubscriptionError.bind ?_
      split_ifs
      · refine Speaks.of_unchanged ?_ ?_ speaks_clearSubscriptionError
        · exact .of_eq rfl (fun _ ho => ho) rfl rfl rfl rfl
        · rfl
      · exact speaks_flushDesiredSymbols

/-! ## Callbacks -/

/-- A ping is sent. -/
theorem speaks_ping : Speaks s (SourceCall.ping s outcomes) := by
  unfold SourceCall.ping
  cases s.socket with
  | none => exact speaks_returned (.refl s) rfl
  | some socket =>
    dsimp only
    split_ifs
    · have hcount : Unchanged s { s with requestSequence := s.requestSequence + 1 } :=
        .of_eq rfl (fun _ h => h) rfl rfl rfl rfl
      exact (speaks_sendCommand _ _ _).of_unchanged hcount rfl
    · exact speaks_returned (.refl s) rfl

/-- A socket opens. -/
theorem speaks_handleOpen (socket generation : ℕ) :
    Speaks s (SourceCall.handleOpen s outcomes socket generation) := by
  unfold SourceCall.handleOpen
  split_ifs
  · refine (speaks_setStatus (.refl s) _).bind (speaks_flushDesiredSymbols.bind ?_)
    exact speaks_returned (.of_eq rfl (fun _ h => h) rfl rfl rfl rfl) rfl
  · exact speaks_returned (.refl s) rfl

/-- A timer goes off that is not for a reconnect. -/
theorem speaks_goOff {callback : TimerCallback} (hkind : callback.kind ≠ .reconnect) :
    Speaks s (SourceCall.goOff s outcomes callback) := by
  cases callback with
  | reconnect => exact absurd rfl hkind
  | ping socket generation =>
    unfold SourceCall.goOff
    dsimp only
    split_ifs
    · exact speaks_ping.bind (speaks_returned (.of_eq rfl (fun _ h => h) rfl rfl rfl rfl) rfl)
    · exact speaks_returned (.refl s) rfl
  | heartbeat socket generation =>
    unfold SourceCall.goOff
    dsimp only
    split_ifs
    · exact speaks_handleSocketFailure socket generation
    · exact speaks_returned (.refl s) rfl
  | connectionStability socket generation =>
    unfold SourceCall.goOff
    dsimp only
    split_ifs
    · have hsteady : Unchanged s { s with reconnectAttempt := 0 } :=
        .of_eq rfl (fun _ h => h) rfl rfl rfl rfl
      exact speaks_setStatus hsteady _
    · exact speaks_returned (.refl s) rfl
  | subscriptionAck socket generation requestId =>
    unfold SourceCall.goOff
    dsimp only
    split_ifs
    · cases (s.pendingSubscriptionOperations.get requestId).filter _ with
      | none => exact speaks_returned (.refl s) rfl
      | some operation =>
        -- The notice is told before the socket is given up.
        refine (speaks_emit _ fun _ _ _ _ h => SourceEvent.noConfusion h).bind ?_
        exact speaks_handleSocketFailure socket generation
    · exact speaks_returned (.refl s) rfl
  | subscriptionRetry generation code =>
    unfold SourceCall.goOff
    dsimp only
    split_ifs
    · exact speaks_returned (.refl s) rfl
    · exact (speaks_setStatus (.refl s) _).bind speaks_flushDesiredSymbols

/-- The source stops. -/
theorem speaks_stop : Speaks s (SourceCall.stop s) := by
  unfold SourceCall.stop
  split_ifs
  · exact speaks_returned (.refl s) rfl
  · obtain ⟨output, heq, houtput⟩ := dropSocket_eq
      { s with running := false, generation := s.generation + 1 }.clearTimers 1000 "client stopped"
    dsimp only
    rw [heq]
    refine speaks_setStatus ?_ _
    refine .of_none ?_ (fun o ho => ?_) ?_ (Nat.le_succ s.generation)
    · rfl
    · rcases houtput with rfl | ⟨socket, code, reason, -, rfl⟩
      · exact ho
      · exact List.mem_cons_of_mem _ ho
    · rfl

/-! ## Whatever happens -/

/-- The operation that a message acknowledges. -/
def acknowledgedBy (s : GatewayWebSocketSource) :
    SourceAction → Option PendingSubscriptionOperation
  | .message socket generation (some message) =>
    if s.isCurrentSocket socket generation then
      match message.data with
      | .ack action _ _ =>
        (message.requestId.bind s.pendingSubscriptionOperations.get).filter fun operation =>
          operation.generation = generation && operation.action = action
      | _ => none
    else none
  | _ => none

/-- The operation that a message rejects. -/
def rejectedBy (s : GatewayWebSocketSource) :
    SourceAction → Option PendingSubscriptionOperation
  | .message socket generation (some message) =>
    if s.isCurrentSocket socket generation then
      match message.data with
      | .error _ _ => message.requestId.bind s.pendingSubscriptionOperations.get
      | _ => none
    else none
  | _ => none

/-- The event that says that an operation is acknowledged. -/
def acknowledgement (s : GatewayWebSocketSource) (operation : PendingSubscriptionOperation) :
    SourceEvent :=
  .subscriptionAck operation.action operation.symbols s.generation (some operation.requestId)

/-- What comes of an acknowledgement of the operation. -/
def acknowledge (s : GatewayWebSocketSource) (outcomes : Outcomes)
    (operation : PendingSubscriptionOperation) : SourceCall :=
  (SourceCall.clearSubscriptionError (s.accept operation)).bind fun t =>
  (SourceCall.emit t (s.acknowledgement operation)).bind fun t =>
  SourceCall.flushDesiredSymbols t outcomes

/-- What an action comes to: the source speaks, a socket is opened, or an operation is answered. -/
inductive Acts (s : GatewayWebSocketSource) (outcomes : Outcomes) (action : SourceAction) :
    SourceCall → Prop
  /-- Nothing is answered, and no socket is opened. -/
  | speaks {call : SourceCall} (h : Speaks s call) : Acts s outcomes action call
  /-- A source without a socket opens one. -/
  | opens {t : GatewayWebSocketSource} (isReconnect : Bool) (h : s.Disconnects t)
      (hstatus : t.status = s.status) :
      Acts s outcomes action (SourceCall.openSocket t outcomes isReconnect)
  /-- The pending operation is acknowledged. -/
  | acknowledges (timers : TimerFields TimerKind TimerCallback)
      {socket : WebSocketLike} {operation : PendingSubscriptionOperation}
      (h : operation ∈ s.acknowledgedBy action) (hs : Consistent { s with timers := timers })
      (hawaits : Awaits { s with timers := timers } socket operation)
      (haccepted : Consistent (accept { s with timers := timers } operation)) :
      Acts s outcomes action (acknowledge { s with timers := timers } outcomes operation)
  /-- The pending operation is rejected. -/
  | rejects (pending : InsertionMap JsString PendingSubscriptionOperation) {call : SourceCall}
      {operation : PendingSubscriptionOperation} (h : operation ∈ s.rejectedBy action)
      (hspeaks : Speaks { s with pendingSubscriptionOperations := pending } call) :
      Acts s outcomes action call

/-- Other timers do not matter to what a source says. -/
theorem Speaks.of_timers {timers : TimerFields TimerKind TimerCallback}
    (h : Speaks { s with timers := timers } call) : Speaks s call :=
  Speaks.of_unchanged (t := { s with timers := timers })
    (.of_eq rfl (fun _ ho => ho) rfl rfl rfl rfl) rfl h

/-- An event that is no acknowledgement is emitted, whatever follows. -/
theorem speaks_notice {level : NoticeLevel} {message : JsString} {generation : ℕ}
    {requestId : Option JsString} {next : GatewayWebSocketSource → SourceCall}
    (hnext : ∀ t, Speaks t (next t)) :
    Speaks s ((SourceCall.emit s (.notice level code message generation requestId)).bind next) :=
  (speaks_emit _ fun _ _ _ _ heq => SourceEvent.noConfusion heq).bind (hnext _)

/-- An error answers the pending operation, or nothing. -/
theorem acts_handleGatewayError {rt : Browser} {action : SourceAction} (rawCode : JsString)
    (requestId : Option JsString) (generation : ℕ)
    (h : ∀ operation ∈ requestId.bind s.pendingSubscriptionOperations.get,
      operation ∈ s.rejectedBy action) {timers : TimerFields TimerKind TimerCallback} :
    Acts s outcomes action (SourceCall.handleGatewayError { s with timers := timers } rt outcomes
      rawCode requestId generation) := by
  unfold SourceCall.handleGatewayError
  dsimp only
  cases hoperation : requestId.bind s.pendingSubscriptionOperations.get with
  -- An error for no operation is a notice and a status.
  | none =>
    refine .speaks (Speaks.of_timers (speaks_notice fun t => ?_))
    exact speaks_setStatus (.refl t) _
  | some operation =>
    -- After the notice, the operation is tried again or the status tells of its failure.
    have hcall (t : GatewayWebSocketSource) : Speaks t
        (if isTransientSubscriptionError (rt.sanitizeGatewayCode rawCode) then
          SourceCall.scheduleSubscriptionRetry t outcomes generation
            (js "subscription_" ++ rt.sanitizeGatewayCode rawCode)
        else SourceCall.setStatus t ⟨t.status.state, generation, t.status.reconnectAttempt, none,
          some (js "subscription_" ++ rt.sanitizeGatewayCode rawCode)⟩) := by
      split_ifs
      · exact speaks_scheduleSubscriptionRetry generation
      · exact speaks_setStatus (.refl t) _
    dsimp only
    by_cases hgeneration : operation.generation = generation
    · rw [if_pos hgeneration]
      exact .rejects (s.pendingSubscriptionOperations.delete operation.requestId)
        (h operation hoperation) (Speaks.of_timers (speaks_notice hcall))
    · rw [if_neg hgeneration]
      exact .rejects s.pendingSubscriptionOperations (h operation hoperation)
        (Speaks.of_timers (speaks_notice hcall))

/-- A message is told, or answers the pending operation. -/
theorem acts_handleMessage {rt : Browser} (hs : Consistent s) (socket generation : ℕ)
    (parsed : Option WireMessage) :
    Acts s outcomes (.message socket generation parsed)
      (SourceCall.handleMessage s rt outcomes socket generation parsed) := by
  have hplain {message : Option WireMessage} (event : SourceEvent)
      {timers : TimerFields TimerKind TimerCallback}
      (hevent : ∀ action symbols generation requestId,
        event ≠ .subscriptionAck action symbols generation requestId) :
      Acts s outcomes (.message socket generation message)
        (SourceCall.emit { s with timers := timers } event) :=
    .speaks (Speaks.of_timers (speaks_emit event hevent))
  unfold SourceCall.handleMessage
  split_ifs with hcurrent
  · cases parsed with
    | none => exact .speaks (speaks_emit _ fun _ _ _ _ heq => SourceEvent.noConfusion heq)
    | some message =>
      obtain ⟨hrunning, ⟨k, hk, rfl⟩, rfl⟩ := isCurrentSocket_iff.1 hcurrent
      -- The two watches that are set first change nothing but the timers.
      obtain ⟨timers, htimers⟩ : ∃ timers,
          (s.scheduleHeartbeatTimeout k.id s.generation).scheduleConnectionStability
            k.id s.generation = { s with timers := timers } := by
        unfold scheduleConnectionStability
        split_ifs <;> exact ⟨_, rfl⟩
      obtain ⟨hmoves, -, -⟩ := @watches_moves s k false hs hrunning hk
      dsimp only
      rw [htimers] at hmoves ⊢
      unfold SourceCall.emitWireMessage
      cases hdata : message.data with
      | ack action symbols transitions =>
        unfold SourceCall.handleSubscriptionAck
        dsimp only
        cases hoperation : (message.requestId.bind s.pendingSubscriptionOperations.get).filter
            fun operation => operation.generation = s.generation && operation.action = action with
        | none => exact hplain _ fun _ _ _ _ heq => SourceEvent.noConfusion heq
        | some operation =>
          have hconsistent := Moves.consistent hmoves hs
          obtain ⟨hget, hmatches⟩ := Option.filter_eq_some_iff.1 hoperation
          obtain ⟨requestId, hid, hget⟩ := Option.bind_eq_some_iff.1 hget
          obtain ⟨hgeneration, haction⟩ := Bool.and_eq_true_iff.1 hmatches
          obtain ⟨socket, hawaits, rfl⟩ := hconsistent.awaits_of_get hget
          -- The operation that is acknowledged is the pending one.
          have hanswers : Answers message { s with timers := timers }
              (accept { s with timers := timers } operation) :=
            .accepted symbols transitions hawaits hid (by rw [hdata, of_decide_eq_true haction])
          obtain ⟨haccepted, -⟩ := hanswers.consistent hconsistent
          refine .acknowledges timers ?_ hconsistent hawaits haccepted
          dsimp only [acknowledgedBy]
          rw [if_pos hcurrent, hdata]
          exact hoperation
      | error code text =>
        refine acts_handleGatewayError code message.requestId s.generation
          fun operation hrejects => ?_
        dsimp only [rejectedBy]
        rw [if_pos hcurrent, hdata]
        exact hrejects
      | connected => exact .speaks (Speaks.of_timers (speaks_returned (.refl _) rfl))
      | heartbeat => exact .speaks (Speaks.of_timers (speaks_returned (.refl _) rfl))
      | _ => exact hplain _ fun _ _ _ _ heq => SourceEvent.noConfusion heq
  · exact .speaks (speaks_returned (.refl s) rfl)

/-- That is all that happens to a source, but that other symbols are desired of it. -/
theorem method_acts {rt : Browser} {action : SourceAction} (hs : Consistent s)
    (hreplace : ∀ symbols, action ≠ .replaceSymbols symbols)
    (hcall : SourceCall.method rt s (action, outcomes) = some call) :
    Acts s outcomes action call := by
  have hreturned : Acts s outcomes action (.returned s) := .speaks (speaks_returned (.refl s) rfl)
  cases action with
  | start =>
    obtain rfl := Option.some.inj hcall
    unfold SourceCall.start
    split_ifs with hrunning
    · exact hreturned
    · exact .opens false (hs.disconnects_of_start (Bool.not_eq_true _ ▸ hrunning)) rfl
  | stop =>
    obtain rfl := Option.some.inj hcall
    exact .speaks speaks_stop
  | reconnectNow =>
    obtain rfl := Option.some.inj hcall
    unfold SourceCall.reconnectNow
    split_ifs with hrunning
    · refine .opens true (disconnects_of_reconnectNow hrunning) ?_
      obtain ⟨output, heq, -⟩ := dropSocket_eq
        { s.clearTimers with reconnectAttempt := 0 } 1012 "client reconnect"
      rw [heq]
      rfl
    · exact hreturned
  | replaceSymbols symbols => exact absurd rfl (hreplace symbols)
  | ping =>
    obtain rfl := Option.some.inj hcall
    exact .speaks speaks_ping
  | opened socket generation =>
    obtain rfl := Option.some.inj hcall
    exact .speaks (speaks_handleOpen socket generation)
  | message socket generation parsed =>
    obtain rfl := Option.some.inj hcall
    exact acts_handleMessage hs socket generation parsed
  | failed socket generation =>
    obtain rfl := Option.some.inj hcall
    exact .speaks (speaks_handleSocketFailure socket generation)
  | closed socket generation =>
    obtain rfl := Option.some.inj hcall
    exact .speaks (speaks_handleSocketFailure socket generation)
  | timer handle =>
    obtain ⟨callback, hcallback, rfl⟩ := Option.map_eq_some_iff.1 hcall
    by_cases hkind : callback.kind = .reconnect
    · -- The timer of a reconnect is armed only while the source runs.
      have harmed := hs.timers.armed_of_callback hcallback
      rw [hkind] at harmed
      obtain ⟨hruns, -, rfl⟩ := hs.reconnect callback harmed
      unfold SourceCall.goOff
      dsimp only
      rw [if_neg (by simp [hruns])]
      exact .opens true (hs.disconnects_of_reconnect hcallback) rfl
    · exact .speaks (Speaks.of_timers (speaks_goOff hkind))
  | advance readyState =>
    -- The socket goes over to another state by itself.
    obtain ⟨socket, hsocket, hadvance⟩ := Option.bind_eq_some_iff.1 hcall
    split_ifs at hadvance
    obtain rfl := Option.some.inj hadvance
    refine .speaks (speaks_returned ⟨rfl, fun _ ho => ho, fun _ => ⟨?_, rfl⟩, fun _ _ he => he,
      le_rfl, fun _ => rfl⟩ rfl)
    rw [hsocket]
    exact Option.some_ne_none socket

/-! ## Statuses only -/

/-- Wherever the call tells something, that is a status. -/
def Reports (call : SourceCall) : Prop :=
  call.Tells fun t => ∃ before, t.output = .status t.status :: before

/-- What is set is a status. -/
theorem reports_setStatus (status : SourceStatus) : Reports (SourceCall.setStatus s status) :=
  ⟨⟨s.output, rfl⟩, trivial⟩

/-- Nothing else is told as the subscription error is cleared. -/
theorem reports_clearSubscriptionError : Reports (SourceCall.clearSubscriptionError s) := by
  unfold SourceCall.clearSubscriptionError
  split_ifs
  · exact reports_setStatus _
  · trivial

/-- Nothing else is told as a reconnect is scheduled. -/
theorem reports_scheduleReconnect (generation : ℕ) :
    Reports (SourceCall.scheduleReconnect s outcomes generation code) := by
  unfold SourceCall.scheduleReconnect
  split_ifs
  · trivial
  · exact Call.tells_bind.2 ⟨reports_setStatus _, trivial⟩

/-- Nothing else is told as a command is sent. -/
theorem reports_sendCommand (socket generation : ℕ) (command : ClientCommand) :
    Reports (SourceCall.sendCommand s outcomes socket generation command) := by
  unfold SourceCall.sendCommand SourceCall.handleSocketFailure
  split_ifs
  · trivial
  · exact reports_scheduleReconnect generation
  · trivial
  · trivial

/-- Nothing else is told as the desired symbols are flushed. -/
theorem reports_flushDesiredSymbols :
    Reports (SourceCall.flushDesiredSymbols s outcomes) := by
  unfold SourceCall.flushDesiredSymbols
  cases s.socket with
  | none => trivial
  | some socket =>
    dsimp only
    split_ifs
    all_goals first
      | trivial
      | exact reports_clearSubscriptionError
      | exact reports_sendCommand _ _ _

/-- Nothing else is told as a socket is opened. -/
theorem reports_openSocket (isReconnect : Bool) :
    Reports (SourceCall.openSocket s outcomes isReconnect) := by
  unfold SourceCall.openSocket
  by_cases hrunning : s.running = true
  · rw [if_pos hrunning]
    refine Call.tells_bind.2 ⟨reports_setStatus _, ?_⟩
    by_cases hconnects : outcomes.connects = true
    · rw [if_pos hconnects]
      trivial
    · rw [if_neg hconnects]
      exact reports_scheduleReconnect _
  · rw [if_neg hrunning]
    trivial

/-- Nothing else is told as the source starts. -/
theorem reports_start : Reports (SourceCall.start s outcomes) := by
  unfold SourceCall.start
  split_ifs
  · trivial
  · exact reports_openSocket false

/-- Nothing else is told of other symbols. -/
theorem reports_replaceSymbols {rt : Browser} (symbols : List JsString) :
    Reports (SourceCall.replaceSymbols s rt outcomes symbols) := by
  unfold SourceCall.replaceSymbols
  dsimp only
  split_ifs
  · trivial
  · refine Call.tells_bind.2 ⟨reports_clearSubscriptionError, ?_⟩
    split_ifs
    · exact reports_clearSubscriptionError
    · exact reports_flushDesiredSymbols

end MarketDataGateway.MarketData.GatewayWebSocketSource

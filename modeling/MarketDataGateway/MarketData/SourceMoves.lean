import Mathlib.Logic.Relation
import MarketDataGateway.Lib.Capitals
import MarketDataGateway.Lib.Grouping
import MarketDataGateway.Lib.Transition
import MarketDataGateway.MarketData.SourceCalls

/-!
# The moves of a source

What `GatewayWebSocketSource` does, it does by moves (`Move`): it emits an event, sets a timer,
sends an operation, gives a socket up, opens one. Each method is a sequence of them, and a message
that answers the pending operation confirms or drops it in between (`step_moves`).

`Consistent` is what a source keeps up from one move to the next: what is armed, pending and
confirmed belongs to the current socket and generation. A source that runs without a socket is about
to open one (`consistent_of_path`).
-/

namespace MarketDataGateway.MarketData

open Lib

/-- Sorting strings without repetitions sorts them strictly. -/
theorem pairwise_lt_insertionSort {symbols : List JsString} (h : symbols.Nodup) :
    (symbols.insertionSort (· ≤ ·)).Pairwise (· < ·) := by
  refine pairwise_lt_of_nodup (f := id) (pairwise_sortOn id symbols) ?_
  rw [List.map_id]
  exact (List.perm_insertionSort (· ≤ ·) symbols).nodup_iff.2 h

/-- The symbols that are desired come in order, each once. -/
theorem Runtime.pairwise_normalizeSymbols (rt : Runtime) {symbols : List JsString} :
    (rt.normalizeSymbols symbols).Pairwise (· < ·) := pairwise_lt_insertionSort (nodup_eraseDups _)

namespace GatewayWebSocketSource

variable {s s' s₀ : GatewayWebSocketSource} {socket : WebSocketLike}
  {outcomes : Outcomes} {code : JsString}
  {operation : PendingSubscriptionOperation} {rt : Browser} {cut waits : Bool}

/-! ## The current socket -/

/-- A socket is current while the source runs with it, in its generation. -/
theorem isCurrentSocket_iff {id generation : ℕ} : s.isCurrentSocket id generation = true ↔
    s.running = true ∧ (∃ socket, s.socket = some socket ∧ socket.id = id) ∧
    s.generation = generation := by
  unfold isCurrentSocket
  rw [Bool.and_eq_true, Bool.and_eq_true, decide_eq_true_eq, decide_eq_true_eq,
    Option.map_eq_some_iff, and_assoc]

/-- An open socket is current while the source runs with it, in its generation, and it is open. -/
theorem isCurrentOpenSocket_iff {id generation : ℕ} : s.isCurrentOpenSocket id generation = true ↔
    s.running = true ∧ (∃ socket, s.socket = some socket ∧ socket.id = id ∧
    socket.readyState = .opened) ∧
      s.generation = generation := by
  unfold isCurrentOpenSocket
  rw [Bool.and_eq_true, isCurrentSocket_iff, decide_eq_true_eq, Option.map_eq_some_iff]
  constructor
  · rintro ⟨⟨hrunning, ⟨socket, hsocket, hid⟩, hgeneration⟩, socket', hsocket', hopen⟩
    obtain rfl : socket = socket' := Option.some.inj (hsocket.symm.trans hsocket')
    exact ⟨hrunning, ⟨socket, hsocket, hid, hopen⟩, hgeneration⟩
  · rintro ⟨hrunning, ⟨socket, hsocket, hid, hopen⟩, hgeneration⟩
    exact ⟨⟨hrunning, ⟨socket, hsocket, hid⟩, hgeneration⟩, socket, hsocket, hopen⟩

/-! ## Giving a socket up, and opening one -/

/-- The source has no socket any more, and with `waits` it waits for the time to open one. -/
structure Fails (waits : Bool) (s : GatewayWebSocketSource) (socket : WebSocketLike)
    (s' : GatewayWebSocketSource) :
    Prop where
  running : s'.running = s.running
  noSocket : s'.socket = none
  desired : s'.desiredSymbols = s.desiredSymbols
  confirmed : s'.confirmedSymbols = []
  pending : s'.pendingSubscriptionOperations.entries = []
  generation : s'.generation = s.generation
  requestSequence : s'.requestSequence = s.requestSequence
  sockets : s'.sockets = s.sockets
  status : s'.status.state = .reconnecting ∧ s'.status.generation = s.generation
  output : s'.output = .status s'.status :: .closed socket.id none none :: s.output
  timers : s.timers.Agrees TimerCallback.kind → s.timers.armed .reconnect = none →
    s'.timers.Agrees TimerCallback.kind ∧
      ∀ kind, s'.timers.armed kind =
        if kind = .reconnect ∧ waits = true then some (.reconnect s.generation) else none

/-- The failure of the current socket of a running source. -/
theorem handleSocketFailure_fails (hrunning : s.running = true) (hsocket : s.socket = some socket) :
    Fails true s socket (s.handleSocketFailure outcomes socket.id s.generation code) := by
  have hcurrent : s.isCurrentSocket socket.id s.generation = true :=
    isCurrentSocket_iff.2 ⟨hrunning, ⟨socket, hsocket, rfl⟩, rfl⟩
  unfold handleSocketFailure
  rw [if_pos hcurrent]
  unfold scheduleReconnect
  rw [if_neg (by simp [hrunning])]
  refine ⟨rfl, rfl, rfl, rfl, rfl, rfl, rfl, rfl, ⟨rfl, rfl⟩, rfl, fun hagrees hreconnect => ?_⟩
  obtain ⟨hset, harmed⟩ := hagrees.clear_assign
    [.ping, .heartbeat, .connectionStability, .subscriptionAck,
    .subscriptionRetry] (.reconnect s.generation) _
    (Or.inr hreconnect)
  refine ⟨hset, fun kind => (harmed kind).trans ?_⟩
  cases kind <;> rfl

/-- A socket is made. -/
structure Connects (s₀ s' : GatewayWebSocketSource) : Prop where
  running : s'.running = true
  socket : s'.socket = some ⟨s₀.sockets, .connecting⟩
  desired : s'.desiredSymbols = s₀.desiredSymbols
  confirmed : s'.confirmedSymbols = []
  pending : s'.pendingSubscriptionOperations.entries = []
  generation : s'.generation = s₀.generation + 1
  requestSequence : s'.requestSequence = s₀.requestSequence
  sockets : s'.sockets = s₀.sockets + 1
  status : (s'.status.state = .connecting ∨ s'.status.state = .reconnecting) ∧
    s'.status.generation = s₀.generation + 1
  output : s'.output = .status s'.status :: s₀.output
  timers : s₀.timers.Agrees TimerCallback.kind →
    s'.timers.Agrees TimerCallback.kind ∧ ∀ kind, s'.timers.armed kind =
      if kind = .subscriptionAck ∨ kind = .subscriptionRetry then none else s₀.timers.armed kind

/-- No socket is made, and with `waits` the source waits. -/
structure Misses (waits : Bool) (s₀ s' : GatewayWebSocketSource) : Prop where
  running : s'.running = true
  noSocket : s'.socket = none
  desired : s'.desiredSymbols = s₀.desiredSymbols
  confirmed : s'.confirmedSymbols = []
  pending : s'.pendingSubscriptionOperations.entries = []
  generation : s'.generation = s₀.generation + 1
  requestSequence : s'.requestSequence = s₀.requestSequence
  sockets : s'.sockets = s₀.sockets
  status : (s'.status.state = .connecting ∨ s'.status.state = .reconnecting) ∧
    s'.status.generation = s₀.generation + 1
  output : s'.output = .status s'.status :: s₀.output ∨ ∃ status,
    status.generation = s₀.generation + 1 ∧
    s'.output = .status s'.status :: .status status :: s₀.output
  timers : s₀.timers.Agrees TimerCallback.kind → s₀.timers.armed .reconnect = none →
    s'.timers.Agrees TimerCallback.kind ∧ ∀ kind, s'.timers.armed kind =
      if kind = .reconnect ∧ waits = true then some (.reconnect (s₀.generation + 1))
      else if kind = .subscriptionAck ∨ kind = .subscriptionRetry then none
        else s₀.timers.armed kind

/-- A source that opens a socket connects, or misses the connection. -/
theorem openSocket_cases (hrunning : s₀.running = true) (hsocket : s₀.socket = none)
    (isReconnect : Bool) :
    Connects s₀ (s₀.openSocket outcomes isReconnect) ∨
    Misses true s₀ (s₀.openSocket outcomes isReconnect) := by
  unfold openSocket
  rw [if_pos hrunning]
  cases hconnects : outcomes.connects with
  | true =>
    refine Or.inl ⟨hrunning, rfl, rfl, rfl, rfl, rfl, rfl, rfl, ⟨?_, rfl⟩, rfl, fun hagrees => ?_⟩
    · cases isReconnect
      · exact Or.inl rfl
      · exact Or.inr rfl
    · obtain ⟨hcleared, harmed⟩ := hagrees.foldl_clear [.subscriptionAck, .subscriptionRetry]
      refine ⟨hcleared, fun kind => (harmed kind).trans ?_⟩
      cases kind <;> rfl
  | false =>
    refine Or.inr ?_
    show Misses true s₀ (scheduleReconnect _ outcomes (s₀.generation + 1)
      (js "connection_factory_failed"))
    unfold scheduleReconnect
    rw [if_neg (by simp [hrunning])]
    refine ⟨hrunning, hsocket, rfl, rfl, rfl, rfl, rfl, rfl, ⟨Or.inr rfl, rfl⟩,
      Or.inr ⟨_, rfl, rfl⟩, fun hagrees hreconnect => ?_⟩
    obtain ⟨hset, harmed⟩ := hagrees.clear_assign [.subscriptionAck, .subscriptionRetry]
      (.reconnect (s₀.generation + 1)) _ (Or.inr hreconnect)
    refine ⟨hset, fun kind => (harmed kind).trans ?_⟩
    cases kind <;> rfl

/-! ## Consistency -/

/-- No operation is pending. -/
def Idle (s : GatewayWebSocketSource) : Prop :=
  s.pendingSubscriptionOperations.entries = [] ∧ s.timers.armed .subscriptionAck = none

/-- An operation is pending on a socket. If a timer of an operation is armed, it is its own. -/
structure Awaits (s : GatewayWebSocketSource) (socket : WebSocketLike)
    (operation : PendingSubscriptionOperation) :
    Prop where
  current : s.socket = some socket
  entries : s.pendingSubscriptionOperations.entries = [(operation.requestId, operation)]
  generation : operation.generation = s.generation
  opened : ReadyState.opened.value ≤ socket.readyState.value
  timer : ∀ callback ∈ s.timers.armed .subscriptionAck,
    callback = .subscriptionAck socket.id s.generation operation.requestId

/-- What is armed, pending and confirmed belongs to the current socket and generation, and a socket
is about to be opened only by a source that runs without one. -/
structure Consistent (s : GatewayWebSocketSource) : Prop where
  /-- No timer has been forgotten. -/
  timers : s.timers.Agrees TimerCallback.kind
  generation : s.status.generation = s.generation
  state : s.running = true ↔ s.status.state ≠ .idle ∧ s.status.state ≠ .stopped
  live : s.status.state = .live → s.socket ≠ none
  running : s.socket ≠ none → s.running = true
  made : ∀ socket ∈ s.socket, socket.id < s.sockets
  reconnect : ∀ callback ∈ s.timers.armed .reconnect,
    s.running = true ∧ s.socket = none ∧ callback = .reconnect s.generation
  stopped : s.running = false → ∀ kind, s.timers.armed kind = none
  stability : ∀ callback ∈ s.timers.armed .connectionStability,
    ∃ socket ∈ s.socket, callback = .connectionStability socket.id s.generation
  retry : ∀ callback ∈ s.timers.armed .subscriptionRetry, s.socket ≠ none ∧
    s.pendingSubscriptionOperations.entries = [] ∧ ∃ code,
    callback = .subscriptionRetry s.generation code
  confirmed : s.socket = none → s.confirmedSymbols = []
  pending : s.Idle ∨ ∃ socket operation, s.Awaits socket operation

/-- What is pending depends on nothing else. -/
theorem Consistent.pending_of (h : Consistent s) (hsocket : s'.socket = s.socket)
    (hentries : s'.pendingSubscriptionOperations.entries = s.pendingSubscriptionOperations.entries)
    (hgeneration : s'.generation = s.generation)
    (harmed : s'.timers.armed .subscriptionAck = s.timers.armed .subscriptionAck) :
    s'.Idle ∨ ∃ socket operation, s'.Awaits socket operation := by
  rcases h.pending with hidle | ⟨socket, operation, hawaits⟩
  · exact Or.inl ⟨hentries.trans hidle.1, harmed.trans hidle.2⟩
  · exact Or.inr ⟨socket, operation, hsocket.trans hawaits.current, hentries.trans hawaits.entries,
      hawaits.generation.trans hgeneration.symm, hawaits.opened, by
      rw [harmed, hgeneration]; exact hawaits.timer⟩

/-- A timer changes that a socket does not depend on. -/
theorem Consistent.retimed (h : Consistent s)
    {timers : TimerFields TimerKind TimerCallback} {kind : TimerKind}
    {armed : Option TimerCallback} (hagrees : timers.Agrees TimerCallback.kind)
    (harmed : ∀ k, timers.armed k = if k = kind then armed else s.timers.armed k)
    (hkind : kind ≠ .reconnect)
    (hstopped : armed ≠ none → s.running = true)
    (hstability : kind = .connectionStability → ∀ callback ∈ armed,
      ∃ socket ∈ s.socket, callback = .connectionStability socket.id s.generation)
    (hretry : kind = .subscriptionRetry → ∀ callback ∈ armed, s.socket ≠ none ∧
      s.pendingSubscriptionOperations.entries = [] ∧ ∃ code,
      callback = .subscriptionRetry s.generation code)
    (hpending : kind = .subscriptionAck → { s with timers := timers }.Idle ∨
      ∃ socket operation, { s with timers := timers }.Awaits socket operation) :
    Consistent { s with timers := timers } :=
  { h with
    timers := hagrees
    reconnect := by
      intro callback hcallback
      have hcallback : callback ∈ timers.armed .reconnect := hcallback
      rw [harmed, if_neg hkind.symm] at hcallback
      exact h.reconnect callback hcallback
    stopped := by
      intro hrunning k
      show timers.armed k = none
      rw [harmed]
      split_ifs
      · by_contra hne
        exact absurd ((hstopped hne).symm.trans hrunning) (by decide)
      · exact h.stopped hrunning k
    stability := by
      intro callback hcallback
      have hcallback : callback ∈ timers.armed .connectionStability := hcallback
      rw [harmed] at hcallback
      split_ifs at hcallback with heq
      · exact hstability heq.symm callback hcallback
      · exact h.stability callback hcallback
    retry := by
      intro callback hcallback
      have hcallback : callback ∈ timers.armed .subscriptionRetry := hcallback
      rw [harmed] at hcallback
      split_ifs at hcallback with heq
      · exact hretry heq.symm callback hcallback
      · exact h.retry callback hcallback
    -- Only the timer of the acknowledgement belongs to the pending operation.
    pending := by
      by_cases heq : kind = .subscriptionAck
      · exact hpending heq
      · exact h.pending_of rfl rfl rfl (by rw [harmed, if_neg (Ne.symm heq)]) }

/-! ## Moves -/

/-- An operation that brings the confirmed symbols nearer to the desired ones is sent next. -/
structure Requests (s : GatewayWebSocketSource) (socket : WebSocketLike)
    (operation : PendingSubscriptionOperation) :
    Prop where
  current : s.socket = some socket
  opened : socket.readyState = .opened
  idle : s.pendingSubscriptionOperations.entries = []
  unarmed : s.timers.armed .subscriptionRetry = none
  next : operation = s.nextOperation operation.action operation.symbols
  symbols : operation.symbols ≠ [] ∧ (
    operation.action = .unsubscribe ∧
    operation.symbols = s.confirmedSymbols.filter (· ∉ s.desiredSymbols) ∨
    operation.action = .subscribe ∧ (∀ symbol ∈ s.confirmedSymbols, symbol ∈ s.desiredSymbols) ∧
      operation.symbols = s.desiredSymbols.filter (· ∉ s.confirmedSymbols))

/-- The source is as before, but runs without a socket and has no timer that depends on one. -/
structure Disconnects (s s₀ : GatewayWebSocketSource) : Prop where
  running : s₀.running = true
  noSocket : s₀.socket = none
  desired : s₀.desiredSymbols = s.desiredSymbols
  generation : s₀.generation = s.generation
  requestSequence : s₀.requestSequence = s.requestSequence
  sockets : s₀.sockets = s.sockets
  output : s₀.output = s.output ∨
    ∃ socket code reason, s.socket = some socket ∧
    s₀.output = .closed socket.id code reason :: s.output
  timers : s.timers.Agrees TimerCallback.kind → s₀.timers.Agrees TimerCallback.kind ∧
    s₀.timers.armed .reconnect = none ∧ s₀.timers.armed .connectionStability = none

/-- A move of a source. With `cut`, a source that has given its socket up need not wait for the time
to open one, because the call has been cut short. -/
inductive Move (cut : Bool) : GatewayWebSocketSource → GatewayWebSocketSource → Prop
  /-- An event is emitted. -/
  | emit {s : GatewayWebSocketSource} {socket : WebSocketLike} (event : SourceEvent)
      (hsocket : s.socket = some socket)
      (hgeneration : event.generation = s.generation) : Move cut s (s.emit event)
  /-- A status is reported. -/
  | report {s : GatewayWebSocketSource} (status : SourceStatus)
      (hgeneration : status.generation = s.generation)
      (hstate : status.state = s.status.state ∨ status.state = .live ∧ s.socket ≠ none) :
      Move cut s (s.setStatus status)
  /-- The timer of the next ping or of a missing heartbeat is set. -/
  | watch {s : GatewayWebSocketSource} (callback : TimerCallback) (delayMs : ℚ)
      (hrunning : s.running = true)
      (hkind : callback.kind = .ping ∨ callback.kind = .heartbeat) :
      Move cut s ((s.clearTimer callback.kind).setTimer callback delayMs)
  /-- The timer is set after which a socket counts as stable. -/
  | stability {s : GatewayWebSocketSource} {socket : WebSocketLike} (delayMs : ℚ)
      (hsocket : s.socket = some socket)
      (hunarmed : s.timers.armed .connectionStability = none) :
      Move cut s (s.setTimer (.connectionStability socket.id s.generation) delayMs)
  /-- The socket is stable. -/
  | steady {s : GatewayWebSocketSource} {socket : WebSocketLike} (hsocket : s.socket =
      some socket) : Move cut s
      { s with reconnectAttempt := 0 }
  /-- A subscription is about to be retried. -/
  | attempt {s : GatewayWebSocketSource} (n : ℕ) :
      Move cut s { s with subscriptionRetryAttempt := n }
  /-- An identifier of a ping is used up. -/
  | count {s : GatewayWebSocketSource} :
      Move cut s { s with requestSequence := s.requestSequence + 1 }
  /-- A ping is sent. -/
  | sendPing {s : GatewayWebSocketSource} {socket : WebSocketLike} (requestId : JsString)
      (hsocket : s.socket = some socket)
      (hopened : socket.readyState = .opened) :
      Move cut s { s with output := .sent socket.id (.ping requestId) :: s.output }
  /-- An operation is sent. -/
  | request {s : GatewayWebSocketSource} {socket : WebSocketLike}
      {operation : PendingSubscriptionOperation}
      (h : s.Requests socket operation) :
      Move cut s { s.addOperation socket.id operation with
        output := .sent socket.id operation.command :: s.output }
  /-- An operation cannot be sent. -/
  | refuse {s s' : GatewayWebSocketSource} {socket : WebSocketLike}
      {operation : PendingSubscriptionOperation}
      (waits : Bool) (hwaits : waits = true ∨ cut = true) (h : s.Requests socket operation)
      (hfails : Fails waits (s.addOperation socket.id operation) socket s') : Move cut s s'
  /-- The timer of a retry is set. -/
  | retry {s : GatewayWebSocketSource} {socket : WebSocketLike} (code : JsString) (delayMs : ℚ)
      (hsocket : s.socket = some socket)
      (hidle : s.pendingSubscriptionOperations.entries = [])
      (hunarmed : s.timers.armed .subscriptionRetry = none) :
      Move cut s (s.setTimer (.subscriptionRetry s.generation code) delayMs)
  /-- The socket is given up. -/
  | fail {s s' : GatewayWebSocketSource} {socket : WebSocketLike} (waits : Bool)
      (hwaits : waits = true ∨ cut = true) (hsocket : s.socket = some socket)
      (hfails : Fails waits s socket s') : Move cut s s'
  /-- Other symbols are desired. -/
  | desire {s : GatewayWebSocketSource} (symbols : List JsString)
      (hsymbols : symbols = s.desiredSymbols ∨ symbols.Pairwise (· < ·)) :
      Move cut s { { s with desiredSymbols := symbols }.clearTimer .subscriptionRetry with
        subscriptionRetryAttempt := 0 }
  /-- A socket is made. -/
  | connect {s s₀ s' : GatewayWebSocketSource} (h : s.Disconnects s₀) (hconnects : Connects s₀ s') :
      Move cut s s'
  /-- No socket is made. -/
  | miss {s s₀ s' : GatewayWebSocketSource} (waits : Bool) (hwaits : waits = true ∨ cut = true)
      (h : s.Disconnects s₀) (hmisses : Misses waits s₀ s') : Move cut s s'
  /-- The source is stopped. -/
  | stop {s : GatewayWebSocketSource} : Move cut s s.stop
  /-- A timer goes off. -/
  | expire {s : GatewayWebSocketSource} (handle : ℕ) (callback : TimerCallback)
      (hcallback : s.timers.scheduler.callback handle = some callback)
      (hreconnect : callback.kind ≠ .reconnect)
      (hack : callback.kind = .subscriptionAck →
        cut = true ∨ ∀ socket ∈ s.socket, socket.readyState ≠ .opened) :
      Move cut s { s with timers := s.timers.goOff handle callback.kind }
  /-- An operation has not been acknowledged in time. -/
  | timeout {s s' : GatewayWebSocketSource} {socket : WebSocketLike}
      {operation : PendingSubscriptionOperation} (handle : ℕ) (event : SourceEvent) (waits : Bool)
      (hwaits : waits = true ∨ cut = true) (h : s.Awaits socket operation)
      (hcallback : s.timers.scheduler.callback handle =
        some (.subscriptionAck socket.id s.generation operation.requestId))
      (hgeneration : event.generation = s.generation)
      (hfails : Fails waits ({ s with timers := s.timers.goOff handle .subscriptionAck }.emit event)
        socket s') :
      Move cut s s'
  /-- The state of the socket changes. -/
  | advance {s : GatewayWebSocketSource} {socket : WebSocketLike} (readyState : ReadyState)
      (hsocket : s.socket = some socket)
      (hlt : socket.readyState.value < readyState.value) :
      Move cut s { s with socket := some { socket with readyState } }

/-- Any number of moves. -/
abbrev Moves (cut : Bool) : GatewayWebSocketSource → GatewayWebSocketSource → Prop :=
  Relation.ReflTransGen (Move cut)

/-! ## Moves keep a source consistent -/

/-- The timers are as they were once a socket has been given up. -/
theorem Fails.consistent (h : Fails waits s socket s')
    (hagrees : s.timers.Agrees TimerCallback.kind)
    (hreconnect : s.timers.armed .reconnect = none)
    (hrunning : s.running = true) : Consistent s' := by
  obtain ⟨hagrees', harmed⟩ := h.timers hagrees hreconnect
  have hrunning' : s'.running = true := h.running.trans hrunning
  have hnone {kind : TimerKind} (hkind : kind ≠ .reconnect) : s'.timers.armed kind = none := by
    rw [harmed, if_neg fun h => hkind h.1]
  constructor
  case timers => exact hagrees'
  case generation => exact h.status.2.trans h.generation.symm
  case state => simp [hrunning', h.status.1]
  case live => simp [h.status.1]
  case running => exact fun _ => hrunning'
  case made => simp [h.noSocket]
  case reconnect =>
    intro callback hcallback
    rw [harmed] at hcallback
    split_ifs at hcallback
    · exact ⟨hrunning', h.noSocket, by rw [h.generation]; exact (Option.some.inj hcallback).symm⟩
    · cases hcallback
  case stopped => simp [hrunning']
  case stability => simp [hnone]
  case retry => simp [hnone]
  case confirmed => exact fun _ => h.confirmed
  case pending => exact Or.inl ⟨h.pending, hnone (by decide)⟩

/-- A source that connects is consistent. -/
theorem Connects.consistent (h : Connects s₀ s') (hagrees : s₀.timers.Agrees TimerCallback.kind)
    (hreconnect : s₀.timers.armed .reconnect = none)
    (hstability : s₀.timers.armed .connectionStability = none) :
    Consistent s' := by
  obtain ⟨hagrees', harmed⟩ := h.timers hagrees
  constructor
  case timers => exact hagrees'
  case generation => exact h.status.2.trans h.generation.symm
  case state => rcases h.status.1 with hstate | hstate <;> simp [h.running, hstate]
  case live => rcases h.status.1 with hstate | hstate <;> simp [hstate]
  case running => exact fun _ => h.running
  case made =>
    intro socket hsocket
    rw [h.socket] at hsocket
    rw [← Option.some.inj hsocket, h.sockets]
    exact Nat.lt_succ_self _
  case reconnect => simp [harmed, hreconnect]
  case stopped => simp [h.running]
  case stability => simp [harmed, hstability]
  case retry => simp [harmed]
  case confirmed => exact fun _ => h.confirmed
  case pending => exact Or.inl ⟨h.pending, by simp [harmed]⟩

/-- A source that misses a connection is consistent. -/
theorem Misses.consistent (h : Misses waits s₀ s') (hagrees : s₀.timers.Agrees TimerCallback.kind)
    (hreconnect : s₀.timers.armed .reconnect = none)
    (hstability : s₀.timers.armed .connectionStability = none) :
    Consistent s' := by
  obtain ⟨hagrees', harmed⟩ := h.timers hagrees hreconnect
  constructor
  case timers => exact hagrees'
  case generation => exact h.status.2.trans h.generation.symm
  case state => rcases h.status.1 with hstate | hstate <;> simp [h.running, hstate]
  case live => rcases h.status.1 with hstate | hstate <;> simp [hstate]
  case running => exact fun _ => h.running
  case made => simp [h.noSocket]
  case reconnect =>
    intro callback hcallback
    rw [harmed] at hcallback
    split_ifs at hcallback with _ hother
    · exact ⟨h.running, h.noSocket, by rw [h.generation]; exact (Option.some.inj hcallback).symm⟩
    · cases hcallback
    · rw [hreconnect] at hcallback
      cases hcallback
  case stopped => simp [h.running]
  case stability => simp [harmed, hstability]
  case retry => simp [harmed]
  case confirmed => exact fun _ => h.confirmed
  case pending => exact Or.inl ⟨h.pending, by simp [harmed]⟩

/-- A socket that is not `null` and has not been given up is one of a source that runs. -/
theorem Consistent.running_of (h : Consistent s)
    (hsocket : s.socket = some socket) : s.running = true :=
  h.running (by rw [hsocket]; exact Option.some_ne_none socket)

/-- A source with a socket has no reconnect timer. -/
theorem Consistent.reconnect_of (h : Consistent s) (hsocket : s.socket = some socket) :
    s.timers.armed .reconnect = none := by
  rw [Option.eq_none_iff_forall_not_mem]
  intro callback hcallback
  exact Option.some_ne_none socket (hsocket.symm.trans (h.reconnect callback hcallback).2.1)

/-- The timer of an operation is armed as the operation becomes pending. -/
theorem timers_addOperation (hagrees : s.timers.Agrees TimerCallback.kind) :
    (s.addOperation socket.id operation).timers.Agrees TimerCallback.kind ∧
      ∀ kind, (s.addOperation socket.id operation).timers.armed kind =
      if kind = .subscriptionAck then
        some (.subscriptionAck socket.id operation.generation operation.requestId)
        else s.timers.armed kind := by
  obtain ⟨hset, harmed⟩ := hagrees.clear_assign [.subscriptionAck]
    (.subscriptionAck socket.id operation.generation operation.requestId)
    s.settings.subscriptionAckTimeoutMs.1
    (Or.inl (List.mem_singleton.2 rfl))
  refine ⟨hset, fun kind => (harmed kind).trans ?_⟩
  cases kind <;> rfl

/-- A request awaits its answer. -/
theorem Requests.awaits (h : s.Requests socket operation) (hs : Consistent s) :
    (s.addOperation socket.id operation).Awaits socket operation where
  current := h.current
  entries := by
    show InsertionMap.assign operation.requestId operation
      s.pendingSubscriptionOperations.entries = _
    rw [h.idle]
    rfl
  generation := congrArg PendingSubscriptionOperation.generation h.next
  opened := h.opened ▸ le_rfl
  timer := by
    have hgeneration : operation.generation = s.generation :=
      congrArg PendingSubscriptionOperation.generation h.next
    rw [(timers_addOperation hs.timers).2, if_pos rfl, hgeneration]
    exact fun _ hcallback => (Option.some.inj hcallback).symm

/-- A request keeps a source consistent. -/
theorem Requests.consistent (h : s.Requests socket operation) (hs : Consistent s) :
    Consistent (s.addOperation socket.id operation) :=
  have hrunning := hs.running_of h.current
  have harmed := (@timers_addOperation s socket operation hs.timers).2
  { hs with
    timers := (timers_addOperation hs.timers).1
    reconnect := fun callback hcallback =>
      hs.reconnect callback ((harmed .reconnect).symm.trans hcallback)
    stopped := fun hstopped => absurd (hrunning.symm.trans hstopped) (by decide)
    stability := by
      rw [harmed]
      exact hs.stability
    retry := by
      rw [harmed, if_neg (by decide), h.unarmed]
      exact fun _ hcallback => absurd hcallback (Option.not_mem_none _)
    pending := Or.inr ⟨socket, operation, h.awaits hs⟩ }

/-- The socket is closed, if there is one. -/
theorem dropSocket_eq (s : GatewayWebSocketSource) (code : ℕ) (reason : String) : ∃ output,
    s.dropSocket code reason =
    { { s with socket := none }.resetSubscriptionState with output := output } ∧
      (output = s.output ∨ ∃ socket code reason, s.socket = some socket ∧
        output = .closed socket.id code reason :: s.output) := by
  unfold dropSocket
  cases hsocket : s.socket with
  | none => exact ⟨_, rfl, Or.inl rfl⟩
  | some socket => exact ⟨_, rfl, Or.inr ⟨socket, _, _, rfl, rfl⟩⟩

/-- A source that has been stopped before stays as it is. Any other gives its socket up. -/
theorem stop_cases (s : GatewayWebSocketSource) :
    s.stop = s ∨ s.stop.socket = none ∧ s.stop.sockets = s.sockets ∧
    s.stop.status.generation = s.generation + 1 ∧ ∃ output,
    s.stop.output = .status s.stop.status :: output ∧
      (output = s.output ∨ ∃ socket code reason, s.socket = some socket ∧
        output = .closed socket.id code reason :: s.output) := by
  unfold GatewayWebSocketSource.stop
  split_ifs
  · exact Or.inl rfl
  · obtain ⟨output, heq, houtput⟩ := dropSocket_eq
      ({ s with running := false, generation := s.generation + 1 }.clearTimers)
      1000 "client stopped"
    dsimp only
    rw [heq]
    exact Or.inr ⟨rfl, rfl, rfl, output, rfl, houtput⟩

/-- A source that has been stopped does not run. -/
theorem stop_running (s : GatewayWebSocketSource) : s.stop.running = false := by
  unfold GatewayWebSocketSource.stop
  split_ifs with hstopped
  · simp only [Bool.and_eq_true, Bool.not_eq_true', decide_eq_true_eq] at hstopped
    exact hstopped.1
  · obtain ⟨output, heq, -⟩ := dropSocket_eq
      ({ s with running := false, generation := s.generation + 1 }.clearTimers)
      1000 "client stopped"
    dsimp only
    rw [heq]
    rfl

/-- A source that is stopped has nothing left. -/
theorem Consistent.stop (h : Consistent s) : Consistent s.stop := by
  unfold GatewayWebSocketSource.stop
  split_ifs
  · exact h
  · obtain ⟨output, heq, -⟩ := dropSocket_eq
      ({ s with running := false, generation := s.generation + 1 }.clearTimers)
      1000 "client stopped"
    obtain ⟨hcleared, harmed⟩ :=
      h.timers.foldl_clear [.reconnect, .ping, .heartbeat, .connectionStability, .subscriptionAck,
      .subscriptionRetry, .subscriptionAck, .subscriptionRetry]
    -- All kinds are cleared, two of them a second time as the socket is dropped.
    have hnone (kind : TimerKind) : (List.foldl TimerFields.clear s.timers [.reconnect, .ping,
      .heartbeat, .connectionStability, .subscriptionAck, .subscriptionRetry, .subscriptionAck,
      .subscriptionRetry]).armed
        kind = none := (harmed kind).trans (if_pos (by cases kind <;> decide))
    dsimp only
    rw [heq]
    constructor
    case timers => exact hcleared
    case generation => rfl
    case state => exact ⟨fun h => absurd h Bool.false_ne_true, fun h => absurd rfl h.2⟩
    case live => exact fun h => by cases h
    case running => exact fun h => absurd rfl h
    case made => exact fun _ h => absurd h (Option.not_mem_none _)
    case reconnect =>
      exact fun _ hcallback => absurd ((hnone _) ▸ hcallback) (Option.not_mem_none _)
    case stopped => exact fun _ => hnone
    case stability =>
      exact fun _ hcallback => absurd ((hnone _) ▸ hcallback) (Option.not_mem_none _)
    case retry => exact fun _ hcallback => absurd ((hnone _) ▸ hcallback) (Option.not_mem_none _)
    case confirmed => exact fun _ => rfl
    case pending => exact Or.inl ⟨rfl, hnone _⟩

/-- Each move keeps a source consistent. -/
theorem Move.consistent (h : Move cut s s') (hs : Consistent s) : Consistent s' := by
  -- By the move: what it touches is accounted for, and the rest of the invariant is as before.
  cases h with
  | emit => exact { hs with pending := hs.pending_of rfl rfl rfl rfl }
  | report status hgeneration hstate =>
    refine { hs with
      generation := hgeneration, state := ?_, live := ?_, pending := hs.pending_of rfl rfl rfl rfl }
    · rcases hstate with hsame | ⟨hlive, hsocket⟩
      · show s.running = true ↔ status.state ≠ _ ∧ status.state ≠ _
        rw [hsame]
        exact hs.state
      · show s.running = true ↔ status.state ≠ _ ∧ status.state ≠ _
        rw [hlive]
        exact ⟨fun _ => by decide, fun _ => hs.running hsocket⟩
    · intro hlive
      rcases hstate with hsame | ⟨-, hsocket⟩
      · exact hs.live (hsame.symm.trans hlive)
      · exact hsocket
  | watch callback delayMs hrunning hkind =>
    obtain ⟨hset, harmed⟩ := hs.timers.clear_assign [callback.kind] callback delayMs
      (Or.inl (List.mem_singleton.2 rfl))
    have harmed (k : TimerKind) :
      ((s.timers.clear callback.kind).assign callback.kind callback delayMs).armed k =
        if k = callback.kind then some callback else s.timers.armed k := by
      refine (harmed k).trans ?_
      simp only [List.mem_singleton]
      split_ifs <;> rfl
    refine hs.retimed hset harmed ?_ (fun _ => hrunning) ?_ ?_ ?_
    all_goals rcases hkind with hkind | hkind <;> simp [hkind]
  | @stability socket delayMs hsocket hunarmed =>
    obtain ⟨hset, harmed⟩ :=
      hs.timers.assign (c := TimerCallback.connectionStability socket.id
        s.generation) hunarmed delayMs
    refine hs.retimed hset harmed (fun hkind => by cases hkind) (fun _ => hs.running_of hsocket)
      (fun _ callback hcallback => ?_) (fun hkind => by cases hkind) (fun hkind => by cases hkind)
    exact ⟨_, hsocket, (Option.some.inj hcallback).symm⟩
  | steady => exact { hs with pending := hs.pending_of rfl rfl rfl rfl }
  | attempt => exact { hs with pending := hs.pending_of rfl rfl rfl rfl }
  | count => exact { hs with pending := hs.pending_of rfl rfl rfl rfl }
  | sendPing => exact { hs with pending := hs.pending_of rfl rfl rfl rfl }
  | request h =>
    exact { h.consistent hs with pending := (h.consistent hs).pending_of rfl rfl rfl rfl }
  | refuse waits hwaits h hfails =>
    have hadded := h.consistent hs
    exact hfails.consistent hadded.timers (hadded.reconnect_of h.current)
      (hadded.running_of h.current)
  | retry code delayMs hsocket hidle hunarmed =>
    obtain ⟨hset, harmed⟩ :=
      hs.timers.assign (c := TimerCallback.subscriptionRetry s.generation code) hunarmed delayMs
    refine hs.retimed hset harmed (fun hkind => by cases hkind) (fun _ => hs.running_of hsocket)
      (fun hkind => by cases hkind) (fun _ callback hcallback => ?_) (fun hkind => by cases hkind)
    exact ⟨by rw [hsocket]; exact Option.some_ne_none _, hidle, code, (Option.some.inj
      hcallback).symm⟩
  | fail waits hwaits hsocket hfails =>
    exact hfails.consistent hs.timers (hs.reconnect_of hsocket) (hs.running_of hsocket)
  | desire symbols =>
    -- The retry timer goes with the error that has armed it.
    obtain ⟨hcleared, harmed⟩ := hs.timers.clear .subscriptionRetry
    have hretimed := hs.retimed hcleared harmed (by decide) (fun hne => absurd rfl hne)
      (fun hkind => by cases hkind) (fun _ _ hcallback => absurd hcallback (Option.not_mem_none _))
      (fun hkind => by cases hkind)
    exact { hretimed with pending := hretimed.pending_of rfl rfl rfl rfl }
  | connect h hconnects =>
    obtain ⟨hagrees, hreconnect, hstability⟩ := h.timers hs.timers
    exact hconnects.consistent hagrees hreconnect hstability
  | miss waits hwaits h hmisses =>
    obtain ⟨hagrees, hreconnect, hstability⟩ := h.timers hs.timers
    exact hmisses.consistent hagrees hreconnect hstability
  | stop => exact hs.stop
  | expire handle callback hcallback hreconnect hack =>
    obtain ⟨hgone, harmed⟩ := hs.timers.goOff hcallback
    refine hs.retimed hgone harmed hreconnect (fun hne => absurd rfl hne)
      (fun _ _ h => absurd h (Option.not_mem_none _)) (fun _ _ h =>
      absurd h (Option.not_mem_none _)) fun hkind => ?_
    have hnone : (s.timers.goOff handle callback.kind).armed .subscriptionAck = none := by
      rw [harmed, if_pos hkind.symm]
    rcases hs.pending with hidle | ⟨socket, operation, hawaits⟩
    · exact Or.inl ⟨hidle.1, hnone⟩
    · refine Or.inr ⟨socket, operation, { hawaits with timer := fun c hc => ?_ }⟩
      exact absurd (hnone ▸ hc) (Option.not_mem_none c)
  | @timeout _ socket operation handle event waits hwaits h hcallback hgeneration hfails =>
    obtain ⟨hgone, harmed⟩ := hs.timers.goOff hcallback
    refine hfails.consistent hgone ?_ (hs.running_of h.current)
    exact (harmed .reconnect).trans
      ((if_neg fun hkind => by cases hkind).trans (hs.reconnect_of h.current))
  | @advance socket readyState hsocket hlt =>
    -- The socket is the same but for its state, which only goes on.
    have hid {k : WebSocketLike} (hk : s.socket = some k) : k = socket :=
      Option.some.inj (hk.symm.trans hsocket)
    refine { hs with
      live := fun _ => Option.some_ne_none _
      running := fun _ => hs.running_of hsocket
      made := ?_, reconnect := ?_, stability := ?_, retry := ?_, confirmed := ?_, pending := ?_ }
    · intro k hk
      rw [← Option.some.inj hk]
      exact hs.made socket hsocket
    · intro callback hcallback
      have hnone := hs.reconnect_of hsocket
      exact absurd (hnone ▸ hcallback) (Option.not_mem_none callback)
    · intro callback hcallback
      obtain ⟨k, hk, rfl⟩ := hs.stability callback hcallback
      exact ⟨_, rfl, by rw [hid hk]⟩
    · exact fun callback hcallback => ⟨Option.some_ne_none _, (hs.retry callback hcallback).2⟩
    · exact fun h => absurd h (Option.some_ne_none _)
    · rcases hs.pending with hidle | ⟨k, operation, hawaits⟩
      · exact Or.inl hidle
      · obtain rfl := hid hawaits.current
        exact Or.inr ⟨_, operation, rfl, hawaits.entries, hawaits.generation,
          hawaits.opened.trans hlt.le, hawaits.timer⟩

/-- A move keeps a source consistent. -/
theorem Moves.consistent (h : Moves cut s s') (hs : Consistent s) : Consistent s' := by
  induction h with
  | refl => exact hs
  | tail _ hmove ih => exact hmove.consistent ih

/-! ## Methods as moves -/

/-- A field for a timer is empty when the timer is not armed. -/
theorem Consistent.field_eq_none_iff (h : Consistent s) {kind : TimerKind} :
    s.timers.field kind = none ↔ s.timers.armed kind = none := h.timers.field_eq_none_iff

/-- A subscription error that is cleared leaves the socket. -/
theorem clearSubscriptionError_socket : s.clearSubscriptionError.socket = s.socket := by
  unfold clearSubscriptionError
  split_ifs <;> rfl

/-- A subscription error that is cleared leaves the generation. -/
theorem clearSubscriptionError_generation : s.clearSubscriptionError.generation = s.generation := by
  unfold clearSubscriptionError
  split_ifs <;> rfl

/-- To clear the subscription error is a move. -/
theorem clearSubscriptionError_moves (hs : Consistent s) :
    Moves cut s s.clearSubscriptionError := by
  unfold clearSubscriptionError
  split_ifs
  · exact .single (.report _ hs.generation (Or.inl rfl))
  · exact .refl

/-- A command is sent on an open socket, or the socket is given up. -/
theorem sendCommand_cases (hrunning : s.running = true) (hsocket : s.socket = some socket)
    (hopened : socket.readyState = .opened) (command : ClientCommand) :
    s.sendCommand outcomes socket.id s.generation command =
        { s with output := .sent socket.id command :: s.output } ∨
      Fails true s socket (s.sendCommand outcomes socket.id s.generation command) := by
  unfold sendCommand
  rw [if_pos (isCurrentOpenSocket_iff.2 ⟨hrunning, ⟨socket, hsocket, rfl, hopened⟩, rfl⟩)]
  split_ifs
  · exact Or.inl rfl
  · exact Or.inr (handleSocketFailure_fails hrunning hsocket)

/-- The source may send an operation. -/
def Free (s : GatewayWebSocketSource) : Prop :=
  s.pendingSubscriptionOperations.entries = [] ∧ s.timers.armed .subscriptionRetry = none ∧
    ∃ socket, s.socket = some socket ∧ socket.readyState = .opened

/-- What `flushDesiredSymbols` does: nothing if no operation may be sent, or if there is none to
send, and else it sends one. -/
theorem flushDesiredSymbols_call (hs : Consistent s) :
    ¬s.Free ∧ SourceCall.flushDesiredSymbols s outcomes = .returned s ∨
    s.Free ∧ (∀ symbol, symbol ∈ s.confirmedSymbols ↔ symbol ∈ s.desiredSymbols) ∧
      SourceCall.flushDesiredSymbols s outcomes = SourceCall.clearSubscriptionError s ∨
    ∃ socket operation, s.Requests socket operation ∧ SourceCall.flushDesiredSymbols s outcomes =
      SourceCall.sendCommand (s.addOperation socket.id operation) outcomes socket.id s.generation
        operation.command := by
  unfold SourceCall.flushDesiredSymbols
  cases hsocket : s.socket with
  | none =>
    refine Or.inl ⟨?_, rfl⟩
    rintro ⟨-, -, socket, hsome, -⟩
    rw [hsocket] at hsome
    cases hsome
  | some socket =>
    have hrunning := hs.running_of hsocket
    dsimp only
    by_cases hopened : socket.readyState = .opened
    · have hcurrent : s.isCurrentOpenSocket socket.id s.generation = true :=
        isCurrentOpenSocket_iff.2 ⟨hrunning, ⟨socket, hsocket, rfl, hopened⟩, rfl⟩
      rw [if_neg (by simp [hcurrent])]
      by_cases hbusy : s.pendingSubscriptionOperations.entries ≠ [] ∨
        s.timers.field .subscriptionRetry ≠ none
      · rw [if_pos hbusy]
        refine Or.inl ⟨?_, rfl⟩
        rintro ⟨hidle, hunarmed, -⟩
        rw [← hs.field_eq_none_iff] at hunarmed
        exact hbusy.elim (absurd hidle) (absurd hunarmed)
      · rw [if_neg hbusy]
        obtain ⟨hidle, hunarmed⟩ := not_or.1 hbusy
        have hidle := not_not.1 hidle
        have hunarmed := hs.field_eq_none_iff.1 (not_not.1 hunarmed)
        refine Or.inr ?_
        -- Symbols that are not desired any more are given up before others are asked for.
        by_cases hremoved : s.confirmedSymbols.filter (· ∉ s.desiredSymbols) = []
        · have hkept : ∀ symbol ∈ s.confirmedSymbols, symbol ∈ s.desiredSymbols := by
            simpa [List.filter_eq_nil_iff] using hremoved
          by_cases hadded : s.desiredSymbols.filter (· ∉ s.confirmedSymbols) = []
          · have hall : ∀ symbol ∈ s.desiredSymbols, symbol ∈ s.confirmedSymbols := by
              simpa [List.filter_eq_nil_iff] using hadded
            refine Or.inl ⟨⟨hidle, hunarmed, socket, hsocket, hopened⟩,
              fun symbol => ⟨hkept symbol, hall symbol⟩, ?_⟩
            simp only [hremoved, hadded, ne_eq, not_true_eq_false, if_false]
          · refine Or.inr ⟨socket,
              s.nextOperation .subscribe (s.desiredSymbols.filter (· ∉ s.confirmedSymbols)),
              ⟨hsocket, hopened, hidle, hunarmed, rfl, hadded, Or.inr ⟨rfl, hkept, rfl⟩⟩, ?_⟩
            simp only [hremoved, hadded, ne_eq, not_true_eq_false, not_false_eq_true, if_true,
              if_false, reduceCtorEq, Option.some.injEq]
        · refine Or.inr ⟨socket,
            s.nextOperation .unsubscribe (s.confirmedSymbols.filter (· ∉ s.desiredSymbols)),
            ⟨hsocket, hopened, hidle, hunarmed, rfl, hremoved, Or.inl ⟨rfl, rfl⟩⟩, ?_⟩
          simp only [hremoved, ne_eq, not_false_eq_true, if_true, if_false]
    · have hcurrent : s.isCurrentOpenSocket socket.id s.generation = false := by
        rw [← Bool.not_eq_true, isCurrentOpenSocket_iff]
        rintro ⟨-, ⟨k, hk, -, hkopened⟩, -⟩
        exact hopened (Option.some.inj (hsocket.symm.trans hk) ▸ hkopened)
      rw [if_pos (by simp [hcurrent])]
      refine Or.inl ⟨?_, rfl⟩
      rintro ⟨-, -, k, hk, hkopened⟩
      exact hopened (Option.some.inj (hsocket.symm.trans hk) ▸ hkopened)

/-- Desired symbols that are flushed wait, are confirmed already, or are requested. -/
theorem flushDesiredSymbols_cases (hs : Consistent s) :
    ¬s.Free ∧ s.flushDesiredSymbols outcomes = s ∨
    s.Free ∧ (∀ symbol, symbol ∈ s.confirmedSymbols ↔ symbol ∈ s.desiredSymbols) ∧
      s.flushDesiredSymbols outcomes = s.clearSubscriptionError ∨
    ∃ socket operation, s.Requests socket operation ∧ s.flushDesiredSymbols outcomes =
      (s.addOperation socket.id operation).sendCommand outcomes socket.id s.generation
      operation.command := by
  rw [← SourceCall.run_flushDesiredSymbols, ← SourceCall.run_clearSubscriptionError]
  rcases @flushDesiredSymbols_call s outcomes hs with ⟨hbusy, hcall⟩ | ⟨hfree, hsame, hcall⟩ |
    ⟨socket, operation, hrequests, hcall⟩
  · exact Or.inl ⟨hbusy, by rw [hcall]; rfl⟩
  · exact Or.inr (Or.inl ⟨hfree, hsame, by rw [hcall]⟩)
  · exact Or.inr (Or.inr ⟨socket, operation, hrequests, by rw [hcall, SourceCall.run_sendCommand]⟩)

/-- To flush the desired symbols is a move. -/
theorem flushDesiredSymbols_moves (hs : Consistent s) :
    Moves cut s (s.flushDesiredSymbols outcomes) := by
  rcases flushDesiredSymbols_cases hs with ⟨-, heq⟩ | ⟨-, -, heq⟩ |
    ⟨socket, operation, hrequests, heq⟩
  · rw [heq]
  · rw [heq]
    exact clearSubscriptionError_moves hs
  · rw [heq]
    have hrunning : (s.addOperation socket.id operation).running = true :=
      hs.running_of hrequests.current
    rcases @sendCommand_cases _ socket outcomes hrunning hrequests.current
      hrequests.opened operation.command
      with hsent | hfails
    · have hmove : Move cut s
        ((s.addOperation socket.id operation).sendCommand outcomes socket.id s.generation
          operation.command) := by
        refine Eq.subst (motive := Move cut s) hsent.symm ?_
        exact .request hrequests
      exact .single hmove
    · exact .single (.refuse true (Or.inl rfl) hrequests hfails)

/-- A retry is scheduled when no operation is pending. -/
theorem scheduleSubscriptionRetry_moves (hs : Consistent s) (hsocket : s.socket = some socket)
    (hidle : s.pendingSubscriptionOperations.entries = []) :
    Moves cut s (s.scheduleSubscriptionRetry outcomes s.generation code) := by
  unfold scheduleSubscriptionRetry
  split_ifs with _ _ hfield
  · exact .refl
  · exact clearSubscriptionError_moves hs
  · exact .refl
  · have hunarmed : s.timers.armed .subscriptionRetry = none :=
      hs.field_eq_none_iff.1 (by simpa using hfield)
    let delayMs := s.settings.retryDelay (s.subscriptionRetryAttempt + 1) outcomes.random
    have hattempt := @Move.attempt cut s (s.subscriptionRetryAttempt + 1)
    have hreport := @Move.report cut
      { s with subscriptionRetryAttempt := s.subscriptionRetryAttempt + 1 }
      ⟨s.status.state, s.generation, s.status.reconnectAttempt, some delayMs,
        some code⟩ rfl (Or.inl rfl)
    exact ((Relation.ReflTransGen.single hattempt).tail hreport).tail
      (.retry code delayMs hsocket hidle hunarmed)

/-- The pending operation has been acknowledged. -/
def accept (s : GatewayWebSocketSource) (operation : PendingSubscriptionOperation) :
    GatewayWebSocketSource :=
  { { s with
      pendingSubscriptionOperations :=
        s.pendingSubscriptionOperations.delete
          operation.requestId }.clearTimer .subscriptionAck with
    confirmedSymbols := confirm s.confirmedSymbols operation
    subscriptionRetryAttempt := 0 }

/-- The pending operation has been rejected. -/
def reject (s : GatewayWebSocketSource) (operation : PendingSubscriptionOperation) :
    GatewayWebSocketSource :=
  { s with
    pendingSubscriptionOperations :=
      s.pendingSubscriptionOperations.delete operation.requestId }.clearTimer .subscriptionAck

/-- A message answers the pending operation. -/
inductive Answers (message : WireMessage) (s : GatewayWebSocketSource) :
    GatewayWebSocketSource → Prop
  /-- The operation is acknowledged. -/
  | accepted {socket : WebSocketLike} {operation : PendingSubscriptionOperation}
      (symbols : List JsString)
      (transitions : Option (List JsString)) (h : s.Awaits socket operation)
      (hid : message.requestId = some operation.requestId)
      (hdata : message.data = .ack operation.action symbols transitions) :
      Answers message s (s.accept operation)
  /-- The operation is rejected. -/
  | rejected {socket : WebSocketLike} {operation : PendingSubscriptionOperation}
      (code text : JsString)
      (h : s.Awaits socket operation) (hid : message.requestId = some operation.requestId)
      (hdata : message.data = .error code text) : Answers message s (s.reject operation)

/-- The operation that a map with one entry gives. -/
theorem Consistent.awaits_of_get {requestId : JsString} (hs : Consistent s)
    (hget : s.pendingSubscriptionOperations.get requestId = some operation) :
    ∃ socket, s.Awaits socket operation ∧ requestId = operation.requestId := by
  have hmem := InsertionMap.mem_of_lookup hget
  rcases hs.pending with hidle | ⟨socket, operation', hawaits⟩
  · rw [hidle.1] at hmem
    exact absurd hmem List.not_mem_nil
  · rw [hawaits.entries, List.mem_singleton] at hmem
    obtain ⟨rfl, rfl⟩ := Prod.mk.inj hmem
    exact ⟨socket, hawaits, rfl⟩

/-- Once an operation has been answered, none is pending. -/
theorem Awaits.delete_eq_nil (h : s.Awaits socket operation) :
    (s.pendingSubscriptionOperations.delete operation.requestId).entries = [] := by
  show s.pendingSubscriptionOperations.entries.filter _ = []
  rw [h.entries]
  simp

/-- After a rejection, no operation is pending. -/
theorem Awaits.reject (h : s.Awaits socket operation) (hs : Consistent s) :
    Consistent (s.reject operation) ∧ (s.reject operation).Idle := by
  obtain ⟨hcleared, harmed⟩ := hs.timers.clear .subscriptionAck
  have hidle : (s.reject operation).Idle := ⟨h.delete_eq_nil, (harmed _).trans (if_pos rfl)⟩
  have hrunning := hs.running_of h.current
  refine ⟨{ hs with
    timers := hcleared
    reconnect := fun callback hcallback =>
      hs.reconnect callback ((harmed .reconnect).symm.trans hcallback)
    stopped := fun hstopped => absurd (hrunning.symm.trans hstopped) (by decide)
    stability := fun callback hcallback => hs.stability callback ((harmed _).symm.trans hcallback)
    retry := fun callback hcallback => ?_
    pending := Or.inl hidle }, hidle⟩
  obtain ⟨hsocket, -, hcode⟩ := hs.retry callback ((harmed _).symm.trans hcallback)
  exact ⟨hsocket, hidle.1, hcode⟩

/-- An answer keeps a source consistent, and no operation is pending after it. -/
theorem Answers.consistent {message : WireMessage} (h : Answers message s s') (hs : Consistent s) :
    Consistent s' ∧ s'.Idle ∧ s'.socket = s.socket ∧ s'.generation = s.generation := by
  cases h with
  | accepted symbols transitions h hid hdata =>
    obtain ⟨hrejected, hidle⟩ := h.reject hs
    refine ⟨{ hrejected with confirmed := fun hsocket => ?_, pending := Or.inl hidle },
      hidle, rfl, rfl⟩
    exact absurd (h.current.symm.trans hsocket) (Option.some_ne_none _)
  | rejected code text h hid hdata =>
    obtain ⟨hrejected, hidle⟩ := h.reject hs
    exact ⟨hrejected, hidle, rfl, rfl⟩

/-! ### Messages -/

/-- What comes of an acknowledgement. -/
theorem handleSubscriptionAck_moves {message : WireMessage} {action : AckAction}
    {symbols : List JsString}
    {transitions : Option (List JsString)} (hs : Consistent s) (hsocket : s.socket = some socket)
    (hdata : message.data = .ack action symbols transitions) :
    Moves cut s (s.handleSubscriptionAck outcomes action message.requestId s.generation) ∨
      ∃ s₁, Answers message s s₁ ∧
        Moves cut s₁ (s.handleSubscriptionAck outcomes action message.requestId s.generation) := by
  unfold handleSubscriptionAck
  split
  · -- No operation that matches is pending: the acknowledgement is only emitted.
    exact Or.inl (.single (.emit _ hsocket rfl))
  · next operation hoperation =>
    obtain ⟨hget, hmatches⟩ := Option.filter_eq_some_iff.1 hoperation
    obtain ⟨requestId, hid, hget⟩ := Option.bind_eq_some_iff.1 hget
    rw [Bool.and_eq_true, decide_eq_true_eq, decide_eq_true_eq] at hmatches
    obtain ⟨k, hawaits, rfl⟩ := hs.awaits_of_get hget
    have hanswers : Answers message s (s.accept operation) :=
      .accepted symbols transitions hawaits hid (by
      rw [hdata, hmatches.2])
    obtain ⟨hconsistent, -, -, -⟩ := hanswers.consistent hs
    refine Or.inr ⟨_, hanswers, ?_⟩
    have hemit : Move cut (s.accept operation).clearSubscriptionError
      ((s.accept operation).clearSubscriptionError.emit
        (.subscriptionAck operation.action operation.symbols s.generation
        (some operation.requestId))) :=
      .emit _ (clearSubscriptionError_socket.trans hsocket)
        (@clearSubscriptionError_generation (s.accept operation)).symm
    have hmoves := (clearSubscriptionError_moves hconsistent).tail hemit
    exact hmoves.trans (flushDesiredSymbols_moves (Moves.consistent hmoves hconsistent))

/-- What comes of an error. -/
theorem handleGatewayError_moves {message : WireMessage}
    {rawCode text : JsString} (hs : Consistent s)
    (hsocket : s.socket = some socket) (hdata : message.data = .error rawCode text) :
    Moves cut s (s.handleGatewayError rt outcomes rawCode message.requestId s.generation) ∨
      ∃ s₁, Answers message s s₁ ∧
        Moves cut s₁ (s.handleGatewayError rt outcomes rawCode message.requestId s.generation) := by
  unfold handleGatewayError
  cases hoperation : message.requestId.bind s.pendingSubscriptionOperations.get with
  | none =>
    have hemit := @Move.emit cut _ _ (.notice .error (rt.sanitizeGatewayCode rawCode)
      (js "The gateway reported an error (" ++ rt.sanitizeGatewayCode rawCode ++
      js ")") s.generation
      message.requestId) hsocket rfl
    -- An error that answers nothing is told, and set as the last one.
    exact Or.inl ((Relation.ReflTransGen.single hemit).tail (.report _ rfl (Or.inl rfl)))
  | some operation =>
    obtain ⟨requestId, hid, hget⟩ := Option.bind_eq_some_iff.1 hoperation
    obtain ⟨k, hawaits, rfl⟩ := hs.awaits_of_get hget
    have hanswers : Answers message s (s.reject operation) :=
      .rejected rawCode text hawaits hid hdata
    obtain ⟨hconsistent, hidle, -, -⟩ := hanswers.consistent hs
    -- The operation is off, and what follows is told and perhaps retried.
    refine Or.inr ⟨_, hanswers, ?_⟩
    dsimp only
    rw [if_pos hawaits.generation]
    have hemit : Move cut (s.reject operation)
      ((s.reject operation).emit (.notice .error (rt.sanitizeGatewayCode rawCode)
        (js "The gateway rejected the " ++ js operation.action.value ++ js " operation (" ++
          rt.sanitizeGatewayCode rawCode ++ js ")") s.generation message.requestId)) :=
          .emit _ hsocket rfl
    have hemitted := hemit.consistent hconsistent
    split_ifs
    · exact (Relation.ReflTransGen.single hemit).trans
        (scheduleSubscriptionRetry_moves hemitted hsocket hidle.1)
    · exact (Relation.ReflTransGen.single hemit).tail (.report _ rfl (Or.inl rfl))

/-- What comes of a message: moves, or an answer to the pending operation and then moves. -/
theorem emitWireMessage_moves (hs : Consistent s) (hsocket : s.socket = some socket)
    (message : WireMessage) :
    Moves cut s (s.emitWireMessage rt outcomes message s.generation) ∨
      ∃ s₁, Answers message s s₁ ∧
      Moves cut s₁ (s.emitWireMessage rt outcomes message s.generation) := by
  unfold emitWireMessage
  cases hdata : message.data with
  | ack action symbols transitions => exact handleSubscriptionAck_moves hs hsocket hdata
  | error code text => exact handleGatewayError_moves hs hsocket hdata
  | connected => exact Or.inl .refl
  | heartbeat => exact Or.inl .refl
  | _ => exact Or.inl (.single (.emit _ hsocket rfl))

/-- To arm the stability timer is a move. -/
theorem scheduleConnectionStability_moves (hs : Consistent s) (hsocket : s.socket = some socket) :
    Moves cut s (s.scheduleConnectionStability socket.id s.generation) := by
  unfold scheduleConnectionStability
  split_ifs with h
  · exact .refl
  · have hunarmed : s.timers.armed .connectionStability = none := by
      rw [← hs.field_eq_none_iff]
      simp only [ne_eq, Bool.or_eq_true, decide_eq_true_eq, not_or, not_not] at h
      exact h.2
    exact .single (.stability _ hsocket hunarmed)

/-- The timers that any message sets. -/
theorem watches_moves (hs : Consistent s) (hrunning : s.running = true)
    (hsocket : s.socket = some socket) :
    Moves cut s ((s.scheduleHeartbeatTimeout socket.id
    s.generation).scheduleConnectionStability socket.id
        s.generation) ∧
      ((s.scheduleHeartbeatTimeout socket.id s.generation).scheduleConnectionStability socket.id
          s.generation).socket = s.socket ∧
        ((s.scheduleHeartbeatTimeout socket.id s.generation).scheduleConnectionStability socket.id
          s.generation).generation = s.generation := by
  have hwatch : Move cut s (s.scheduleHeartbeatTimeout socket.id s.generation) :=
    .watch (.heartbeat socket.id s.generation) s.settings.heartbeatTimeoutMs.1 hrunning (Or.inr rfl)
  have hstability : Moves cut (s.scheduleHeartbeatTimeout socket.id s.generation)
      ((s.scheduleHeartbeatTimeout socket.id s.generation).scheduleConnectionStability
      socket.id s.generation) :=
    scheduleConnectionStability_moves (hwatch.consistent hs) hsocket
  refine ⟨(Relation.ReflTransGen.single hwatch).trans hstability, ?_⟩
  unfold scheduleConnectionStability
  split_ifs <;> exact ⟨rfl, rfl⟩

/-- A message is a move, or is one up to the answer it gives to a request and another one after it.
-/
theorem handleMessage_moves (hs : Consistent s) (id generation : ℕ) (parsed : Option WireMessage) :
    Moves cut s (s.handleMessage rt outcomes id generation parsed) ∨ ∃ message s₁ s₂,
    parsed = some message ∧
      Moves cut s s₁ ∧ s₁.socket = s.socket ∧ s.socket.map WebSocketLike.id = some id ∧
      s.generation = generation ∧
        Answers message s₁ s₂ ∧
        Moves cut s₂ (s.handleMessage rt outcomes id generation parsed) := by
  unfold handleMessage
  split_ifs with hcurrent
  · obtain ⟨hrunning, ⟨socket, hsocket, rfl⟩, rfl⟩ := isCurrentSocket_iff.1 hcurrent
    cases parsed with
    | none => exact Or.inl (.single (.emit _ hsocket rfl))
    | some message =>
      obtain ⟨hmoves, hkept⟩ := @watches_moves s socket cut hs hrunning hsocket
      have hemitted := @emitWireMessage_moves _ socket outcomes rt cut (Moves.consistent hmoves hs)
        (hkept.1.trans hsocket) message
      rw [hkept.2] at hemitted
      rcases hemitted with hplain | ⟨s₁, hanswers, hrest⟩
      · exact Or.inl (hmoves.trans hplain)
      · refine Or.inr ⟨message, _, s₁, rfl, hmoves, hkept.1, ?_, rfl, hanswers, hrest⟩
        rw [hsocket]
        rfl
  · exact Or.inl .refl

/-! ### Timers, and the calls of a source -/

/-- The failure of a socket is a move. -/
theorem handleSocketFailure_moves (id generation : ℕ) :
    Moves cut s (s.handleSocketFailure outcomes id generation code) := by
  by_cases hcurrent : s.isCurrentSocket id generation = true
  · obtain ⟨hrunning, ⟨socket, hsocket, rfl⟩, rfl⟩ := isCurrentSocket_iff.1 hcurrent
    exact .single (.fail true (Or.inl rfl) hsocket (handleSocketFailure_fails hrunning hsocket))
  · unfold handleSocketFailure
    rw [if_neg hcurrent]

/-- A ping is a move, and the source runs on. -/
theorem ping_moves : Moves cut s (s.ping outcomes) ∧ (s.ping outcomes).running = s.running := by
  unfold ping
  split
  · exact ⟨.refl, rfl⟩
  · next socket hsocket =>
    split_ifs with hcurrent
    · obtain ⟨hrunning, ⟨k, hk, -, hopened⟩, -⟩ := isCurrentOpenSocket_iff.1 hcurrent
      obtain rfl : socket = k := Option.some.inj (hsocket.symm.trans hk)
      have hcount := Relation.ReflTransGen.single (@Move.count cut s)
      rcases @sendCommand_cases { s with requestSequence := s.requestSequence + 1 } socket
        outcomes hrunning hsocket
        hopened (.ping (requestId "ping" s.generation (s.requestSequence + 1))) with hsent | hfails
      · have hsame := congrArg GatewayWebSocketSource.running hsent
        refine ⟨hcount.tail (Eq.subst (motive := Move cut _) hsent.symm ?_), hsame⟩
        exact .sendPing _ hsocket hopened
      · exact ⟨hcount.tail (.fail true (Or.inl rfl) hsocket hfails), hfails.running⟩
    · exact ⟨.refl, rfl⟩

/-- The timer of the next ping is set, if the source runs. -/
theorem schedulePing_moves (hrunning : s.running = true) (id generation : ℕ) :
    Moves cut s (s.schedulePing id generation) :=
  .single (.watch (.ping id generation) s.settings.pingIntervalMs.1 hrunning (Or.inl rfl))

/-- To arm the heartbeat timer is a move. -/
theorem scheduleHeartbeatTimeout_moves (hrunning : s.running = true) (id generation : ℕ) :
    Moves cut s (s.scheduleHeartbeatTimeout id generation) :=
  .single (.watch (.heartbeat id generation) s.settings.heartbeatTimeoutMs.1 hrunning (Or.inr rfl))

/-- Nothing that is sent stops a source. -/
theorem flushDesiredSymbols_running (hs : Consistent s) (hrunning : s.running = true) :
    (s.flushDesiredSymbols outcomes).running = true := by
  rcases flushDesiredSymbols_cases hs with ⟨-, heq⟩ | ⟨-, -, heq⟩ |
    ⟨socket, operation, hrequests, heq⟩
  · rw [heq]
    exact hrunning
  · rw [heq]
    unfold clearSubscriptionError
    split_ifs <;> exact hrunning
  · rw [heq]
    rcases @sendCommand_cases (s.addOperation socket.id operation) socket outcomes
      hrunning hrequests.current
      hrequests.opened operation.command with hsent | hfails
    · exact (congrArg GatewayWebSocketSource.running hsent).trans hrunning
    · exact hfails.running.trans hrunning

/-- A socket that opens is a move. -/
theorem handleOpen_moves (hs : Consistent s) (id generation : ℕ) :
    Moves cut s (s.handleOpen outcomes id generation) := by
  unfold handleOpen
  split_ifs with hcurrent
  · obtain ⟨hrunning, ⟨socket, hsocket, rfl⟩, rfl⟩ := isCurrentSocket_iff.1 hcurrent
    have hlive : Move cut s (s.setStatus ⟨.live, s.generation, s.reconnectAttempt, none, none⟩) :=
      .report _ rfl (Or.inr ⟨rfl, by rw [hsocket]; exact Option.some_ne_none socket⟩)
    have hreported := hlive.consistent hs
    have hflushed := @flushDesiredSymbols_running _ outcomes hreported hrunning
    have hmoves := (Relation.ReflTransGen.single hlive).trans
      (@flushDesiredSymbols_moves _ outcomes cut hreported)
    -- The timers are set even if the socket has been given up by a send that failed.
    refine (hmoves.trans (schedulePing_moves hflushed socket.id s.generation)).trans ?_
    exact scheduleHeartbeatTimeout_moves (by exact hflushed) _ _
  · exact .refl

/-- A socket is opened once the source has none. -/
theorem openSocket_moves (h : s.Disconnects s₀) (isReconnect : Bool) :
    Moves cut s (s₀.openSocket outcomes isReconnect) := by
  rcases @openSocket_cases s₀ outcomes h.running h.noSocket isReconnect with hconnects | hmisses
  · exact .single (.connect h hconnects)
  · exact .single (.miss true (Or.inl rfl) h hmisses)

/-- What a timer does that is neither the one of a reconnect nor the one of an operation. -/
theorem goOff_moves_of_ne {callback : TimerCallback} (hs : Consistent s)
    (hkind : callback.kind ≠ .reconnect ∧ callback.kind ≠ .subscriptionAck) :
    Moves cut s (s.goOff outcomes callback) := by
  cases callback with
  | reconnect => exact absurd rfl hkind.1
  | subscriptionAck => exact absurd rfl hkind.2
  | ping id generation =>
    unfold goOff
    dsimp only
    split_ifs with hcurrent
    · obtain ⟨hmoves, hrunning⟩ := @ping_moves s outcomes cut
      exact hmoves.trans (schedulePing_moves
        (hrunning.trans (isCurrentOpenSocket_iff.1 hcurrent).1) id generation)
    · exact .refl
  | heartbeat id generation =>
    unfold goOff
    dsimp only
    split_ifs
    · exact handleSocketFailure_moves id generation
    · exact .refl
  | connectionStability id generation =>
    unfold goOff
    dsimp only
    split_ifs with hcurrent
    · obtain ⟨hrunning, ⟨socket, hsocket, -, -⟩, rfl⟩ := isCurrentOpenSocket_iff.1 hcurrent
      -- The socket has held, so the attempts are counted anew.
      refine (Relation.ReflTransGen.single (.steady hsocket)).tail ?_
      exact .report _ rfl (Or.inr ⟨rfl, hsocket ▸ Option.some_ne_none socket⟩)
    · exact .refl
  | subscriptionRetry generation code =>
    unfold goOff
    dsimp only
    split_ifs with hstale
    · exact .refl
    · obtain ⟨-, hgeneration⟩ : s.running = true ∧
        generation = s.generation := by simpa using hstale
      -- The error that is retried is told first.
      have hreport : Move cut s (s.setStatus
          ⟨s.status.state, generation, s.status.reconnectAttempt, none, some code⟩) :=
        .report _ hgeneration (Or.inl rfl)
      exact (Relation.ReflTransGen.single hreport).trans
        (flushDesiredSymbols_moves (hreport.consistent hs))

/-- When the timer of a reconnect goes off, there is no socket, and nothing else is armed that
depends on one. -/
theorem Consistent.disconnects_of_reconnect {handle generation : ℕ} (hs : Consistent s)
    (hcallback : s.timers.scheduler.callback handle = some (.reconnect generation)) :
    s.Disconnects { s with timers := s.timers.goOff handle .reconnect } := by
  obtain ⟨hruns, hnoSocket, -⟩ := hs.reconnect _ (hs.timers.armed_of_callback hcallback)
  refine ⟨hruns, hnoSocket, rfl, rfl, rfl, rfl, Or.inl rfl, fun hagrees => ?_⟩
  obtain ⟨hgone, hrest⟩ := hagrees.goOff hcallback
  refine ⟨hgone, (hrest _).trans (if_pos rfl),
    (hrest _).trans ((if_neg fun h => by cases h).trans ?_)⟩
  rw [Option.eq_none_iff_forall_not_mem]
  intro c hc
  obtain ⟨socket, hsocket, -⟩ := hs.stability c hc
  rw [hnoSocket] at hsocket
  cases hsocket

/-- The timer of an operation is armed for the pending one. -/
theorem Consistent.awaits_of_armed {callback : TimerCallback} (hs : Consistent s)
    (harmed : s.timers.armed .subscriptionAck = some callback) : ∃ socket operation,
      s.Awaits socket operation ∧
      callback = .subscriptionAck socket.id s.generation operation.requestId := by
  rcases hs.pending with hidle | ⟨socket, operation, hawaits⟩
  · rw [hidle.2] at harmed
    cases harmed
  · exact ⟨socket, operation, hawaits, hawaits.timer callback harmed⟩

/-- The pending operation is what its identifier gives. -/
theorem Awaits.get (h : s.Awaits socket operation) :
    s.pendingSubscriptionOperations.get operation.requestId = some operation := by
  show InsertionMap.lookup operation.requestId s.pendingSubscriptionOperations.entries =
    some operation
  rw [h.entries]
  exact if_pos rfl

/-- What comes of a timer that goes off. -/
theorem goOff_moves {handle : ℕ} {callback : TimerCallback} (hs : Consistent s)
    (hcallback : s.timers.scheduler.callback handle = some callback) :
    Moves cut s ({ s with timers := s.timers.goOff handle callback.kind }.goOff
    outcomes callback) := by
  have harmed := hs.timers.armed_of_callback hcallback
  by_cases hreconnect : callback.kind = .reconnect
  · -- Without a socket, the next one is opened.
    rw [hreconnect] at harmed
    obtain ⟨hruns, hnoSocket, rfl⟩ := hs.reconnect callback harmed
    unfold goOff
    dsimp only
    rw [if_neg (by simp [hruns])]
    exact openSocket_moves (hs.disconnects_of_reconnect hcallback) true
  by_cases hack : callback.kind = .subscriptionAck
  · rw [hack] at harmed
    obtain ⟨socket, operation, hawaits, rfl⟩ := hs.awaits_of_armed harmed
    have hrunning := hs.running_of hawaits.current
    unfold goOff
    dsimp only
    split_ifs with hcurrent
    · rw [hawaits.get, Option.filter_some, if_pos (by simpa using hawaits.generation)]
      exact .single (.timeout handle _ true (Or.inl rfl) hawaits hcallback rfl
        (handleSocketFailure_fails hrunning hawaits.current))
    · refine .single (.expire handle _ hcallback (fun h => by cases h) fun _ =>
        Or.inr fun k hk hopened =>
        hcurrent ?_)
      exact isCurrentOpenSocket_iff.2 ⟨hrunning, ⟨k, hk, by
        rw [Option.some.inj (hk.symm.trans hawaits.current)], hopened⟩, rfl⟩
  · have hexpire : Move cut s { s with timers := s.timers.goOff handle callback.kind } :=
      .expire handle callback hcallback hreconnect fun h => absurd h hack
    exact (Relation.ReflTransGen.single hexpire).trans
      (goOff_moves_of_ne (hexpire.consistent hs) ⟨hreconnect, hack⟩)

/-- A stop is a move. -/
theorem stop_moves : Moves cut s s.stop := .single .stop

/-- A source that does not run has no socket, and nothing is armed. -/
theorem Consistent.disconnects_of_start (hs : Consistent s) (hrunning : s.running = false) :
    s.Disconnects { s with running := true, reconnectAttempt := 0 } := by
  have hnone := hs.stopped hrunning
  have hsocket : s.socket = none := by
    by_contra hsocket
    exact absurd ((hs.running hsocket).symm.trans hrunning) (by decide)
  exact ⟨rfl, hsocket, rfl, rfl, rfl, rfl, Or.inl rfl, fun hagrees => ⟨hagrees, hnone _, hnone _⟩⟩

/-- A start is a move. -/
theorem start_moves (hs : Consistent s) : Moves cut s (s.start outcomes) := by
  unfold start
  split_ifs with hrunning
  · exact .refl
  · exact openSocket_moves (hs.disconnects_of_start (Bool.not_eq_true _ ▸ hrunning)) false

/-- A source that reconnects gives its socket up, and its timers. -/
theorem disconnects_of_reconnectNow (hrunning : s.running = true) : s.Disconnects
    ({ s.clearTimers with reconnectAttempt := 0 }.dropSocket 1012 "client reconnect") := by
  obtain ⟨output, heq, houtput⟩ :=
    dropSocket_eq { s.clearTimers with reconnectAttempt := 0 } 1012 "client reconnect"
  rw [heq]
  refine ⟨hrunning, rfl, rfl, rfl, rfl, rfl, houtput, fun hagrees => ?_⟩
  obtain ⟨hcleared, harmed⟩ :=
    hagrees.foldl_clear [.reconnect, .ping, .heartbeat, .connectionStability, .subscriptionAck,
    .subscriptionRetry, .subscriptionAck, .subscriptionRetry]
  exact ⟨hcleared, harmed .reconnect, harmed .connectionStability⟩

/-- A reconnect is a move. -/
theorem reconnectNow_moves : Moves cut s (s.reconnectNow outcomes) := by
  unfold reconnectNow
  split_ifs with hrunning
  · exact openSocket_moves (disconnects_of_reconnectNow hrunning) true
  · exact .refl

/-- New symbols are a move. -/
theorem replaceSymbols_moves (hs : Consistent s) (symbols : List JsString) :
    Moves cut s (s.replaceSymbols rt outcomes symbols) := by
  unfold replaceSymbols
  dsimp only
  split_ifs with hsame hdone
  · exact .refl
  all_goals
    have hdesire := @Move.desire cut s (rt.normalizeSymbols symbols)
      (Or.inr rt.pairwise_normalizeSymbols)
    have hdesired := hdesire.consistent hs
    have hcleared := @clearSubscriptionError_moves _ cut hdesired
    have hmoves := (Relation.ReflTransGen.single hdesire).trans hcleared
    have hconsistent := Moves.consistent hmoves hs
  · have hagain (t : GatewayWebSocketSource) :
        Move cut t { t.clearTimer .subscriptionRetry with subscriptionRetryAttempt := 0 } :=
      .desire t.desiredSymbols (Or.inl rfl)
    exact (hmoves.tail (hagain _)).trans
      (clearSubscriptionError_moves ((hagain _).consistent hconsistent))
  · exact hmoves.trans (flushDesiredSymbols_moves hconsistent)

/-! ## Steps -/

/-- What comes of an action: moves, or moves around an answer to the pending operation, which is a
message of the current socket. -/
def Comes (cut : Bool) (action : SourceAction) (s s' : GatewayWebSocketSource) : Prop :=
  Moves cut s s' ∨ ∃ n message s₁ s₂, action = .message n s.generation (some message) ∧
    s.socket.map WebSocketLike.id = some n ∧ Moves cut s s₁ ∧ s₁.socket = s.socket ∧
    Answers message s₁ s₂ ∧
      Moves cut s₂ s'

/-- An action of the source's users keeps it consistent. -/
theorem Comes.consistent {action : SourceAction} (h : Comes cut action s s') (hs : Consistent s) :
    Consistent s' := by
  rcases h with hmoves | ⟨id, message, s₁, s₂, -, -, hbefore, -, hanswers, hafter⟩
  · exact Moves.consistent hmoves hs
  · obtain ⟨hconsistent, -⟩ := hanswers.consistent (Moves.consistent hbefore hs)
    exact Moves.consistent hafter hconsistent

/-- What comes of a step. -/
theorem step_comes {action : SourceAction} (cut : Bool) (hs : Consistent s)
    (hstep : s.step rt (action, outcomes) = some s') : Comes cut action s s' := by
  cases action with
  | start =>
    obtain rfl := Option.some.inj hstep
    exact Or.inl (start_moves hs)
  | stop =>
    obtain rfl := Option.some.inj hstep
    exact Or.inl stop_moves
  | reconnectNow =>
    obtain rfl := Option.some.inj hstep
    exact Or.inl reconnectNow_moves
  | replaceSymbols symbols =>
    obtain rfl := Option.some.inj hstep
    exact Or.inl (replaceSymbols_moves hs symbols)
  | ping =>
    obtain rfl := Option.some.inj hstep
    exact Or.inl ping_moves.1
  | opened id generation =>
    obtain rfl := Option.some.inj hstep
    exact Or.inl (handleOpen_moves hs id generation)
  | message id generation parsed =>
    obtain rfl := Option.some.inj hstep
    -- Only a message answers the pending operation.
    refine (handleMessage_moves hs id generation parsed).imp (fun h => h) ?_
    rintro ⟨message, s₁, s₂, rfl, hmoves, hsocket, hid, rfl, hanswers, hrest⟩
    exact ⟨id, message, s₁, s₂, rfl, hid, hmoves, hsocket, hanswers, hrest⟩
  | failed id generation =>
    obtain rfl := Option.some.inj hstep
    exact Or.inl (handleSocketFailure_moves id generation)
  | closed id generation =>
    obtain rfl := Option.some.inj hstep
    exact Or.inl (handleSocketFailure_moves id generation)
  | timer handle =>
    obtain ⟨callback, hcallback, rfl⟩ := Option.map_eq_some_iff.1 hstep
    exact Or.inl (goOff_moves hs hcallback)
  | advance readyState =>
    obtain ⟨socket, hsocket, hadvance⟩ := Option.bind_eq_some_iff.1 hstep
    split_ifs at hadvance with hlt
    obtain rfl := Option.some.inj hadvance
    exact Or.inl (.single (.advance readyState hsocket hlt))

/-- A step keeps the source consistent. -/
theorem step_consistent {a : SourceAction × Outcomes} (hs : Consistent s)
    (hstep : s.step rt a = some s') :
    Consistent s' :=
  (step_comes false hs hstep).consistent hs

/-- A new source has no socket, and nothing is armed, pending or put out. -/
theorem new_spec {options : SourceOptions} (h : new options = .ok s) :
    s.socket = none ∧ s.timers = .empty ∧ s.confirmedSymbols = [] ∧
    s.pendingSubscriptionOperations.entries = [] ∧
      s.generation = 0 ∧ s.running = false ∧ s.status = ⟨.idle, 0, 0, none, none⟩ ∧
      s.sockets = 0 ∧ s.output = [] := by
  unfold new at h
  cases hsettings : options.settings with
  | error => simp [hsettings] at h
  | ok settings =>
    rw [hsettings] at h
    obtain rfl := Except.ok.inj h
    exact ⟨rfl, rfl, rfl, rfl, rfl, rfl, rfl, rfl, rfl⟩

/-- A new source is consistent. -/
theorem consistent_new {options : SourceOptions} (h : new options = .ok s) : Consistent s := by
  obtain ⟨hsocket, htimers, hconfirmed, hpending, hgeneration, hrunning, hstatus, -, -⟩ :=
    new_spec h
  have hnone (kind : TimerKind) : s.timers.armed kind = none := by
    rw [htimers]
    rfl
  constructor
  case timers =>
    rw [htimers]
    exact TimerFields.agrees_empty
  case generation => rw [hstatus, hgeneration]
  case state => simp [hrunning, hstatus]
  case live => simp [hstatus]
  case running => exact fun hne => absurd hsocket hne
  case made => simp [hsocket]
  case reconnect => simp [hnone]
  case stopped => exact fun _ => hnone
  case stability => simp [hnone]
  case retry => simp [hnone]
  case confirmed => exact fun _ => hconfirmed
  case pending => exact Or.inl ⟨hpending, hnone _⟩

/-- In every run, what is armed, pending and confirmed belongs to the current socket and
generation. -/
theorem consistent_of_path {options : SourceOptions} (hnew : new options = .ok s₀)
    (h : Path (step rt) anyStep s₀ s) : Consistent s :=
  h.invariant Consistent (consistent_new hnew) fun _ _ _ hs _ hstep => step_consistent hs hstep

end GatewayWebSocketSource

end MarketDataGateway.MarketData

import MarketDataGateway.MarketData.SourceSession

/-!
# What a source attempts

A source asks for the symbols that are desired: an operation is pending, or is about to be retried,
or there is nothing to ask for (`Attended`). Each call that changes what is desired or confirmed, or
opens a socket, ends with `flushDesiredSymbols`, which sees to that (`flushDesiredSymbols_attends`),
except the one that takes a terminal error. `Attempts` records whether other symbols have been
desired since the operation was sent that such an error has answered. As long as none has been, the
source forgets no change (`attempted_run`).
-/

namespace MarketDataGateway.MarketData

open Lib

/-! ## Symbols in order -/

/-- What is confirmed comes in order, each symbol once. -/
theorem GatewayWebSocketSource.pairwise_confirm (confirmed : List JsString)
    (operation : PendingSubscriptionOperation) :
    (GatewayWebSocketSource.confirm confirmed operation).Pairwise (· < ·) := by
  unfold GatewayWebSocketSource.confirm
  refine pairwise_lt_insertionSort ?_
  have hnodup := nodup_eraseDups confirmed
  generalize confirmed.eraseDups = held at hnodup
  induction operation.symbols generalizing held with
  | nil => exact hnodup
  | cons symbol symbols ih =>
    refine ih _ ?_
    cases operation.action with
    | subscribe =>
      dsimp only
      split_ifs with hmem
      · exact hnodup
      · exact List.nodup_append.2 ⟨hnodup, List.nodup_singleton symbol, by
          rintro a ha b hb rfl
          exact hmem (List.mem_singleton.1 hb ▸ ha)⟩
    | unsubscribe => exact hnodup.filter _

namespace GatewayWebSocketSource

variable {s s' s₀ : GatewayWebSocketSource} {socket : WebSocketLike} {rt : Browser}
  {options : SourceOptions}
  {outcomes : Outcomes} {code : JsString} {action : SourceAction}
    {cut late : Bool} {last : Option ℕ}

/-- The desired and the confirmed symbols come in order, each once. -/
structure Sorted (s : GatewayWebSocketSource) : Prop where
  desired : s.desiredSymbols.Pairwise (· < ·)
  confirmed : s.confirmedSymbols.Pairwise (· < ·)

/-- In order, the same symbols are the same list. -/
theorem Sorted.eq (h : s.Sorted) (hsame : ∀ symbol, symbol ∈ s.confirmedSymbols ↔
    symbol ∈ s.desiredSymbols) :
    s.confirmedSymbols = s.desiredSymbols :=
  eq_of_pairwise_lt_of_mem_iff (f := id) h.confirmed h.desired hsame

/-- Nothing is confirmed on a socket that has been given up. -/
theorem Sorted.of_nil (h : s.Sorted) (hdesired : s'.desiredSymbols = s.desiredSymbols)
    (hconfirmed : s'.confirmedSymbols = []) : s'.Sorted where
  desired := hdesired ▸ h.desired
  confirmed := hconfirmed ▸ .nil

/-- A new source desires nothing. -/
theorem new_symbols (h : new options = .ok s) :
    s.desiredSymbols = [] ∧ s.confirmedSymbols = [] := by
  unfold new at h
  cases hsettings : options.settings with
  | error => simp [hsettings] at h
  | ok settings =>
    rw [hsettings] at h
    obtain rfl := Except.ok.inj h
    exact ⟨rfl, rfl⟩

/-- A source that is stopped desires what it has desired. -/
theorem stop_symbols (s : GatewayWebSocketSource) :
    s.stop = s ∨ s.stop.desiredSymbols = s.desiredSymbols ∧ s.stop.confirmedSymbols = [] := by
  unfold GatewayWebSocketSource.stop
  split_ifs
  · exact Or.inl rfl
  · obtain ⟨output, heq, -⟩ := dropSocket_eq
      ({ s with running := false, generation := s.generation + 1 }.clearTimers)
      1000 "client stopped"
    dsimp only
    rw [heq]
    exact Or.inr ⟨rfl, rfl⟩

/-- Each move keeps the symbols in order. -/
theorem Move.sorted (h : Move cut s s') (hs : s.Sorted) : s'.Sorted := by
  cases h with
  | refuse waits hwaits h hfails => exact hs.of_nil hfails.desired hfails.confirmed
  | fail waits hwaits hsocket hfails => exact hs.of_nil hfails.desired hfails.confirmed
  | desire symbols hsymbols =>
    refine ⟨?_, hs.confirmed⟩
    rcases hsymbols with rfl | hsorted
    · exact hs.desired
    · exact hsorted
  | connect h hconnects => exact hs.of_nil (hconnects.desired.trans h.desired) hconnects.confirmed
  | miss waits hwaits h hmisses =>
    exact hs.of_nil (hmisses.desired.trans h.desired) hmisses.confirmed
  | stop =>
    rcases stop_symbols s with heq | ⟨hdesired, hconfirmed⟩
    · rw [heq]
      exact hs
    · exact hs.of_nil hdesired hconfirmed
  | timeout handle event waits hwaits h hcallback hgeneration hfails =>
    exact hs.of_nil hfails.desired hfails.confirmed
  | _ => exact ⟨hs.desired, hs.confirmed⟩

/-- So do the moves of a call. -/
theorem Moves.sorted (h : Moves cut s s') (hs : s.Sorted) : s'.Sorted := by
  induction h with
  | refl => exact hs
  | tail _ hmove ih => exact hmove.sorted ih

/-- An answer confirms symbols in order. -/
theorem Answers.sorted {message : WireMessage} (h : Answers message s s')
    (hs : s.Sorted) : s'.Sorted := by
  cases h with
  | accepted => exact ⟨hs.desired, pairwise_confirm _ _⟩
  | rejected => exact ⟨hs.desired, hs.confirmed⟩

/-- What comes of an action keeps the symbols in order. -/
theorem Comes.sorted (h : Comes cut action s s') (hs : s.Sorted) : s'.Sorted := by
  rcases h with hmoves | ⟨n, message, s₁, s₂, -, -, hbefore, -, hanswers, hafter⟩
  · exact Moves.sorted hmoves hs
  · exact Moves.sorted hafter (hanswers.sorted (Moves.sorted hbefore hs))

/-! ## Sockets that have been heard to open -/

/-- The socket whose open callback has run last is open or has been, and has been made. -/
structure Heard (last : Option ℕ) (s : GatewayWebSocketSource) : Prop where
  made : ∀ n ∈ last, n < s.sockets
  opened : ∀ socket ∈ s.socket, last = some socket.id →
    ReadyState.opened.value ≤ socket.readyState.value

/-- The socket has been given up, or has stayed as it was. -/
theorem Heard.same (h : Heard last s) (hsockets : s'.sockets = s.sockets)
    (hsocket : s'.socket = none ∨ s'.socket = s.socket) : Heard last s' where
  made n hn := hsockets ▸ h.made n hn
  opened k hk hheard := by
    rcases hsocket with hnone | hsame
    · exact absurd (hk.symm.trans hnone) (Option.some_ne_none k)
    · exact h.opened k (hsame ▸ hk) hheard

/-- A socket that is made has not been heard before, and an open one does not go back. -/
theorem Move.heard (h : Move cut s s') (hs : Heard last s) : Heard last s' := by
  cases h with
  | refuse waits hwaits h hfails => exact hs.same hfails.sockets (Or.inl hfails.noSocket)
  | fail waits hwaits hsocket hfails => exact hs.same hfails.sockets (Or.inl hfails.noSocket)
  | connect h hconnects =>
    refine ⟨fun n hn => ?_, fun k hk hheard => ?_⟩
    · rw [hconnects.sockets, h.sockets]
      exact (hs.made n hn).trans (Nat.lt_succ_self _)
    · obtain rfl := Option.some.inj (hconnects.socket.symm.trans hk)
      exact absurd (h.sockets ▸ hs.made _ hheard) (lt_irrefl _)
  | miss waits hwaits h hmisses =>
    exact hs.same (hmisses.sockets.trans h.sockets) (Or.inl hmisses.noSocket)
  | stop =>
    rcases stop_cases s with heq | ⟨hnone, hsockets, -⟩
    · rw [heq]
      exact hs
    · exact hs.same hsockets (Or.inl hnone)
  | timeout handle event waits hwaits h hcallback hgeneration hfails =>
    exact hs.same hfails.sockets (Or.inl hfails.noSocket)
  | @advance socket readyState hsocket hlt =>
    refine ⟨hs.made, fun k hk hheard => ?_⟩
    obtain rfl := Option.some.inj hk
    exact (hs.opened socket hsocket hheard).trans hlt.le
  | _ => exact hs.same rfl (Or.inr rfl)

/-- So with the moves of a call. -/
theorem Moves.heard (h : Moves cut s s') (hs : Heard last s) : Heard last s' := by
  induction h with
  | refl => exact hs
  | tail _ hmove ih => exact hmove.heard ih

/-- And with what comes of an action. -/
theorem Comes.heard (h : Comes cut action s s') (hs : Heard last s) : Heard last s' := by
  rcases h with hmoves | ⟨n, message, s₁, s₂, -, -, hbefore, -, hanswers, hafter⟩
  · exact Moves.heard hmoves hs
  · have hheard := Moves.heard hbefore hs
    refine Moves.heard hafter ?_
    cases hanswers with
    | accepted => exact hheard.same rfl (Or.inr rfl)
    | rejected => exact hheard.same rfl (Or.inr rfl)

/-! ## What is desired is attended to -/

/-- No socket is open. -/
def Shut (s : GatewayWebSocketSource) : Prop := ∀ socket ∈ s.socket, socket.readyState ≠ .opened

/-- An operation is pending, or is about to be retried, or there is nothing to ask for. -/
def Attended (s : GatewayWebSocketSource) : Prop :=
  s.pendingSubscriptionOperations.entries ≠ [] ∨ s.timers.armed .subscriptionRetry ≠ none ∨
    s.confirmedSymbols = s.desiredSymbols

/-- Nothing has changed of what is asked for. -/
structure Alike (s s' : GatewayWebSocketSource) : Prop where
  socket : s'.socket = s.socket
  pending : s'.pendingSubscriptionOperations.entries = s.pendingSubscriptionOperations.entries
  retry : s'.timers.armed .subscriptionRetry = s.timers.armed .subscriptionRetry
  confirmed : s'.confirmedSymbols = s.confirmedSymbols
  desired : s'.desiredSymbols = s.desiredSymbols

/-- Nothing has changed at all. -/
theorem Alike.refl (s : GatewayWebSocketSource) : Alike s s := ⟨rfl, rfl, rfl, rfl, rfl⟩

/-- Sources alike to one source are alike. -/
theorem Alike.trans {t : GatewayWebSocketSource} (h : Alike s s') (h' : Alike s' t) : Alike s t :=
  ⟨h'.socket.trans h.socket, h'.pending.trans h.pending, h'.retry.trans h.retry,
    h'.confirmed.trans h.confirmed, h'.desired.trans h.desired⟩

/-- What has been shut or attended to stays so. -/
theorem Alike.settled (h : Alike s s') (hs : s.Shut ∨ s.Attended) : s'.Shut ∨ s'.Attended := by
  unfold Shut Attended at *
  rw [h.socket, h.pending, h.retry, h.confirmed, h.desired]
  exact hs

/-- A status leaves a source alike. -/
theorem alike_setStatus (status : SourceStatus) : Alike s (s.setStatus status) :=
  ⟨rfl, rfl, rfl, rfl, rfl⟩

/-- An event leaves a source alike. -/
theorem alike_emit (event : SourceEvent) : Alike s (s.emit event) := ⟨rfl, rfl, rfl, rfl, rfl⟩

/-- A subscription error that is cleared leaves a source alike. -/
theorem alike_clearSubscriptionError : Alike s s.clearSubscriptionError := by
  unfold clearSubscriptionError
  split_ifs
  · exact alike_setStatus _
  · exact .refl s

/-- The timers of pings and heartbeats have no part in it. -/
theorem alike_watch (hs : Consistent s) (callback : TimerCallback) (delayMs : ℚ)
    (hkind : callback.kind = .ping ∨ callback.kind = .heartbeat) :
    Alike s ((s.clearTimer callback.kind).setTimer callback delayMs) := by
  obtain ⟨-, harmed⟩ := hs.timers.clear_assign [callback.kind] callback delayMs
    (Or.inl (List.mem_singleton.2 rfl))
  refine ⟨rfl, rfl, (harmed .subscriptionRetry).trans ?_, rfl, rfl⟩
  rcases hkind with hkind | hkind <;> simp [hkind]

/-- Nor have the others, other than that of a retry. -/
theorem alike_expire (hs : Consistent s) {handle : ℕ} {callback : TimerCallback}
    (hcallback : s.timers.scheduler.callback handle = some callback)
    (hkind : callback.kind ≠ .subscriptionRetry) :
    Alike s { s with timers := s.timers.goOff handle callback.kind } :=
  ⟨rfl, rfl, ((hs.timers.goOff hcallback).2 _).trans (if_neg hkind.symm), rfl, rfl⟩

/-- The timers that any message sets have no part in it, either. -/
theorem alike_watches (hs : Consistent s) (hrunning : s.running = true) :
    Alike s ((s.scheduleHeartbeatTimeout socket.id
    s.generation).scheduleConnectionStability socket.id
      s.generation) := by
  have hwatch : Move false s (s.scheduleHeartbeatTimeout socket.id s.generation) :=
    .watch (.heartbeat socket.id s.generation) s.settings.heartbeatTimeoutMs.1 hrunning (Or.inr rfl)
  have hset : Alike s (s.scheduleHeartbeatTimeout socket.id s.generation) :=
    alike_watch hs (.heartbeat socket.id s.generation) _ (Or.inr rfl)
  refine hset.trans ?_
  have hconsistent := hwatch.consistent hs
  generalize s.scheduleHeartbeatTimeout socket.id s.generation = t at hconsistent ⊢
  unfold scheduleConnectionStability
  split_ifs with hset
  · exact .refl t
  · simp only [ne_eq, Bool.or_eq_true, decide_eq_true_eq, not_or, not_not] at hset
    have hunarmed := hconsistent.field_eq_none_iff.1 hset.2
    obtain ⟨-, harmed⟩ := hconsistent.timers.assign
      (c := TimerCallback.connectionStability socket.id s.generation) hunarmed
      t.settings.connectionStabilityMs.1
    exact ⟨rfl, rfl, (harmed _).trans (if_neg fun h => by cases h), rfl, rfl⟩

/-! ### Calls after which no socket is open -/

/-- A source without a socket is shut. -/
theorem shut_of_none (h : s.socket = none) : s.Shut :=
  fun k hk => absurd (hk.symm.trans h) (Option.some_ne_none k)

/-- A socket that has just been made is not open. -/
theorem openSocket_shut (h : s.Disconnects s₀) (isReconnect : Bool) :
    (s₀.openSocket outcomes isReconnect).Shut := by
  rcases @openSocket_cases s₀ outcomes h.running h.noSocket isReconnect with hconnects | hmisses
  · intro k hk
    obtain rfl := Option.some.inj (hconnects.socket.symm.trans hk)
    exact fun h => by cases h
  · exact shut_of_none hmisses.noSocket

/-- A socket that fails is given up. -/
theorem handleSocketFailure_settled (id generation : ℕ) :
    s.handleSocketFailure outcomes id generation code = s ∨
    (s.handleSocketFailure outcomes id generation code).Shut := by
  by_cases hcurrent : s.isCurrentSocket id generation = true
  · obtain ⟨hrunning, ⟨socket, hsocket, rfl⟩, rfl⟩ := isCurrentSocket_iff.1 hcurrent
    exact Or.inr (shut_of_none (handleSocketFailure_fails hrunning hsocket).noSocket)
  · exact Or.inl (if_neg hcurrent)

/-- A ping is sent, or the socket is given up. -/
theorem ping_settled : Alike s (s.ping outcomes) ∨ (s.ping outcomes).Shut := by
  unfold ping
  split
  · exact Or.inl (.refl s)
  · next socket hsocket =>
    split_ifs with hcurrent
    · obtain ⟨hrunning, ⟨k, hk, -, hopened⟩, -⟩ := isCurrentOpenSocket_iff.1 hcurrent
      obtain rfl : socket = k := Option.some.inj (hsocket.symm.trans hk)
      rcases @sendCommand_cases { s with requestSequence := s.requestSequence + 1 } socket
        outcomes hrunning hsocket
        hopened (.ping (requestId "ping" s.generation (s.requestSequence + 1))) with hsent | hfails
      · refine Or.inl (Eq.subst (motive := Alike s) hsent.symm ?_)
        exact ⟨rfl, rfl, rfl, rfl, rfl⟩
      · exact Or.inr (shut_of_none hfails.noSocket)
    · exact Or.inl (.refl s)

/-! ### Calls that see to what is desired -/

/-- After `flushDesiredSymbols`, what is desired is attended to. -/
theorem flushDesiredSymbols_attends (hs : Consistent s) (hsorted : s.Sorted) :
    (s.flushDesiredSymbols outcomes).Shut ∨ (s.flushDesiredSymbols outcomes).Attended := by
  rcases @flushDesiredSymbols_cases s outcomes hs with ⟨hbusy, heq⟩ | ⟨-, hsame, heq⟩ |
    ⟨socket, operation, hrequests, heq⟩
  · rw [heq]
    by_cases hpending : s.pendingSubscriptionOperations.entries = []
    · by_cases hretry : s.timers.armed .subscriptionRetry = none
      · exact Or.inl fun k hk hopened => hbusy ⟨hpending, hretry, k, hk, hopened⟩
      · exact Or.inr (Or.inr (Or.inl hretry))
    · exact Or.inr (Or.inl hpending)
  · rw [heq]
    exact alike_clearSubscriptionError.settled (Or.inr (Or.inr (Or.inr (hsorted.eq hsame))))
  · have hrunning : (s.addOperation socket.id operation).running = true :=
      hs.running_of hrequests.current
    rcases @sendCommand_cases _ socket outcomes hrunning hrequests.current
      hrequests.opened operation.command
      with hsent | hfails
    · refine Or.inr (Or.inl ?_)
      rw [heq]
      refine Eq.subst (motive := fun t =>
        t.pendingSubscriptionOperations.entries ≠ []) hsent.symm ?_
      show (s.addOperation socket.id operation).pendingSubscriptionOperations.entries ≠ []
      rw [(hrequests.awaits hs).entries]
      exact List.cons_ne_nil _ _
    · rw [heq]
      exact Or.inl (shut_of_none hfails.noSocket)

/-- After an open callback, too. -/
theorem handleOpen_settled (hs : Consistent s) (hsorted : s.Sorted) (id generation : ℕ) :
    ¬s.isCurrentSocket id generation = true ∧ s.handleOpen outcomes id generation = s ∨
      (s.handleOpen outcomes id generation).Shut ∨
      (s.handleOpen outcomes id generation).Attended := by
  unfold handleOpen
  split_ifs with hcurrent
  · dsimp only
    obtain ⟨hrunning, ⟨socket, hsocket, rfl⟩, rfl⟩ := isCurrentSocket_iff.1 hcurrent
    have hlive : Move false s (s.setStatus ⟨.live, s.generation, s.reconnectAttempt, none, none⟩) :=
      .report _ rfl (Or.inr ⟨rfl, by rw [hsocket]; exact Option.some_ne_none socket⟩)
    have hreported := hlive.consistent hs
    have hflushed := @flushDesiredSymbols_attends _ outcomes hreported (hlive.sorted hsorted)
    have hconsistent := Moves.consistent
      (@flushDesiredSymbols_moves _ outcomes false hreported) hreported
    have hruns := @flushDesiredSymbols_running _ outcomes hreported hrunning
    generalize (s.setStatus ⟨.live, s.generation, s.reconnectAttempt, none,
      none⟩).flushDesiredSymbols outcomes = t
      at hflushed hconsistent hruns
    have hping : Move false t (t.schedulePing socket.id s.generation) :=
      .watch (.ping socket.id s.generation) t.settings.pingIntervalMs.1 hruns (Or.inl rfl)
    have hset : Alike t (t.schedulePing socket.id s.generation) :=
      alike_watch hconsistent (.ping socket.id s.generation) _ (Or.inl rfl)
    exact Or.inr ((hset.trans (alike_watch (hping.consistent hconsistent)
      (.heartbeat socket.id s.generation) _ (Or.inr rfl))).settled hflushed)
  · exact Or.inl ⟨hcurrent, rfl⟩

/-- After other symbols have been asked for, too. -/
theorem replaceSymbols_settled (hs : Consistent s) (hsorted : s.Sorted) (symbols : List JsString) :
    s.replaceSymbols rt outcomes symbols = s ∨
      (s.replaceSymbols rt outcomes symbols).Shut ∨
      (s.replaceSymbols rt outcomes symbols).Attended := by
  unfold replaceSymbols
  dsimp only
  split_ifs with hsame hdone
  · exact Or.inl rfl
  all_goals
    have hdesire := @Move.desire false s (rt.normalizeSymbols symbols)
      (Or.inr rt.pairwise_normalizeSymbols)
    have hcleared := @clearSubscriptionError_moves _ false (hdesire.consistent hs)
    have hmoves := (Relation.ReflTransGen.single hdesire).trans hcleared
    have hconsistent := Moves.consistent hmoves hs
    have hordered := Moves.sorted hmoves hsorted
  · refine Or.inr (Alike.settled alike_clearSubscriptionError (Or.inr (Or.inr (Or.inr ?_))))
    simp only [Bool.and_eq_true, decide_eq_true_eq] at hdone
    exact hdone.2
  · exact Or.inr (flushDesiredSymbols_attends hconsistent hordered)

/-! ### Messages -/

/-- A terminal error answers the pending operation. -/
def rejects (rt : Browser) (s : GatewayWebSocketSource) : SourceAction → Bool
  | .message socket generation (some message) =>
    s.isCurrentSocket socket generation &&
      match message.data with
      | .error code _ => (message.requestId.bind s.pendingSubscriptionOperations.get).isSome &&
          !isTransientSubscriptionError (rt.sanitizeGatewayCode code)
      | _ => false
  | _ => false

/-- What has been rejected is no longer pending, and is not asked for again. -/
structure Drops (s s' : GatewayWebSocketSource) : Prop where
  socket : s'.socket = s.socket
  pending : s'.pendingSubscriptionOperations.entries = []
  retry : s'.timers.armed .subscriptionRetry = none
  confirmed : s'.confirmedSymbols = s.confirmedSymbols
  desired : s'.desiredSymbols = s.desiredSymbols

/-- What comes of a call: no socket is open, what is desired is attended to, nothing has changed of
what is asked for, an operation has been rejected, or the socket has been opened. -/
inductive Settles (rt : Browser) (action : SourceAction) (s s' : GatewayWebSocketSource) : Prop
  | shut (h : s'.Shut) (hrejects : s.rejects rt action = false)
  | attended (h : s'.Attended) (hrejects : s.rejects rt action = false)
  | alike (h : Alike s s') (hrejects : s.rejects rt action = false)
      (hopened : ∀ n generation, action = .opened n generation →
      ¬s.isCurrentSocket n generation = true)
  | dropped (h : Drops s s') (hrejects : s.rejects rt action = true)
  | advanced (socket : WebSocketLike) (hsocket : s.socket = some socket)
      (hlt : socket.readyState.value < ReadyState.opened.value)
      (hadvanced : s'.socket = some { socket with readyState := .opened })
      (haction : action = .advance .opened)

/-- No socket is open, or what is desired is attended to. -/
theorem Settles.of_settled (h : s'.Shut ∨ s'.Attended) (hrejects : s.rejects rt action = false) :
    Settles rt action s s' :=
  h.elim (fun hshut => .shut hshut hrejects) fun hattended => .attended hattended hrejects

/-- An acknowledgement is followed by what is to be asked for next. -/
theorem handleSubscriptionAck_settled {ackAction : AckAction}
    {requestId : Option JsString} (hs : Consistent s)
    (hsorted : s.Sorted) (hsocket : s.socket = some socket) :
    Alike s (s.handleSubscriptionAck outcomes ackAction requestId s.generation) ∨
      (s.handleSubscriptionAck outcomes ackAction requestId s.generation).Shut ∨
        (s.handleSubscriptionAck outcomes ackAction requestId s.generation).Attended := by
  unfold handleSubscriptionAck
  split
  · exact Or.inl (alike_emit _)
  · next operation hoperation =>
    obtain ⟨hget, -⟩ := Option.filter_eq_some_iff.1 hoperation
    obtain ⟨id, -, hget⟩ := Option.bind_eq_some_iff.1 hget
    obtain ⟨k, hawaits, rfl⟩ := hs.awaits_of_get hget
    -- The pending operation is taken out, so that the next one can be sent.
    obtain ⟨hrejected, hidle⟩ := hawaits.reject hs
    have hconsistent : Consistent (s.accept operation) :=
      { hrejected with
        confirmed := fun hnone => absurd (hsocket.symm.trans hnone) (Option.some_ne_none socket)
        pending := Or.inl hidle }
    have hordered : (s.accept operation).Sorted := ⟨hsorted.desired, pairwise_confirm _ _⟩
    have hemit : Move false (s.accept operation).clearSubscriptionError
        ((s.accept operation).clearSubscriptionError.emit
          (.subscriptionAck operation.action operation.symbols s.generation
          (some operation.requestId))) :=
      .emit _ (clearSubscriptionError_socket.trans hsocket)
        (@clearSubscriptionError_generation (s.accept operation)).symm
    have hmoves := (clearSubscriptionError_moves hconsistent).tail hemit
    exact Or.inr (flushDesiredSymbols_attends (Moves.consistent hmoves hconsistent)
      (Moves.sorted hmoves hordered))

/-- A retry is about to be made, or there is nothing to ask for. -/
theorem scheduleSubscriptionRetry_attends (hs : Consistent s) (hrunning : s.running = true) :
    (s.scheduleSubscriptionRetry outcomes s.generation code).Attended := by
  unfold scheduleSubscriptionRetry
  rw [if_neg (by simp [hrunning])]
  split_ifs with hsame hfield
  · exact (alike_clearSubscriptionError.settled (s := s) (Or.inr (Or.inr (Or.inr hsame)))).elim
      (fun hshut => Or.inr (Or.inr (by
        rw [alike_clearSubscriptionError.confirmed, alike_clearSubscriptionError.desired]
        exact hsame))) id
  · exact Or.inr (Or.inl fun hnone => hfield (hs.field_eq_none_iff.2 hnone))
  · refine Or.inr (Or.inl ?_)
    have hunarmed := hs.field_eq_none_iff.1 (not_not.1 hfield)
    obtain ⟨-, harmed⟩ :=
      hs.timers.assign (c := TimerCallback.subscriptionRetry s.generation code) hunarmed
        (s.settings.retryDelay (s.subscriptionRetryAttempt + 1) outcomes.random)
    exact fun hnone => Option.some_ne_none _
      ((if_pos rfl).symm.trans ((harmed .subscriptionRetry).symm.trans hnone))

/-- An error that answers the pending operation is followed by a retry, or drops it. -/
theorem handleGatewayError_settled {rawCode : JsString}
    {requestId : Option JsString} (hs : Consistent s)
    (hrunning : s.running = true) :
    (requestId.bind s.pendingSubscriptionOperations.get = none ∧
      Alike s (s.handleGatewayError rt outcomes rawCode requestId s.generation)) ∨
    (isTransientSubscriptionError (rt.sanitizeGatewayCode rawCode) = true ∧
      (s.handleGatewayError rt outcomes rawCode requestId s.generation).Attended) ∨
    ((requestId.bind s.pendingSubscriptionOperations.get).isSome ∧
      isTransientSubscriptionError (rt.sanitizeGatewayCode rawCode) = false ∧
      Drops s (s.handleGatewayError rt outcomes rawCode requestId s.generation)) := by
  unfold handleGatewayError
  cases hoperation : requestId.bind s.pendingSubscriptionOperations.get with
  | none => exact Or.inl ⟨rfl, (alike_emit _).trans (alike_setStatus _)⟩
  | some operation =>
    obtain ⟨id, -, hget⟩ := Option.bind_eq_some_iff.1 hoperation
    obtain ⟨k, hawaits, rfl⟩ := hs.awaits_of_get hget
    obtain ⟨hconsistent, hidle⟩ := hawaits.reject hs
    dsimp only
    rw [if_pos hawaits.generation]
    have hemit : Move false (s.reject operation) ((s.reject operation).emit
        (.notice .error (rt.sanitizeGatewayCode rawCode)
          (js "The gateway rejected the " ++ js operation.action.value ++ js " operation (" ++
            rt.sanitizeGatewayCode rawCode ++ js ")") s.generation requestId)) :=
            .emit _ hawaits.current rfl
    have hemitted := hemit.consistent hconsistent
    cases hcode : isTransientSubscriptionError (rt.sanitizeGatewayCode rawCode) with
    | true => exact Or.inr (Or.inl ⟨rfl, scheduleSubscriptionRetry_attends hemitted hrunning⟩)
    | false =>
      have hunarmed : (s.reject operation).timers.armed .subscriptionRetry = none := by
        -- An operation is not pending while a retry is about to be made.
        rw [Option.eq_none_iff_forall_not_mem]
        intro callback hcallback
        have hbefore :=
          ((hs.timers.clear .subscriptionAck).2 .subscriptionRetry).symm.trans hcallback
        rw [if_neg (by decide)] at hbefore
        have hnone := (hs.retry callback hbefore).2.1
        rw [hawaits.entries] at hnone
        cases hnone
      exact Or.inr (Or.inr ⟨rfl, rfl, rfl, hidle.1, hunarmed, rfl, rfl⟩)

/-- What comes of a message. -/
theorem handleMessage_settles (hs : Consistent s) (hsorted : s.Sorted) (id generation : ℕ)
    (parsed : Option WireMessage) :
    Settles rt (.message id generation parsed) s
    (s.handleMessage rt outcomes id generation parsed) := by
  have hopened {n other : ℕ} (h : SourceAction.message id generation parsed = .opened n other) :
      ¬s.isCurrentSocket n other = true := by cases h
  unfold handleMessage
  split_ifs with hcurrent
  · obtain ⟨hrunning, ⟨socket, hsocket, rfl⟩, rfl⟩ := isCurrentSocket_iff.1 hcurrent
    cases parsed with
    | none => exact .alike (alike_emit _) rfl fun _ _ => hopened
    | some message =>
      obtain ⟨hmoves, hkept⟩ := @watches_moves s socket false hs hrunning hsocket
      have halike := @alike_watches s socket hs hrunning
      have hconsistent := Moves.consistent hmoves hs
      have hordered := Moves.sorted hmoves hsorted
      dsimp only
      generalize (s.scheduleHeartbeatTimeout socket.id
        s.generation).scheduleConnectionStability socket.id
        s.generation = t at hkept halike hconsistent hordered ⊢
      have htsocket : t.socket = some socket := hkept.1.trans hsocket
      have hruns : t.running = true := hconsistent.running_of htsocket
      have hget (requestId : JsString) : t.pendingSubscriptionOperations.get requestId =
          s.pendingSubscriptionOperations.get requestId := by
        unfold InsertionMap.get
        rw [halike.pending]
      rw [← hkept.2]
      -- Only an error rejects an operation.
      have hrejects (h : ∀ code text, message.data ≠ .error code text) :
          s.rejects rt (.message socket.id t.generation (some message)) = false := by
        unfold rejects
        rw [Bool.and_eq_false_iff]
        refine Or.inr ?_
        cases hdata : message.data with
        | error code text => exact absurd hdata (h code text)
        | _ => rfl
      have hopened {n other : ℕ}
        (h : SourceAction.message socket.id t.generation (some message) = .opened n other) :
          ¬s.isCurrentSocket n other = true := by cases h
      unfold emitWireMessage
      cases hdata : message.data with
      | ack ackAction symbols transitions =>
        rcases @handleSubscriptionAck_settled t socket outcomes ackAction message.requestId
          hconsistent hordered
          htsocket with hsame | hsettled
        · exact .alike (halike.trans hsame)
            (hrejects fun _ _ h => by rw [hdata] at h; cases h) fun _ _ => hopened
        · exact .of_settled hsettled (hrejects fun _ _ h => by rw [hdata] at h; cases h)
      | error code text =>
        have hanswers : s.rejects rt (.message socket.id t.generation (some message)) =
            ((message.requestId.bind t.pendingSubscriptionOperations.get).isSome &&
              !isTransientSubscriptionError (rt.sanitizeGatewayCode code)) := by
          have hsame : message.requestId.bind t.pendingSubscriptionOperations.get =
              message.requestId.bind s.pendingSubscriptionOperations.get :=
            Option.bind_congr fun requestId _ => hget requestId
          have hcurrent : s.isCurrentSocket socket.id t.generation = true := by
            rw [hkept.2]; exact hcurrent
          unfold rejects
          dsimp only
          rw [hcurrent, hdata, hsame, Bool.true_and]
        -- The error is for no operation of the source, or transient, or it drops the operation.
        rcases @handleGatewayError_settled t rt outcomes code message.requestId
          hconsistent hruns with
          ⟨hnone, hsame⟩ | ⟨htransient, hattended⟩ | ⟨hsome, hterminal, hdrops⟩
        · refine .alike (halike.trans hsame) ?_ fun _ _ => hopened
          rw [hanswers, hnone]
          rfl
        · refine .attended hattended ?_
          rw [hanswers, htransient]
          exact Bool.and_false _
        · refine .dropped ⟨hdrops.socket.trans halike.socket, hdrops.pending, hdrops.retry,
            hdrops.confirmed.trans halike.confirmed, hdrops.desired.trans halike.desired⟩ ?_
          rw [hanswers, hsome, hterminal]
          rfl
      | connected =>
        exact .alike halike (hrejects fun _ _ h => by rw [hdata] at h; cases h) fun _ _ => hopened
      | heartbeat =>
        exact .alike halike (hrejects fun _ _ h => by rw [hdata] at h; cases h) fun _ _ => hopened
      | _ =>
        exact .alike (halike.trans (alike_emit _))
          (hrejects fun _ _ h => by rw [hdata] at h; cases h)
          fun _ _ => hopened
  · refine .alike (.refl s) ?_ fun _ _ => hopened
    cases parsed with
    | none => rfl
    | some message => exact Bool.and_eq_false_iff.2 (Or.inl (Bool.not_eq_true _ ▸ hcurrent))

/-! ### Timers and steps -/

/-- What comes of a timer that goes off. -/
theorem goOff_settled {handle : ℕ} {callback : TimerCallback} (hs : Consistent s)
    (hsorted : s.Sorted)
    (hcallback : s.timers.scheduler.callback handle = some callback) :
    Alike s ({ s with timers := s.timers.goOff handle callback.kind }.goOff outcomes callback) ∨
      ({ s with timers := s.timers.goOff handle callback.kind }.goOff outcomes callback).Shut ∨
        ({ s with timers := s.timers.goOff handle callback.kind }.goOff outcomes
        callback).Attended := by
  have harmed := hs.timers.armed_of_callback hcallback
  by_cases hreconnect : callback.kind = .reconnect
  · rw [hreconnect] at harmed
    obtain ⟨hruns, hnoSocket, rfl⟩ := hs.reconnect callback harmed
    unfold goOff
    dsimp only
    rw [if_neg (by simp [hruns])]
    exact Or.inr (Or.inl (openSocket_shut (hs.disconnects_of_reconnect hcallback) true))
  by_cases hretry : callback.kind = .subscriptionRetry
  · -- A retry is made, if there is still something to ask for.
    rw [hretry] at harmed
    obtain ⟨hsocket, -, code, rfl⟩ := hs.retry callback harmed
    have hruns := hs.running hsocket
    have hexpire : Move false s { s with timers := s.timers.goOff handle .subscriptionRetry } :=
      .expire handle _ hcallback (fun h => by cases h) fun h => by cases h
    have hreport : Move false { s with timers := s.timers.goOff handle .subscriptionRetry }
        (setStatus { s with timers := s.timers.goOff handle .subscriptionRetry }
          ⟨s.status.state, s.generation, s.status.reconnectAttempt, none, some code⟩) :=
          .report _ rfl (Or.inl rfl)
    have hmoves := (Relation.ReflTransGen.single hexpire).tail hreport
    unfold goOff
    dsimp only
    rw [if_neg (by simp [hruns])]
    exact Or.inr (flushDesiredSymbols_attends (Moves.consistent hmoves hs)
      (Moves.sorted hmoves hsorted))
  -- The other timers leave everything that counts here, and what follows depends on the kind.
  have halike := alike_expire hs hcallback hretry
  by_cases hack : callback.kind = .subscriptionAck
  · have hexpire : Move true s { s with timers := s.timers.goOff handle callback.kind } :=
      .expire handle callback hcallback hreconnect fun _ => Or.inl rfl
    have hconsistent := hexpire.consistent hs
    generalize { s with timers := s.timers.goOff handle callback.kind } = t at halike hconsistent ⊢
    cases callback with
    | subscriptionAck id generation requestId =>
      unfold goOff
      dsimp only
      split_ifs with hcurrent
      · split
        · exact Or.inl halike
        · next operation hoperation =>
          refine Or.inr (Or.inl ?_)
          obtain ⟨hrunning, ⟨socket, hsocket, rfl, -⟩, rfl⟩ := isCurrentOpenSocket_iff.1 hcurrent
          exact shut_of_none (handleSocketFailure_fails (s := t.emit _) hrunning hsocket).noSocket
      · exact Or.inl halike
    | _ => cases hack
  · have hexpire : Move false s { s with timers := s.timers.goOff handle callback.kind } :=
      .expire handle callback hcallback hreconnect fun h => absurd h hack
    have hconsistent := hexpire.consistent hs
    generalize { s with timers := s.timers.goOff handle callback.kind } = t at halike hconsistent ⊢
    cases callback with
    | ping id generation =>
      unfold goOff
      dsimp only
      split_ifs with hcurrent
      · obtain ⟨hmoves, hruns⟩ := @ping_moves t outcomes false
        have hset : Alike (t.ping outcomes) ((t.ping outcomes).schedulePing id generation) :=
          alike_watch (Moves.consistent hmoves hconsistent) (.ping id generation) _ (Or.inl rfl)
        rcases @ping_settled t outcomes with hping | hshut
        · exact Or.inl ((halike.trans hping).trans hset)
        · exact Or.inr (hset.settled (Or.inl hshut))
      · exact Or.inl halike
    | heartbeat id generation =>
      unfold goOff
      dsimp only
      split_ifs
      · rcases @handleSocketFailure_settled t outcomes (js "heartbeat_timeout") id
          generation with heq | hshut
        · rw [heq]
          exact Or.inl halike
        · exact Or.inr (Or.inl hshut)
      · exact Or.inl halike
    | connectionStability id generation =>
      unfold goOff
      dsimp only
      split_ifs
      · exact Or.inl (halike.trans ⟨rfl, rfl, rfl, rfl, rfl⟩)
      · exact Or.inl halike
    | subscriptionAck => exact absurd rfl hack
    | subscriptionRetry => exact absurd rfl hretry
    | reconnect => exact absurd rfl hreconnect

/-- What comes of a step. -/
theorem step_settles (hs : Consistent s) (hsorted : s.Sorted)
    (hstep : s.step rt (action, outcomes) = some s') :
    Settles rt action s s' := by
  -- A change is shut off with the socket, attended to, or nothing that counts has happened.
  cases action with
  | start =>
    obtain rfl := Option.some.inj hstep
    by_cases hrunning : s.running = true
    · rw [show s.start outcomes = s from if_pos hrunning]
      exact .alike (.refl s) rfl fun _ _ h => by cases h
    · refine .shut ?_ rfl
      unfold start
      rw [if_neg hrunning]
      exact openSocket_shut (hs.disconnects_of_start (Bool.not_eq_true _ ▸ hrunning)) false
  | stop =>
    obtain rfl := Option.some.inj hstep
    rcases stop_cases s with heq | ⟨hnone, -⟩
    · rw [heq]
      exact .alike (.refl s) rfl fun _ _ h => by cases h
    · exact .shut (shut_of_none hnone) rfl
  | reconnectNow =>
    obtain rfl := Option.some.inj hstep
    by_cases hrunning : s.running = true
    · refine .shut ?_ rfl
      unfold reconnectNow
      rw [if_pos hrunning]
      exact openSocket_shut (disconnects_of_reconnectNow hrunning) true
    · rw [show s.reconnectNow outcomes = s from if_neg hrunning]
      exact .alike (.refl s) rfl fun _ _ h => by cases h
  | replaceSymbols symbols =>
    obtain rfl := Option.some.inj hstep
    rcases @replaceSymbols_settled s rt outcomes hs hsorted symbols with heq | hsettled
    · rw [heq]
      exact .alike (.refl s) rfl fun _ _ h => by cases h
    · exact .of_settled hsettled rfl
  | ping =>
    obtain rfl := Option.some.inj hstep
    rcases @ping_settled s outcomes with halike | hshut
    · exact .alike halike rfl fun _ _ h => by cases h
    · exact .shut hshut rfl
  | opened id generation =>
    obtain rfl := Option.some.inj hstep
    rcases @handleOpen_settled s outcomes hs hsorted id generation with ⟨hcurrent, heq⟩ | hsettled
    · rw [heq]
      refine .alike (.refl s) rfl fun _ _ h => ?_
      cases h
      exact hcurrent
    · exact .of_settled hsettled rfl
  | message id generation parsed =>
    obtain rfl := Option.some.inj hstep
    exact handleMessage_settles hs hsorted id generation parsed
  | failed id generation =>
    obtain rfl := Option.some.inj hstep
    rcases @handleSocketFailure_settled s outcomes (js "connection_error") id
      generation with heq | hshut
    · rw [heq]
      exact .alike (.refl s) rfl fun _ _ h => by cases h
    · exact .shut hshut rfl
  | closed id generation =>
    obtain rfl := Option.some.inj hstep
    rcases @handleSocketFailure_settled s outcomes (js "connection_closed") id
      generation with heq | hshut
    · rw [heq]
      exact .alike (.refl s) rfl fun _ _ h => by cases h
    · exact .shut hshut rfl
  | timer handle =>
    obtain ⟨callback, hcallback, rfl⟩ := Option.map_eq_some_iff.1 hstep
    rcases @goOff_settled s outcomes handle callback hs hsorted hcallback with halike | hsettled
    · exact .alike halike rfl fun _ _ h => by cases h
    · exact .of_settled hsettled rfl
  | advance readyState =>
    obtain ⟨socket, hsocket, hadvance⟩ := Option.bind_eq_some_iff.1 hstep
    split_ifs at hadvance with hlt
    obtain rfl := Option.some.inj hadvance
    by_cases hopened : readyState = .opened
    · subst hopened
      exact .advanced socket hsocket hlt rfl rfl
    · refine .shut (fun k hk => ?_) rfl
      obtain rfl := Option.some.inj hk
      exact hopened

end GatewayWebSocketSource

/-! ## Changes and rejections -/

/-- The output is an operation that is sent. -/
def SourceOutput.isOperation : SourceOutput → Bool
  | .sent _ command => command.isChange
  | .emitted _ => false
  | .status _ => false
  | .closed _ _ _ => false

/-- A source, and what has become of its operations. -/
structure Attempts where
  source : GatewayWebSocketSource
  /-- How often other symbols have been desired. -/
  changes : ℕ
  /-- That number when the last operation was sent. -/
  sentAt : ℕ
  /-- That number when the operation was sent that a terminal error has answered last. -/
  rejectedAt : Option ℕ
  /-- The socket whose open callback has run last, when the socket was open. -/
  opened : Option ℕ

namespace Attempts

open GatewayWebSocketSource

variable {m m' : Attempts} {rt : Browser} {action : SourceAction} {s s' : GatewayWebSocketSource}

/-- A source that nothing has happened to. -/
def begin (s : GatewayWebSocketSource) : Attempts := ⟨s, 0, 0, none, none⟩

/-- What has become of the operations after a call. -/
def after (rt : Browser) (m : Attempts) (action : SourceAction)
    (s' : GatewayWebSocketSource) : Attempts :=
  let changes := if s'.desiredSymbols = m.source.desiredSymbols then m.changes else m.changes + 1
  { source := s'
    changes
    sentAt :=
      if s'.output.countP SourceOutput.isOperation = m.source.output.countP SourceOutput.isOperation
        then m.sentAt
      else changes
    rejectedAt := if m.source.rejects rt action then some m.sentAt else m.rejectedAt
    opened :=
      match action with
      | .opened socket generation =>
        if m.source.isCurrentOpenSocket socket generation then some socket else m.opened
      | _ => m.opened }

/-- A call of the source, whose listeners return and do not call it (`Call.run`). -/
def step (rt : Browser) (m : Attempts) : SourceAction × Outcomes → Option Attempts
  | (action, outcomes) =>
    (SourceCall.method rt m.source (action, outcomes)).map fun call => m.after rt action call.run

/-- The current socket is open, and its open callback has run. -/
def Listening (m : Attempts) : Prop :=
  ∃ socket ∈ m.source.socket, socket.readyState = .opened ∧ m.opened = some socket.id

instance : Decidable m.Listening :=
  inferInstanceAs (Decidable (∃ socket ∈ m.source.socket, socket.readyState = .opened ∧
    m.opened = some socket.id))

/-- The source has forgotten no change: on an open socket an operation is pending, a retry is about
to be made, the confirmed symbols are the desired ones, or no others have been desired since the
operation was sent that a terminal error has answered last. -/
def Attempted (m : Attempts) : Prop :=
  m.Listening → m.source.pendingSubscriptionOperations.entries ≠ [] ∨
    (∃ handle generation code,
      m.source.timers.scheduler.callback handle = some (.subscriptionRetry generation code)) ∨
    m.source.confirmedSymbols = m.source.desiredSymbols ∨ m.rejectedAt = some m.changes

/-- If a terminal error answers the pending operation on an open socket, no other symbols have been
desired since the operation was sent, or the desired ones are confirmed. -/
def Timely (rt : Browser) (m : Attempts) : SourceAction × Outcomes → Prop
  | (action, _) => m.source.rejects rt action = true → m.Listening →
      m.source.confirmedSymbols = m.source.desiredSymbols ∨ m.sentAt = m.changes

instance (rt : Browser) (m : Attempts) (a : SourceAction × Outcomes) : Decidable (m.Timely rt a) :=
  inferInstanceAs (Decidable (m.source.rejects rt a.1 = true → m.Listening →
    m.source.confirmedSymbols = m.source.desiredSymbols ∨ m.sentAt = m.changes))

/-! ### What each call keeps -/

/-- What a source keeps up that has forgotten no change. -/
structure Kept (m : Attempts) : Prop where
  consistent : m.source.Consistent
  sorted : m.source.Sorted
  heard : Heard m.opened m.source
  attempted : m.Attempted

/-- A retry is about to be made if and only if a timer is armed. -/
theorem exists_retry_iff (hs : Consistent s) :
    (∃ handle generation code,
    s.timers.scheduler.callback handle = some (.subscriptionRetry generation code)) ↔
      s.timers.armed .subscriptionRetry ≠ none := by
  constructor
  · rintro ⟨handle, generation, code, hcallback⟩ hnone
    have harmed := hs.timers.armed_of_callback hcallback
    exact Option.some_ne_none _ (harmed.symm.trans hnone)
  · intro harmed
    obtain ⟨callback, hcallback⟩ := Option.ne_none_iff_exists'.1 harmed
    obtain ⟨-, -, code, rfl⟩ := hs.retry callback hcallback
    obtain ⟨handle, -, hhandle⟩ := Option.bind_eq_some_iff.1 hcallback
    exact ⟨handle, s.generation, code, hhandle⟩

/-- A change is attended to on a socket on which it is. -/
theorem attempted_of_attended (hs : Consistent m.source) (h : m.source.Attended) :
    m.Attempted := fun _ =>
  h.imp id (Or.imp (exists_retry_iff hs).2 Or.inl)

/-- Without an open socket, nothing need be attempted. -/
theorem attempted_of_shut (h : m.source.Shut) : m.Attempted := by
  rintro ⟨socket, hsocket, hopened, -⟩
  exact absurd hopened (h socket hsocket)

/-- An open callback that is heard is one of a socket that is open. -/
theorem heard_after (hs : Consistent m.source) (h : Heard m.opened m.source) (action : SourceAction)
    (s' : GatewayWebSocketSource) : Heard (m.after rt action s').opened m.source := by
  cases action with
  | opened n generation =>
    show Heard (if m.source.isCurrentOpenSocket n generation = true then some n
      else m.opened) m.source
    split_ifs with hcurrent
    · obtain ⟨-, ⟨socket, hsocket, rfl, hopened⟩, -⟩ := isCurrentOpenSocket_iff.1 hcurrent
      refine ⟨fun n hn => Option.some.inj hn ▸ hs.made socket hsocket, fun k hk _ => ?_⟩
      obtain rfl := Option.some.inj (hsocket.symm.trans hk)
      exact hopened ▸ le_rfl
    · exact h
  | _ => exact h

/-- The same socket is listened to if its open callback has not run. -/
theorem listening_of_after (hsocket : s'.socket = m.source.socket)
    (hopened : ∀ n generation, action = .opened n generation →
    ¬m.source.isCurrentSocket n generation = true)
    (h : (m.after rt action s').Listening) : m.Listening := by
  obtain ⟨socket, hk, hreadyState, hlast⟩ := h
  refine ⟨socket, hsocket ▸ hk, hreadyState, ?_⟩
  cases action with
  | opened n generation =>
    refine (if_neg ?_).symm.trans hlast
    intro hcurrent
    unfold isCurrentOpenSocket at hcurrent
    exact hopened n generation rfl (Bool.and_eq_true_iff.1 hcurrent).1
  | _ => exact hlast

/-- Each call of a source whose errors come in time forgets no change. -/
theorem attempted_after (h : m.Kept) (hconsistent : Consistent s') {outcomes : Outcomes}
    (htimely : m.Timely rt (action, outcomes)) (hsettles : Settles rt action m.source s') :
    (m.after rt action s').Attempted := by
  have hchanges (hdesired : s'.desiredSymbols = m.source.desiredSymbols) :
      (m.after rt action s').changes = m.changes := if_pos hdesired
  cases hsettles with
  | shut hshut _ => exact attempted_of_shut hshut
  | attended hattended _ => exact attempted_of_attended hconsistent hattended
  | alike halike hrejects hopened =>
    intro hlistening
    have hbefore := h.attempted (listening_of_after halike.socket hopened hlistening)
    have hrejected : (m.after rt action s').rejectedAt = m.rejectedAt :=
      if_neg (by rw [hrejects]; exact Bool.false_ne_true)
    rw [hchanges halike.desired, hrejected]
    rw [exists_retry_iff h.consistent] at hbefore
    show s'.pendingSubscriptionOperations.entries ≠ [] ∨ (∃ handle generation code,
      s'.timers.scheduler.callback handle = some (.subscriptionRetry generation code)) ∨
        s'.confirmedSymbols = s'.desiredSymbols ∨ _
    rw [exists_retry_iff hconsistent, halike.pending, halike.retry,
      halike.confirmed, halike.desired]
    exact hbefore
  | dropped hdrops hrejects =>
    intro hlistening
    have hopened (n generation : ℕ) (haction : action = .opened n generation) :
        ¬m.source.isCurrentSocket n generation = true := by
      subst haction
      cases hrejects
    have hrejected : (m.after rt action s').rejectedAt = some m.sentAt := if_pos hrejects
    refine Or.inr (Or.inr ?_)
    rw [hrejected, hchanges hdrops.desired]
    show s'.confirmedSymbols = s'.desiredSymbols ∨ _
    rw [hdrops.confirmed, hdrops.desired]
    exact (htimely hrejects (listening_of_after hdrops.socket hopened hlistening)).imp id
      (congrArg some)
  | advanced socket hsocket hlt hadvanced haction =>
    -- Its open callback has not run, since the socket was not open.
    subst haction
    rintro ⟨k, hk, -, hlast⟩
    obtain rfl := Option.some.inj (hadvanced.symm.trans hk)
    exact absurd (h.heard.opened socket hsocket hlast) (Nat.not_le.2 hlt)

/-- What a step keeps. -/
theorem Kept.step (h : m.Kept) {a : SourceAction × Outcomes} (htimely : m.Timely rt a)
    (hstep : m.step rt a = some m') : m'.Kept := by
  obtain ⟨action, outcomes⟩ := a
  obtain ⟨call, hcall, rfl⟩ := Option.map_eq_some_iff.1 hstep
  have hrun : m.source.step rt (action, outcomes) = some call.run :=
    (SourceCall.run_method _).symm.trans (congrArg (Option.map Call.run) hcall)
  have hcomes := step_comes false h.consistent hrun
  have hconsistent := hcomes.consistent h.consistent
  exact ⟨hconsistent, hcomes.sorted h.sorted,
    hcomes.heard (heard_after h.consistent h.heard action call.run),
    attempted_after h hconsistent htimely (step_settles h.consistent h.sorted hrun)⟩

/-- An error that comes too late has the source forget a change. -/
theorem not_attempted_of_late (h : m.Kept) {a : SourceAction × Outcomes} (hlate : ¬m.Timely rt a)
    (hstep : m.step rt a = some m') : ¬m'.Attempted := by
  obtain ⟨action, outcomes⟩ := a
  obtain ⟨call, hcall, rfl⟩ := Option.map_eq_some_iff.1 hstep
  have hrun : m.source.step rt (action, outcomes) = some call.run :=
    (SourceCall.run_method _).symm.trans (congrArg (Option.map Call.run) hcall)
  have hconsistent := (step_comes false h.consistent hrun).consistent h.consistent
  unfold Timely at hlate
  push Not at hlate
  obtain ⟨hrejects, ⟨socket, hsocket, hopened, hlast⟩, hother, hlater⟩ := hlate
  -- Only a rejection that drops the operation is left.
  cases step_settles h.consistent h.sorted hrun with
  | shut _ hkept => exact absurd (hrejects.symm.trans hkept) (by decide)
  | attended _ hkept => exact absurd (hrejects.symm.trans hkept) (by decide)
  | alike _ hkept _ => exact absurd (hrejects.symm.trans hkept) (by decide)
  | advanced _ _ _ _ haction =>
    subst haction
    cases hrejects
  | dropped hdrops _ =>
    have hlast' : (m.after rt action call.run).opened = some socket.id := by
      cases action with
      | message => exact hlast
      | _ => cases hrejects
    intro hattempted
    -- Nothing is under way that would attend to the change.
    rcases hattempted ⟨socket, hdrops.socket ▸ hsocket, hopened,
      hlast'⟩ with hpending | hretry | hsame | hearlier
    · exact hpending hdrops.pending
    · exact (exists_retry_iff hconsistent).1 hretry hdrops.retry
    · exact hother (hdrops.confirmed.symm.trans (hsame.trans hdrops.desired))
    · have hrejected : (m.after rt action call.run).rejectedAt = some m.sentAt := if_pos hrejects
      have hchanges : (m.after rt action call.run).changes = m.changes := if_pos hdrops.desired
      rw [hrejected, hchanges] at hearlier
      exact hlater (Option.some.inj hearlier)

/-- A new source has nothing to ask for. -/
theorem kept_begin {options : SourceOptions} (hnew : GatewayWebSocketSource.new options = .ok s) :
    (begin s).Kept := by
  have hsocket := (new_spec hnew).1
  obtain ⟨hdesired, hconfirmed⟩ := new_symbols hnew
  refine ⟨consistent_new hnew, ⟨?_, ?_⟩, ⟨fun _ h => absurd h (Option.not_mem_none _), ?_⟩, ?_⟩
  · show s.desiredSymbols.Pairwise (· < ·)
    rw [hdesired]
    exact .nil
  · show s.confirmedSymbols.Pairwise (· < ·)
    rw [hconfirmed]
    exact .nil
  · exact fun k hk => absurd (hk.symm.trans hsocket) (Option.some_ne_none k)
  · exact attempted_of_shut (shut_of_none hsocket)

/-! ### Runs -/

/-- As long as each terminal error that answers the pending operation comes before other symbols are
desired, or after the desired ones have been confirmed, the source forgets no change. The first
error that does not has it forget one. -/
theorem attempted_run (rt : Browser) (options : SourceOptions)
    (s₀ : GatewayWebSocketSource) (m : Attempts)
    (hnew : GatewayWebSocketSource.new options = .ok s₀)
    (h : Path (step rt) (Timely rt) (begin s₀) m) :
    m.Attempted ∧ ∀ a m', m.step rt a = some m' → (m'.Attempted ↔ m.Timely rt a) := by
  have hkept : m.Kept :=
    h.invariant Kept (kept_begin hnew) fun _ _ _ hkept htimely hstep => hkept.step htimely hstep
  refine ⟨hkept.attempted,
    fun a m' hstep => ⟨fun hattempted => ?_, fun htimely => (hkept.step htimely hstep).attempted⟩⟩
  by_contra hlate
  exact not_attempted_of_late hkept hlate hstep hattempted

/-- A source asks for a symbol as its first socket opens. -/
def requestingActions : List (SourceAction × Outcomes) :=
  [(.replaceSymbols [js "A"], fairOutcomes), (.start, fairOutcomes),
    (.advance .opened, fairOutcomes), (.opened 0 1, fairOutcomes)]

/-- A terminal error answers the first operation. -/
def forbidden : SourceAction :=
  .message 0 1 (some ⟨newYear, some (js "subscribe-1-1"),
    .error (js "forbidden") (js "symbol is not allowed")⟩)

/-- A source whose first operation is rejected has attempted what is desired. -/
theorem attempted_run_rejected : ∃ m : Attempts, m.Attempted ∧
    m.source.confirmedSymbols ≠ m.source.desiredSymbols ∧ m.Listening := by
  obtain ⟨m, hpath, hdesired, hlistening⟩ :=
    Path.exists_of_exec (step asciiBrowser) (Timely asciiBrowser)
    (begin defaultSource) (requestingActions ++ [(forbidden, fairOutcomes)])
    (fun m => m.source.confirmedSymbols ≠ m.source.desiredSymbols ∧ m.Listening) (by decide +kernel)
  exact ⟨m, (attempted_run asciiBrowser {} defaultSource m new_default hpath).1,
    hdesired, hlistening⟩

/-- Symbols that are asked for before the first operation is rejected are forgotten. -/
theorem exists_forgotten : ∃ m :
    Attempts, Path (step asciiBrowser) anyStep (begin defaultSource) m ∧ ¬m.Attempted := by
  obtain ⟨m, hpath, hlate, hstep⟩ := Path.exists_of_exec (step asciiBrowser) (Timely asciiBrowser)
    (begin defaultSource) (requestingActions ++ [(.replaceSymbols [js "B"], fairOutcomes)])
    (fun m => ¬m.Timely asciiBrowser (forbidden, fairOutcomes) ∧
      (m.step asciiBrowser (forbidden, fairOutcomes)).isSome) (by decide +kernel)
  obtain ⟨m', hm'⟩ := Option.isSome_iff_exists.1 hstep
  have hkept : m.Kept := hpath.invariant Kept (kept_begin new_default)
    fun _ _ _ hkept htimely hstep => hkept.step htimely hstep
  exact ⟨m', (hpath.mono fun _ _ _ => trivial).tail _ trivial hm',
    not_attempted_of_late hkept hlate hm'⟩

end Attempts

end MarketDataGateway.MarketData

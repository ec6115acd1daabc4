import MarketDataGateway.MarketData.SourceTells

/-!
# The runs of a source

What is armed and pending in a source that has been started, called and called back in any order
(`timers_run`), and what it has put out (`fenced_run`): an event comes with the generation of the
last status, the generations do not decrease, and no socket is used after it has been closed or
after a later one. A socket that has been closed may still call back, and its timers may still go
off, but they change nothing (`closed_run`).
-/

namespace MarketDataGateway.MarketData

open Lib

/-! ## What has been put out -/

/-- The status that has been reported last. -/
def lastStatus : List SourceOutput → SourceStatus
  | [] => ⟨.idle, 0, 0, none, none⟩
  | .status status :: _ => status
  | _ :: output => lastStatus output

/-- The generation of an event or a status. -/
def SourceOutput.stamp : SourceOutput → Option ℕ
  | .emitted event => some event.generation
  | .status new => some new.generation
  | .sent _ _ => none
  | .closed _ _ _ => none

/-- The socket that is sent to or closed. -/
def SourceOutput.usedSocket : SourceOutput → Option ℕ
  | .emitted _ => none
  | .status _ => none
  | .sent socket _ => some socket
  | .closed socket _ _ => some socket

/-- The socket that is closed. -/
def SourceOutput.closedSocket : SourceOutput → Option ℕ
  | .emitted _ => none
  | .status _ => none
  | .sent _ _ => none
  | .closed socket _ _ => some socket

/-- The sockets that have been sent to or closed. -/
def usedSockets (output : List SourceOutput) : List ℕ := output.filterMap SourceOutput.usedSocket

/-- The sockets that have been closed. -/
def closedSockets (output : List SourceOutput) : List ℕ :=
  output.filterMap SourceOutput.closedSocket

/-- The source has been started and not stopped since. -/
def SourceStatus.Active (status : SourceStatus) : Prop :=
  status.state ≠ .idle ∧ status.state ≠ .stopped

/-- A socket may be used: it has not been closed, and no later one has been used. -/
def Usable (output : List SourceOutput) (socket : ℕ) : Prop :=
  socket ∉ closedSockets output ∧ ∀ n ∈ usedSockets output, n ≤ socket

/-- What may be put out next. -/
def SourceOutput.Follows (output : List SourceOutput) : SourceOutput → Prop
  | .emitted event => event.generation = (lastStatus output).generation ∧ (lastStatus output).Active
  | .status new => (lastStatus output).generation ≤ new.generation
  | .sent socket _ => (lastStatus output).Active ∧ Usable output socket
  | .closed socket _ _ => Usable output socket

/-- Each output may follow those before. -/
def Fenced : List SourceOutput → Prop
  | [] => True
  | o :: output => o.Follows output ∧ Fenced output

/-- No generation is greater than that of the last status. -/
theorem Fenced.stamp_le {output : List SourceOutput} (h : Fenced output) :
    ∀ n ∈ output.filterMap SourceOutput.stamp, n ≤ (lastStatus output).generation := by
  induction output with
  | nil => exact fun n hn => absurd hn List.not_mem_nil
  | cons o output ih =>
    obtain ⟨hfollows, hfenced⟩ := h
    intro n hn
    have hbefore := ih hfenced n
    cases o with
    | emitted event =>
      rcases List.mem_cons.1 hn with rfl | hn
      · exact hfollows.1.le
      · exact hbefore hn
    | status status =>
      rcases List.mem_cons.1 hn with rfl | hn
      · exact le_rfl
      · exact (hbefore hn).trans hfollows
    | sent => exact hbefore hn
    | closed => exact hbefore hn

/-- The generations do not decrease. -/
theorem Fenced.pairwise {output : List SourceOutput} (h : Fenced output) :
    (output.filterMap SourceOutput.stamp).Pairwise (· ≥ ·) := by
  induction output with
  | nil => exact .nil
  | cons o output ih =>
    obtain ⟨hfollows, hfenced⟩ := h
    have hle := hfenced.stamp_le
    cases o with
    | emitted event => exact .cons (fun n hn => (hle n hn).trans hfollows.1.ge) (ih hfenced)
    | status status => exact .cons (fun n hn => (hle n hn).trans hfollows) (ih hfenced)
    | sent => exact ih hfenced
    | closed => exact ih hfenced

/-- What has been put out, with the status, the current socket and the number of sockets that go
with it. -/
structure Recorded (output : List SourceOutput) (status : SourceStatus) (socket : Option ℕ)
    (sockets : ℕ) : Prop where
  fenced : Fenced output
  last : lastStatus output = status
  used : ∀ n ∈ usedSockets output, n < sockets
  current : ∀ n ∈ socket, n < sockets ∧ Usable output n

namespace Recorded

variable {output : List SourceOutput} {status : SourceStatus} {socket : Option ℕ} {sockets n : ℕ}

/-- An event of the generation of an active status is recorded. -/
theorem emitted (h : Recorded output status socket sockets) {event : SourceEvent}
    (hgeneration : event.generation = status.generation) (hactive : status.Active) :
    Recorded (.emitted event :: output) status socket sockets where
  fenced := ⟨by
    rw [← h.last] at hgeneration hactive
    exact ⟨hgeneration, hactive⟩, h.fenced⟩
  last := h.last
  used := h.used
  current := h.current

/-- A status of no smaller generation is recorded. -/
theorem reported (h : Recorded output status socket sockets) {status' : SourceStatus}
    (hle : status.generation ≤ status'.generation) :
    Recorded (.status status' :: output) status' socket sockets where
  fenced := ⟨by
    rw [← h.last] at hle
    exact hle, h.fenced⟩
  last := rfl
  used := h.used
  current := h.current

/-- A command on the socket of an active status is recorded. -/
theorem sent (h : Recorded output status socket sockets) (hsocket : socket = some n)
    (hactive : status.Active)
    (command : ClientCommand) : Recorded (.sent n command :: output) status socket sockets := by
  subst hsocket
  obtain ⟨hlt, hopen, hle⟩ := h.current n rfl
  refine ⟨⟨⟨h.last ▸ hactive, hopen, hle⟩, h.fenced⟩, h.last, ?_, ?_⟩
  · intro m hm
    rcases List.mem_cons.1 hm with rfl | hm
    · exact hlt
    · exact h.used m hm
  · rintro m ⟨⟩
    refine ⟨hlt, hopen, fun m hm => ?_⟩
    rcases List.mem_cons.1 hm with rfl | hm
    · exact le_rfl
    · exact hle m hm

/-- A socket that is closed is gone. -/
theorem closed (h : Recorded output status socket sockets)
    (hsocket : socket = some n) (code : Option ℕ)
    (reason : Option JsString) :
    Recorded (.closed n code reason :: output) status none sockets := by
  subst hsocket
  obtain ⟨hlt, husable⟩ := h.current n rfl
  refine ⟨⟨husable, h.fenced⟩, h.last, ?_, fun m hm => absurd hm (Option.not_mem_none m)⟩
  intro m hm
  rcases List.mem_cons.1 hm with rfl | hm
  · exact hlt
  · exact h.used m hm

/-- A socket that is let go is gone. -/
theorem dropped (h : Recorded output status socket sockets) : Recorded output status none sockets :=
  { h with current := fun m hm => absurd hm (Option.not_mem_none m) }

/-- What has been closed has been used. -/
theorem mem_usedSockets (h : n ∈ closedSockets output) : n ∈ usedSockets output := by
  obtain ⟨o, ho, hclosed⟩ := List.mem_filterMap.1 h
  refine List.mem_filterMap.2 ⟨o, ho, ?_⟩
  cases o with
  | closed => exact hclosed
  | _ => cases hclosed

/-- The next socket has not been used. -/
theorem made (h : Recorded output status socket sockets) :
    Recorded output status (some sockets) (sockets + 1) where
  fenced := h.fenced
  last := h.last
  used n hn := (h.used n hn).trans (Nat.lt_succ_self sockets)
  current := by
    rintro n ⟨⟩
    -- A socket that has been closed has been used, and those have smaller numbers.
    refine ⟨Nat.lt_succ_self _, fun hclosed => ?_, fun n hn => (h.used n hn).le⟩
    exact lt_irrefl _ (h.used _ (mem_usedSockets hclosed))

end Recorded

namespace GatewayWebSocketSource

variable {s s' s₀ : GatewayWebSocketSource} {socket : WebSocketLike} {rt : Browser}
  {options : SourceOptions}
  {cut late : Bool} {action : SourceAction} {outcomes : Outcomes}

/-- The record is that of the source. -/
abbrev Logged (s : GatewayWebSocketSource) : Prop :=
  Recorded s.output s.status (s.socket.map WebSocketLike.id) s.sockets

/-- A source with a socket has an active status. -/
theorem Consistent.active (h : Consistent s) (hsocket : s.socket = some socket) : s.status.Active :=
  h.state.1 (h.running_of hsocket)

/-- A source that fails is logged if it was. -/
theorem Fails.logged (h : Fails late s socket s') (hlogged : s.Logged)
    (hgeneration : s.status.generation = s.generation)
    (hsocket : s.socket = some socket) : s'.Logged := by
  have hid : s.socket.map WebSocketLike.id = some socket.id := by
    rw [hsocket]
    rfl
  have hclosed := (hlogged.closed hid none none).reported (hgeneration.trans h.status.2.symm).le
  unfold Logged
  rw [h.output, h.noSocket, h.sockets]
  exact hclosed

/-- What a source tells as it disconnects is recorded. -/
theorem Disconnects.recorded (h : s.Disconnects s₀) (hlogged : s.Logged) :
    Recorded s₀.output s.status none s₀.sockets := by
  rw [h.sockets]
  rcases h.output with heq | ⟨socket, code, reason, hsocket, heq⟩
  · rw [heq]
    exact hlogged.dropped
  · rw [heq]
    refine hlogged.closed ?_ code reason
    rw [hsocket]
    rfl

/-- A source that stops is logged if it was. -/
theorem stop_logged (hlogged : s.Logged) (hs : Consistent s) : s.stop.Logged := by
  rcases stop_cases s with heq | ⟨hnone, hsockets, hgeneration, output, houtput, hclosed⟩
  · rw [heq]
    exact hlogged
  · have hdropped : Recorded output s.status none s.sockets := by
      rcases hclosed with rfl | ⟨socket, code, reason, hsocket, rfl⟩
      · exact hlogged.dropped
      · refine hlogged.closed ?_ code reason
        rw [hsocket]
        rfl
    have hle : s.status.generation ≤ s.stop.status.generation := by
      rw [hgeneration, hs.generation]
      exact Nat.le_succ _
    unfold Logged
    rw [houtput, hnone, hsockets]
    exact hdropped.reported hle

/-- Each move keeps the record. -/
theorem Move.logged (h : Move cut s s') (hs : Consistent s) (hlogged : s.Logged) : s'.Logged := by
  have hid {socket : WebSocketLike} (hsocket : s.socket = some socket) :
      s.socket.map WebSocketLike.id = some socket.id := by
    rw [hsocket]
    rfl
  cases h with
  | emit event hsocket hgeneration =>
    exact hlogged.emitted (hgeneration.trans hs.generation.symm) (hs.active hsocket)
  | report status hgeneration => exact hlogged.reported (hs.generation.trans hgeneration.symm).le
  | watch => exact hlogged
  | stability => exact hlogged
  | steady => exact hlogged
  | attempt => exact hlogged
  | count => exact hlogged
  | sendPing requestId hsocket => exact hlogged.sent (hid hsocket) (hs.active hsocket) _
  | request h => exact hlogged.sent (hid h.current) (hs.active h.current) _
  | refuse waits hwaits h hfails => exact hfails.logged hlogged hs.generation h.current
  | retry => exact hlogged
  | fail waits hwaits hsocket hfails => exact hfails.logged hlogged hs.generation hsocket
  | desire => exact hlogged
  | connect h hconnects =>
    have hle : s.status.generation ≤ s'.status.generation := by
      rw [hconnects.status.2, h.generation, hs.generation]
      exact Nat.le_succ _
    -- A new socket comes with a new generation.
    have hmade := ((h.recorded hlogged).reported hle).made
    unfold Logged
    rw [hconnects.output, hconnects.socket, hconnects.sockets]
    exact hmade
  | miss waits hwaits h hmisses =>
    have hle : s.status.generation ≤ s'.status.generation := by
      rw [hmisses.status.2, h.generation, hs.generation]
      exact Nat.le_succ _
    unfold Logged
    rw [hmisses.noSocket, hmisses.sockets]
    rcases hmisses.output with houtput | ⟨status, hstatus, houtput⟩
    · rw [houtput]
      exact (h.recorded hlogged).reported hle
    · have hsame : status.generation = s'.status.generation := hstatus.trans hmisses.status.2.symm
      rw [houtput]
      exact ((h.recorded hlogged).reported (hle.trans hsame.ge)).reported hsame.le
  | stop => exact stop_logged hlogged hs
  | expire => exact hlogged
  | timeout handle event waits hwaits h _ hgeneration hfails =>
    -- The notice of the timeout goes out before the socket is dropped.
    have hemitted := hlogged.emitted (hgeneration.trans hs.generation.symm) (hs.active h.current)
    exact hfails.logged hemitted hs.generation h.current
  | @advance socket readyState hsocket =>
    unfold Logged at hlogged
    rw [hsocket] at hlogged
    exact hlogged

/-- A source that moves is logged if it was. -/
theorem Moves.logged (h : Moves cut s s') (hs : Consistent s) (hlogged : s.Logged) : s'.Logged := by
  induction h with
  | refl => exact hlogged
  | tail hmoves hmove ih => exact hmove.logged (Moves.consistent hmoves hs) ih

/-- An action of the source's users keeps it logged. -/
theorem Comes.logged (h : Comes cut action s s') (hs : Consistent s)
    (hlogged : s.Logged) : s'.Logged := by
  rcases h with hmoves | ⟨n, message, s₁, s₂, -, -, hbefore, -, hanswers, hafter⟩
  · exact Moves.logged hmoves hs hlogged
  · have hs₁ := Moves.consistent hbefore hs
    obtain ⟨hs₂, -⟩ := hanswers.consistent hs₁
    have hlogged₁ := Moves.logged hbefore hs hlogged
    -- An answer puts nothing out.
    have hlogged₂ : s₂.Logged := by
      cases hanswers with
      | accepted => exact hlogged₁
      | rejected => exact hlogged₁
    exact Moves.logged hafter hs₂ hlogged₂

/-- A step keeps the source logged. -/
theorem step_logged {a : SourceAction × Outcomes} (hs : Consistent s) (hlogged : s.Logged)
    (hstep : s.step rt a = some s') : s'.Logged :=
  (step_comes false hs hstep).logged hs hlogged

/-- A new source is logged. -/
theorem logged_new (h : new options = .ok s) : s.Logged := by
  obtain ⟨hsocket, -, -, -, -, -, hstatus, -, houtput⟩ := new_spec h
  unfold Logged
  rw [hsocket, hstatus, houtput]
  exact ⟨trivial, rfl, fun n hn => absurd hn List.not_mem_nil,
    fun n hn => absurd hn (Option.not_mem_none n)⟩

/-- The record is kept in every run. -/
theorem logged_of_path (hnew : new options = .ok s₀) (h : Path (step rt) anyStep s₀ s) : s.Logged :=
  (h.invariant (fun s => Consistent s ∧ s.Logged) ⟨consistent_new hnew, logged_new hnew⟩
    fun _ _ _ hs _ hstep => ⟨step_consistent hs.1 hstep, step_logged hs.1 hs.2 hstep⟩).2

/-! ## Timers that have been set in time -/

/-- What is missing or pending will be seen to: a timer is armed for it. -/
structure Prompt (s : GatewayWebSocketSource) : Prop where
  /-- A source that runs without a socket is about to open one. -/
  reconnect : s.running = true → s.socket = none →
    s.timers.armed .reconnect = some (.reconnect s.generation)
  /-- An operation on an open socket is given up if no answer comes. -/
  acknowledged : ∀ socket operation, s.Awaits socket operation → socket.readyState = .opened →
    s.timers.armed .subscriptionAck =
      some (.subscriptionAck socket.id s.generation operation.requestId)

/-- Nothing has changed that a source waits for. -/
theorem Prompt.same (h : Prompt s) (hrunning : s'.running = s.running)
    (hsocket : s'.socket = s.socket)
    (hgeneration : s'.generation = s.generation)
    (hentries : s'.pendingSubscriptionOperations.entries = s.pendingSubscriptionOperations.entries)
    (harmed : ∀ kind, kind = .reconnect ∨ kind = .subscriptionAck →
      s'.timers.armed kind = s.timers.armed kind) : Prompt s' where
  reconnect hruns hnone := by
    rw [harmed _ (Or.inl rfl), hgeneration]
    exact h.reconnect (hrunning.symm.trans hruns) (hsocket.symm.trans hnone)
  acknowledged socket operation hawaits hopened := by
    obtain ⟨hcurrent, hsingle, hof, hlate, htimer⟩ := hawaits
    rw [harmed _ (Or.inr rfl), hgeneration] at *
    exact h.acknowledged socket operation
      ⟨hsocket.symm.trans hcurrent, hentries.symm.trans hsingle, hof, hlate, htimer⟩ hopened

/-- Without a pending operation, a socket is all that a source needs. -/
theorem prompt_of_socket (hsocket : s.socket = some socket)
    (hentries : s.pendingSubscriptionOperations.entries = []) : Prompt s where
  reconnect _ hnone := absurd (hsocket.symm.trans hnone) (Option.some_ne_none socket)
  acknowledged k operation hawaits _ := by
    have hpending := hawaits.entries
    rw [hentries] at hpending
    cases hpending

/-- A source that waits is prompt. -/
theorem prompt_of_armed (hsocket : s.socket = none)
    (harmed : s.timers.armed .reconnect = some (.reconnect s.generation)) : Prompt s where
  reconnect _ _ := harmed
  acknowledged k _ hawaits _ :=
    absurd (hawaits.current.symm.trans hsocket) (Option.some_ne_none k)

/-- A source that has given its socket up waits for the time to open another one. -/
theorem Fails.prompt (h : Fails true s socket s') (hagrees : s.timers.Agrees TimerCallback.kind)
    (hreconnect : s.timers.armed .reconnect = none) : Prompt s' := by
  refine prompt_of_armed h.noSocket ?_
  rw [(h.timers hagrees hreconnect).2, if_pos ⟨rfl, rfl⟩, h.generation]

/-- Each move of a call that is not cut short sets the timers in time. -/
theorem Move.prompt (h : Move false s s') (hs : Consistent s) (hprompt : Prompt s) : Prompt s' := by
  have hwaits {waits : Bool} (h : waits = true ∨ false = true) : waits = true :=
    h.resolve_right Bool.false_ne_true
  cases h with
  | emit => exact hprompt.same rfl rfl rfl rfl fun _ _ => rfl
  | report => exact hprompt.same rfl rfl rfl rfl fun _ _ => rfl
  | watch callback delayMs hrunning hkind =>
    obtain ⟨-, harmed⟩ := hs.timers.clear_assign [callback.kind] callback delayMs
      (Or.inl (List.mem_singleton.2 rfl))
    refine hprompt.same rfl rfl rfl rfl fun kind hother => (harmed kind).trans ?_
    rcases hkind with hkind | hkind <;> rcases hother with rfl | rfl <;> simp [hkind]
  | @stability socket delayMs hsocket hunarmed =>
    obtain ⟨-, harmed⟩ :=
      hs.timers.assign (c := TimerCallback.connectionStability socket.id
        s.generation) hunarmed delayMs
    refine hprompt.same rfl rfl rfl rfl fun kind hother => (harmed kind).trans (if_neg ?_)
    rcases hother with rfl | rfl <;> exact fun h => by cases h
  | steady => exact hprompt.same rfl rfl rfl rfl fun _ _ => rfl
  | attempt => exact hprompt.same rfl rfl rfl rfl fun _ _ => rfl
  | count => exact hprompt.same rfl rfl rfl rfl fun _ _ => rfl
  | sendPing => exact hprompt.same rfl rfl rfl rfl fun _ _ => rfl
  | @request socket operation h =>
    refine ⟨fun _ hnone => absurd (h.current.symm.trans hnone) (Option.some_ne_none socket), ?_⟩
    intro k pending hawaits _
    obtain rfl : socket = k := Option.some.inj (h.current.symm.trans hawaits.current)
    -- The operation that waits is the one that has just been sent.
    have hentries := (h.awaits hs).entries.symm.trans hawaits.entries
    obtain rfl : operation = pending := (Prod.mk.inj (List.singleton_inj.1 hentries)).2
    have hgeneration : operation.generation = s.generation :=
      congrArg PendingSubscriptionOperation.generation h.next
    have harmed := (@timers_addOperation s socket operation hs.timers).2
      .subscriptionAck
    rw [if_pos rfl, hgeneration] at harmed
    exact harmed
  | refuse waits hcut h hfails =>
    obtain rfl := hwaits hcut
    have hadded := h.consistent hs
    exact hfails.prompt hadded.timers (hadded.reconnect_of h.current)
  | retry code delayMs hsocket hidle hunarmed => exact prompt_of_socket hsocket hidle
  | fail waits hcut hsocket hfails =>
    obtain rfl := hwaits hcut
    exact hfails.prompt hs.timers (hs.reconnect_of hsocket)
  | desire symbols =>
    obtain ⟨-, harmed⟩ := hs.timers.clear .subscriptionRetry
    refine hprompt.same rfl rfl rfl rfl fun kind hother => (harmed kind).trans (if_neg ?_)
    rcases hother with rfl | rfl <;> exact fun h => by cases h
  | connect h hconnects => exact prompt_of_socket hconnects.socket hconnects.pending
  | miss waits hcut h hmisses =>
    obtain rfl := hwaits hcut
    obtain ⟨hagrees, hreconnect, -⟩ := h.timers hs.timers
    refine prompt_of_armed hmisses.noSocket ?_
    rw [(hmisses.timers hagrees hreconnect).2, if_pos ⟨rfl, rfl⟩, hmisses.generation]
  | stop =>
    have hstopped := stop_running s
    refine ⟨fun hruns => absurd (hruns.symm.trans hstopped) (by decide),
      fun k operation hawaits => ?_⟩
    exact absurd ((hs.stop.running_of hawaits.current).symm.trans hstopped) (by decide)
  | expire handle callback hcallback hreconnect hack =>
    obtain ⟨-, harmed⟩ := hs.timers.goOff hcallback
    by_cases hkind : callback.kind = .subscriptionAck
    · -- The socket is not open any more, and its failure will be reported.
      have hclosed := (hack hkind).resolve_left Bool.false_ne_true
      refine ⟨fun hruns hnone => ?_, fun k operation hawaits hopened => ?_⟩
      · exact (harmed _).trans ((if_neg hreconnect.symm).trans (hprompt.reconnect hruns hnone))
      · exact absurd hopened (hclosed k hawaits.current)
    · refine hprompt.same rfl rfl rfl rfl fun kind hother => (harmed kind).trans (if_neg ?_)
      rcases hother with rfl | rfl
      · exact hreconnect.symm
      · exact fun h => hkind h.symm
  | timeout handle event waits hcut h hcallback hgeneration hfails =>
    obtain rfl := hwaits hcut
    obtain ⟨hgone, harmed⟩ := hs.timers.goOff hcallback
    refine hfails.prompt hgone ?_
    exact (harmed .reconnect).trans ((if_neg fun h => by cases h).trans (hs.reconnect_of h.current))
  | @advance socket readyState hsocket hlt =>
    refine ⟨fun _ hnone => absurd hnone (Option.some_ne_none _),
      fun k operation hawaits hopened => ?_⟩
    obtain rfl := Option.some.inj hawaits.current
    -- A socket on which an operation is pending has been open before.
    rcases hs.pending with hidle | ⟨k, operation', hbefore⟩
    · cases hidle.1.symm.trans hawaits.entries
    · obtain rfl : socket = k := Option.some.inj (hsocket.symm.trans hbefore.current)
      have hlate := hbefore.opened
      rw [show readyState = .opened from hopened] at hlt
      exact absurd hlate (Nat.not_le.2 hlt)

/-- So do the moves of a call. -/
theorem Moves.prompt (h : Moves false s s') (hs : Consistent s)
    (hprompt : Prompt s) : Prompt s' := by
  induction h with
  | refl => exact hprompt
  | tail hmoves hmove ih => exact hmove.prompt (Moves.consistent hmoves hs) ih

/-- After an answer nothing is waited for. -/
theorem Answers.prompt {message : WireMessage} (h : Answers message s s') : Prompt s' := by
  cases h with
  | accepted symbols transitions h hid hdata =>
    exact prompt_of_socket (s := s.accept _) h.current h.delete_eq_nil
  | rejected code text h hid hdata =>
    exact prompt_of_socket (s := s.reject _) h.current h.delete_eq_nil

/-- What comes of an action sets the timers in time. -/
theorem Comes.prompt (h : Comes false action s s') (hs : Consistent s) (hprompt : Prompt s) :
    Prompt s' := by
  rcases h with hmoves | ⟨n, message, s₁, s₂, -, -, hbefore, -, hanswers, hafter⟩
  · exact Moves.prompt hmoves hs hprompt
  · exact Moves.prompt hafter (hanswers.consistent (Moves.consistent hbefore hs)).1 hanswers.prompt

/-- A new source does not run. -/
theorem prompt_new (h : new options = .ok s) : Prompt s := by
  obtain ⟨hsocket, -, -, -, -, hrunning, -, -, -⟩ := new_spec h
  refine ⟨fun hruns => absurd (hruns.symm.trans hrunning) (by decide),
    fun k operation hawaits => ?_⟩
  exact absurd (hawaits.current.symm.trans hsocket) (Option.some_ne_none k)

/-- In every run without calls that are cut short, the timers are set in time. -/
theorem prompt_of_path (hnew : new options = .ok s₀) (h : Path (step rt) anyStep s₀ s) : Prompt s :=
  (h.invariant (fun s => Consistent s ∧ s.Prompt) ⟨consistent_new hnew, prompt_new hnew⟩
    fun _ _ _ hs _ hstep => ⟨step_consistent hs.1 hstep,
      (step_comes false hs.1 hstep).prompt hs.1 hs.2⟩).2

/-! ## Runs with listeners -/

/-- The steps of a source with its listeners. -/
abbrev callStep (rt : Browser) :
    Calls GatewayWebSocketSource → CallLabel (SourceAction × Outcomes) →
    Option (Calls GatewayWebSocketSource) := Calls.step (SourceCall.method rt)

/-- If the listeners do nothing but return, a run comes to steps of the source. -/
theorem path_of_quiet {c : Calls GatewayWebSocketSource}
    (h : Path (callStep rt) Calls.Quiet ⟨s₀, []⟩ c) (hdone : c.waiting = []) :
    Path (step rt) anyStep s₀ c.state := by
  have hsteps : (fun s a => (SourceCall.method rt s a).map Call.run) = step rt :=
    funext fun s => funext fun a => SourceCall.run_method a
  exact hsteps ▸ Calls.path_run h hdone

/-- In every run whose listeners return and do not call the source, whenever no call is under way:
no two timers of a kind are armed. A source that runs has a socket or waits for the time to open
one, but not both, and nothing is armed in one that does not. At most one operation is pending, on
the current socket in the current generation, and an acknowledgement is waited for only then, a
retry only otherwise. -/
theorem timers_run (rt : Browser) (options : SourceOptions) (s₀ : GatewayWebSocketSource)
    (c : Calls GatewayWebSocketSource) (hnew : new options = .ok s₀)
    (h : Path (callStep rt) Calls.Quiet ⟨s₀, []⟩ c) (hdone : c.waiting = []) :
    (∀ m n x y, c.state.timers.scheduler.callback m = some x →
    c.state.timers.scheduler.callback n = some y →
      x.kind = y.kind → m = n) ∧
    (∀ generation, (∃ n, c.state.timers.scheduler.callback n = some (.reconnect generation)) ↔
      c.state.running = true ∧ c.state.socket = none ∧ generation = c.state.generation) ∧
    (c.state.running = false → ∀ n, c.state.timers.scheduler.callback n = none) ∧
    (∀ requestId operation, c.state.pendingSubscriptionOperations.get requestId = some operation →
      c.state.pendingSubscriptionOperations.entries = [(operation.requestId, operation)] ∧
        operation.generation = c.state.generation ∧ c.state.socket ≠ none) ∧
    (∀ n socket generation requestId,
      c.state.timers.scheduler.callback n = some (.subscriptionAck socket generation requestId) →
        generation = c.state.generation ∧ c.state.socket.map WebSocketLike.id = some socket ∧
          (c.state.pendingSubscriptionOperations.get requestId).isSome) ∧
    (∀ n generation code, c.state.timers.scheduler.callback n =
    some (.subscriptionRetry generation code) →
      generation = c.state.generation ∧ c.state.socket ≠ none ∧
        c.state.pendingSubscriptionOperations.entries = []) ∧
    c.state.status.generation = c.state.generation ∧
    (c.state.status.state = .live → c.state.socket ≠ none) ∧
      (c.state.running = true ↔ c.state.status.Active) := by
  -- When no call waits, the calls so far are a path of moves.
  have hpath := path_of_quiet h hdone
  have hs := consistent_of_path hnew hpath
  have hprompt := prompt_of_path hnew hpath
  refine ⟨fun m n x y => hs.timers.unique, fun generation => ⟨?_, ?_⟩, fun hstopped n => ?_,
    fun requestId operation hget => ?_, fun n socket generation requestId hcallback => ?_,
    fun n generation code hcallback => ?_, hs.generation, hs.live, hs.state⟩
  · rintro ⟨n, hcallback⟩
    obtain ⟨hruns, hsocket, heq⟩ := hs.reconnect _ (hs.timers.armed_of_callback hcallback)
    exact ⟨hruns, hsocket, TimerCallback.reconnect.inj heq⟩
  · rintro ⟨hruns, hsocket, rfl⟩
    obtain ⟨n, -, hcallback⟩ := Option.bind_eq_some_iff.1 (hprompt.reconnect hruns hsocket)
    exact ⟨n, hcallback⟩
  · rw [Option.eq_none_iff_forall_not_mem]
    intro callback hcallback
    have harmed := hs.timers.armed_of_callback hcallback
    rw [hs.stopped hstopped] at harmed
    cases harmed
  · obtain ⟨socket, hawaits, -⟩ := hs.awaits_of_get hget
    refine ⟨hawaits.entries, hawaits.generation, ?_⟩
    rw [hawaits.current]
    exact Option.some_ne_none socket
  · obtain ⟨k, operation, hawaits, heq⟩ :=
      hs.awaits_of_armed (hs.timers.armed_of_callback hcallback)
    obtain ⟨rfl, rfl, rfl⟩ := TimerCallback.subscriptionAck.inj heq
    refine ⟨rfl, ?_, ?_⟩
    · rw [hawaits.current]
      rfl
    · rw [hawaits.get]
      rfl
  · obtain ⟨hsocket, hidle, code', heq⟩ := hs.retry _ (hs.timers.armed_of_callback hcallback)
    exact ⟨(TimerCallback.subscriptionRetry.inj heq).1, hsocket, hidle⟩

/-! ## What comes next -/

variable {operation : PendingSubscriptionOperation} {handle : ℕ}

/-- The source waits for the time to open a socket. -/
structure Waits (s : GatewayWebSocketSource) : Prop where
  running : s.running = true
  noSocket : s.socket = none
  armed : ∃ n, s.timers.scheduler.callback n = some (.reconnect s.generation)

/-- A prompt source that runs without a socket waits. -/
theorem Prompt.waits (h : Prompt s) (hrunning : s.running = true)
    (hsocket : s.socket = none) : s.Waits := by
  obtain ⟨n, -, hcallback⟩ := Option.bind_eq_some_iff.1 (h.reconnect hrunning hsocket)
  exact ⟨hrunning, hsocket, n, hcallback⟩

/-- A step of a timer empties its field, and does what the timer calls. -/
theorem step_timer {callback : TimerCallback}
    (hcallback : s.timers.scheduler.callback handle = some callback) :
    s.step rt (.timer handle, outcomes) =
      some ({ s with timers := s.timers.goOff handle callback.kind }.goOff outcomes callback) := by
  show (s.timers.scheduler.callback handle).map _ = _
  rw [hcallback]
  rfl

/-- The socket is given up when its pending operation has not been acknowledged in time. -/
theorem goOff_fails (hs : Consistent s) (hawaits : s.Awaits socket operation)
    (hopened : socket.readyState = .opened) :
    ∃ event,
    Fails true ({ s with timers := s.timers.goOff handle .subscriptionAck }.emit event) socket
      ({ s with timers := s.timers.goOff handle .subscriptionAck }.goOff outcomes
        (.subscriptionAck socket.id s.generation operation.requestId)) := by
  have hrunning := hs.running_of hawaits.current
  have hcurrent : isCurrentOpenSocket
    { s with timers := s.timers.goOff handle .subscriptionAck } socket.id
      s.generation = true :=
    isCurrentOpenSocket_iff.2 ⟨hrunning, ⟨socket, hawaits.current, rfl, hopened⟩, rfl⟩
  unfold goOff
  dsimp only
  rw [if_pos hcurrent, hawaits.get, Option.filter_some, if_pos (by simpa using hawaits.generation)]
  exact ⟨_, handleSocketFailure_fails hrunning hawaits.current⟩

/-- A socket is made if the factory makes one. -/
theorem openSocket_socket (hrunning : s.running = true) (hsocket : s.socket = none)
    (isReconnect : Bool) :
    (s.openSocket outcomes isReconnect).running = true ∧
      (s.openSocket outcomes isReconnect).generation = s.generation + 1 ∧
      (s.openSocket outcomes isReconnect).socket =
        if outcomes.connects then some ⟨s.sockets, .connecting⟩ else none := by
  unfold openSocket
  rw [if_pos hrunning]
  cases hconnects : outcomes.connects with
  | true => exact ⟨hrunning, rfl, rfl⟩
  | false =>
    show GatewayWebSocketSource.running (scheduleReconnect _ outcomes (s.generation + 1) _) = true ∧
      GatewayWebSocketSource.generation (scheduleReconnect _ outcomes (s.generation + 1) _) = _ ∧
      GatewayWebSocketSource.socket (scheduleReconnect _ outcomes (s.generation + 1) _) = none
    unfold scheduleReconnect
    rw [if_neg (by simp [hrunning])]
    exact ⟨hrunning, rfl, hsocket⟩

/-- In every run whose listeners return and do not call the source, whenever no call is under way:
an operation that is pending on an open socket has a timer, by which the socket is given up if no
answer comes. A source that runs without a socket has a timer, by which it opens one, or waits again
if that fails. -/
theorem progress_run (rt : Browser) (options : SourceOptions) (s₀ : GatewayWebSocketSource)
    (c : Calls GatewayWebSocketSource) (hnew : new options = .ok s₀)
    (h : Path (callStep rt) Calls.Quiet ⟨s₀, []⟩ c) (hdone : c.waiting = []) :
    (∀ socket requestId operation, c.state.socket = some socket → socket.readyState = .opened →
      c.state.pendingSubscriptionOperations.get requestId = some operation →
        ∃ handle, c.state.timers.scheduler.callback handle =
            some (.subscriptionAck socket.id c.state.generation requestId) ∧
          ∀ outcomes, ∃ call, SourceCall.method rt c.state (.timer handle, outcomes) = some call ∧
            call.run.Waits) ∧
    (c.state.running = true → c.state.socket = none →
      ∃ handle, c.state.timers.scheduler.callback handle = some (.reconnect c.state.generation) ∧
        ∀ outcomes, ∃ call, SourceCall.method rt c.state (.timer handle, outcomes) = some call ∧
          call.run.generation = c.state.generation + 1 ∧
          if outcomes.connects then call.run.socket = some ⟨c.state.sockets, .connecting⟩
          else call.run.Waits) := by
  have hpath := path_of_quiet h hdone
  have hs := consistent_of_path hnew hpath
  have hprompt := prompt_of_path hnew hpath
  -- What a timer calls comes to a step.
  have hcalls {handle : ℕ} {outcomes : Outcomes} {s' : GatewayWebSocketSource}
      (hstep : c.state.step rt (.timer handle, outcomes) = some s') :
      ∃ call, SourceCall.method rt c.state (.timer handle, outcomes) =
      some call ∧ call.run = s' := by
    rw [← SourceCall.run_method] at hstep
    exact Option.map_eq_some_iff.1 hstep
  refine ⟨fun socket requestId operation hsocket hopened hget => ?_, fun hrunning hsocket => ?_⟩
  · obtain ⟨k, hawaits, rfl⟩ := hs.awaits_of_get hget
    obtain rfl : k = socket := Option.some.inj (hawaits.current.symm.trans hsocket)
    obtain ⟨handle, -, hcallback⟩ :=
      Option.bind_eq_some_iff.1 (hprompt.acknowledged k operation hawaits hopened)
    refine ⟨handle, hcallback, fun outcomes => ?_⟩
    have hstep := @step_timer c.state rt outcomes handle _ hcallback
    obtain ⟨call, hcall, hrun⟩ := hcalls hstep
    refine ⟨call, hcall, ?_⟩
    rw [hrun]
    have hlater := (step_comes false hs hstep).prompt hs hprompt
    obtain ⟨event, hfails⟩ := @goOff_fails c.state k outcomes operation handle hs hawaits hopened
    exact hlater.waits (hfails.running.trans (hs.running_of hawaits.current)) hfails.noSocket
  · obtain ⟨-, -, handle, hcallback⟩ := hprompt.waits hrunning hsocket
    refine ⟨handle, hcallback, fun outcomes => ?_⟩
    have hstep := @step_timer c.state rt outcomes handle _ hcallback
    obtain ⟨call, hcall, hrun⟩ := hcalls hstep
    refine ⟨call, hcall, ?_⟩
    rw [hrun]
    have hlater := (step_comes false hs hstep).prompt hs hprompt
    have hopens : goOff { c.state with timers := c.state.timers.goOff handle .reconnect } outcomes
        (.reconnect c.state.generation) =
          { c.state with timers := c.state.timers.goOff handle .reconnect }.openSocket
          outcomes true :=
      if_neg (by simp [hrunning])
    have hopened := @openSocket_socket
      { c.state with timers := c.state.timers.goOff handle .reconnect } outcomes
      hrunning hsocket true
    rw [← hopens] at hopened
    obtain ⟨hruns, hgeneration, hmade⟩ := hopened
    refine ⟨hgeneration, ?_⟩
    split_ifs with hconnects
    · exact hmade.trans (if_pos hconnects)
    · exact hlater.waits hruns (hmade.trans (if_neg hconnects))

end GatewayWebSocketSource

/-! ## Sockets that have been closed -/

/-- The socket that calls back. -/
def SourceAction.socket : SourceAction → Option ℕ
  | .opened socket _ => some socket
  | .message socket _ _ => some socket
  | .failed socket _ => some socket
  | .closed socket _ => some socket
  | _ => none

/-- The socket that a timer has been set for. -/
def TimerCallback.socket : TimerCallback → Option ℕ
  | .ping socket _ => some socket
  | .heartbeat socket _ => some socket
  | .connectionStability socket _ => some socket
  | .subscriptionAck socket _ _ => some socket
  | .reconnect _ => none
  | .subscriptionRetry _ _ => none

namespace GatewayWebSocketSource

variable {s : GatewayWebSocketSource} {n : ℕ} {outcomes : Outcomes}

/-- A callback of a socket that is not the current one changes nothing. -/
theorem step_of_not_current {rt : Browser} {action : SourceAction}
    (hcurrent : ∀ generation, s.isCurrentSocket n generation = false)
    (haction : action.socket = some n) :
    s.step rt (action, outcomes) = some s := by
  cases action with
  | opened socket generation =>
    obtain rfl := Option.some.inj haction
    exact congrArg some (if_neg (by simp [hcurrent]))
  | message socket generation parsed =>
    obtain rfl := Option.some.inj haction
    exact congrArg some (if_neg (by simp [hcurrent]))
  | failed socket generation =>
    obtain rfl := Option.some.inj haction
    exact congrArg some (if_neg (by simp [hcurrent]))
  | closed socket generation =>
    obtain rfl := Option.some.inj haction
    exact congrArg some (if_neg (by simp [hcurrent]))
  | _ => cases haction

/-- Nor does a timer that has been set for such a socket. -/
theorem goOff_of_not_current {callback : TimerCallback}
    (hcurrent : ∀ generation, s.isCurrentSocket n generation = false)
    (hcallback : callback.socket = some n) :
    s.goOff outcomes callback = s := by
  have hopen (generation : ℕ) : ¬s.isCurrentOpenSocket n generation = true := by
    unfold isCurrentOpenSocket
    rw [hcurrent]
    exact Bool.false_ne_true
  cases callback with
  | ping socket generation =>
    obtain rfl := Option.some.inj hcallback
    exact if_neg (hopen generation)
  | heartbeat socket generation =>
    obtain rfl := Option.some.inj hcallback
    exact if_neg (hopen generation)
  | connectionStability socket generation =>
    obtain rfl := Option.some.inj hcallback
    exact if_neg (hopen generation)
  | subscriptionAck socket generation requestId =>
    obtain rfl := Option.some.inj hcallback
    exact if_neg (hopen generation)
  | reconnect => cases hcallback
  | subscriptionRetry => cases hcallback

/-- A closed socket is not current, in any generation. -/
theorem Logged.not_current (h : s.Logged) (hclosed : n ∈ closedSockets s.output) (generation : ℕ) :
    s.isCurrentSocket n generation = false := by
  rw [← Bool.not_eq_true, isCurrentSocket_iff]
  rintro ⟨-, ⟨socket, hsocket, rfl⟩, -⟩
  have hid : s.socket.map WebSocketLike.id = some socket.id := by
    rw [hsocket]
    rfl
  exact (h.current socket.id hid).2.1 hclosed

/-- In every run, a socket that has been closed changes nothing any more, whatever it calls back,
nor does a timer that has been set for it. -/
theorem closed_run (rt : Browser) (options : SourceOptions) (s₀ s : GatewayWebSocketSource)
    (hnew : new options = .ok s₀) (h : Path (step rt) anyStep s₀ s) (n : ℕ)
    (hclosed : n ∈ closedSockets s.output) :
    (∀ action outcomes, action.socket = some n → s.step rt (action, outcomes) = some s) ∧
    ∀ handle callback outcomes, s.timers.scheduler.callback handle = some callback →
    callback.socket = some n →
      s.step rt (.timer handle, outcomes) =
      some { s with timers := s.timers.goOff handle callback.kind } := by
  have hcurrent := Logged.not_current (logged_of_path hnew h) hclosed
  refine ⟨fun action outcomes haction => step_of_not_current hcurrent haction,
    fun handle callback outcomes hcallback hsocket => ?_⟩
  show (s.timers.scheduler.callback handle).map _ = _
  rw [hcallback]
  have hunchanged := @goOff_of_not_current
    { s with timers := s.timers.goOff handle callback.kind } n outcomes
    callback hcurrent hsocket
  exact congrArg some hunchanged

/-- The small of a letter of ASCII. -/
def asciiLower (c : CodeUnit) : CodeUnit :=
  if 0x41 ≤ c.val ∧ c.val ≤ 0x5A then Fin.ofNat 0x10000 (c.val + 0x20) else c

/-- A browser that knows the letters of ASCII. -/
def asciiBrowser : Browser where
  toRuntime := Runtime.ascii
  toLowerCase s := s.map asciiLower
  toLowerCase_ascii s hs := by
    have hsame : ∀ c ∈ s, asciiLower c = c := fun c hc => if_neg (hs c hc).2
    rw [List.map_congr_left hsame, List.map_id']

/-- The settings that no option changes. -/
def defaultSettings : SourceSettings where
  pingIntervalMs := ⟨10000, by decide⟩
  heartbeatTimeoutMs := ⟨30000, by decide⟩
  connectionStabilityMs := ⟨30000, by decide⟩
  subscriptionAckTimeoutMs := ⟨10000, by decide⟩
  initialBackoffMs := ⟨500, by decide⟩
  maximumBackoffMs := ⟨30000, by decide⟩
  backoffFactor := ⟨2, by decide⟩
  jitterRatio := ⟨1 / 4, by norm_num⟩

/-- The source with these settings. -/
def defaultSource : GatewayWebSocketSource where
  settings := defaultSettings
  socket := none
  timers := .empty
  desiredSymbols := []
  confirmedSymbols := []
  pendingSubscriptionOperations := .empty
  generation := 0
  reconnectAttempt := 0
  subscriptionRetryAttempt := 0
  requestSequence := 0
  running := false
  status := ⟨.idle, 0, 0, none, none⟩
  sockets := 0
  output := []

/-- The settings of no options are the defaults. -/
theorem settings_default : ({} : SourceOptions).settings = .ok defaultSettings := by
  have hpositive {q : ℚ} (hq : 0 < q) (name : String) : positive (some q) name = .ok ⟨q, hq⟩ :=
    dif_pos hq
  have hratio : boundedRatio (some (1 / 4)) = .ok defaultSettings.jitterRatio :=
    dif_pos (by norm_num)
  unfold SourceOptions.settings
  simp only [Option.getD_none, hratio, hpositive (show (0 : ℚ) < 10000 by decide),
    hpositive (show (0 : ℚ) < 30000 by decide), hpositive (show (0 : ℚ) < 500 by decide),
    hpositive (show (0 : ℚ) < 2 by decide)]
  rfl

/-- The source of no options is the default one. -/
theorem new_default : new {} = .ok defaultSource := by
  unfold new
  rw [settings_default]
  rfl

/-- Each call to the outside succeeds. -/
def fairOutcomes : Outcomes := ⟨true, true, none⟩

/-- A source that has opened a socket. -/
def startedSource : GatewayWebSocketSource := defaultSource.start fairOutcomes

/-- The default source can be started. -/
theorem path_started : Path (step asciiBrowser) anyStep defaultSource startedSource :=
  .tail (.start, fairOutcomes) .refl trivial rfl

/-- The default source can be started and stopped. -/
theorem path_stopped : Path (step asciiBrowser) anyStep defaultSource startedSource.stop :=
  .tail (.stop, fairOutcomes) path_started trivial rfl

/-- A source asks for a symbol as its first socket opens. -/
def requestingCalls : List (CallLabel (SourceAction × Outcomes)) :=
  [.call (.replaceSymbols [js "A"], fairOutcomes), .call (.start, fairOutcomes), .returns,
    .call (.advance .opened, fairOutcomes), .call (.opened 0 1, fairOutcomes), .returns]

/-- The operation that a source waits for is pending. -/
theorem timers_run_requested : ∃ c : Calls GatewayWebSocketSource,
    c.state.timers.scheduler.callback 0 = some (.subscriptionAck 0 1 (js "subscribe-1-1")) ∧
      (c.state.pendingSubscriptionOperations.get (js "subscribe-1-1")).isSome := by
  obtain ⟨c, hpath, hdone, hcallback⟩ := Path.exists_of_exec (callStep asciiBrowser) Calls.Quiet
    ⟨defaultSource, []⟩ requestingCalls (fun c => c.waiting = [] ∧
      c.state.timers.scheduler.callback 0 = some (.subscriptionAck 0 1 (js "subscribe-1-1")))
    (by decide +kernel)
  obtain ⟨-, -, -, -, hack, -⟩ := timers_run asciiBrowser {} defaultSource c new_default hpath hdone
  exact ⟨c, hcallback, (hack 0 0 1 (js "subscribe-1-1") hcallback).2.2⟩

/-- The first socket of a source cannot be made. -/
def missingCalls : List (CallLabel (SourceAction × Outcomes)) :=
  [.call (.start, { fairOutcomes with connects := false }), .returns, .returns]

/-- The source tries again. -/
theorem progress_run_waiting : ∃ c : Calls GatewayWebSocketSource, ∃ handle call,
    SourceCall.method asciiBrowser c.state (.timer handle, fairOutcomes) = some call ∧
      call.run.socket = some ⟨c.state.sockets, .connecting⟩ := by
  obtain ⟨c, hpath, hdone, hrunning, hsocket⟩ :=
    Path.exists_of_exec (callStep asciiBrowser) Calls.Quiet
    ⟨defaultSource, []⟩ missingCalls (fun c => c.waiting = [] ∧ c.state.running = true ∧
      c.state.socket = none)
    (by decide +kernel)
  obtain ⟨handle, -, hfires⟩ :=
    (progress_run asciiBrowser {} defaultSource c new_default hpath hdone).2 hrunning hsocket
  obtain ⟨call, hcall, -, hopened⟩ := hfires fairOutcomes
  exact ⟨c, handle, call, hcall, hopened⟩

/-- The socket of a source that has been stopped opens too late. -/
theorem closed_run_stopped :
    step asciiBrowser startedSource.stop (.opened 0 1, fairOutcomes) = some startedSource.stop :=
  (closed_run asciiBrowser {} defaultSource startedSource.stop new_default path_stopped 0
    (List.mem_singleton.2 rfl)).1 (.opened 0 1) fairOutcomes rfl

end GatewayWebSocketSource

end MarketDataGateway.MarketData

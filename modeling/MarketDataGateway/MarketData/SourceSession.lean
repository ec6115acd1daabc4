import Mathlib.Data.List.Lattice
import MarketDataGateway.MarketData.SourceFence

/-!
# A source and its sessions

`GatewayWebSocketSource` with the sessions of the gateway that its sockets lead to. A session takes
the commands of its socket in order, also while the listeners of the source have the control. It
carries a subscription command out and acknowledges it, or answers with an error and leaves its
symbols as they are (`Session/Atomicity.lean` says when the handler of the gateway does so); a ping
it answers with a pong. Its answers arrive in order, or too late to be heard, and whatever else it
says may arrive at any time. The listeners may throw, but do not call the source.

`Linked` is what the two sides keep up. Without a pending operation the confirmed symbols are those
of the session, and else they are that before or after the operation (`agreement_run`).
-/

namespace MarketDataGateway.MarketData

open Lib

/-! ## Sessions -/

/-- The command of an output, if it is sent on a socket. -/
def SourceOutput.commandOn (n : ℕ) : SourceOutput → Option ClientCommand
  | .sent socket command => if socket = n then some command else none
  | .emitted _ => none
  | .status _ => none
  | .closed _ _ _ => none

/-- The commands that have been sent on a socket, the first one first. -/
def sentOn (n : ℕ) (output : List SourceOutput) : List ClientCommand :=
  (output.filterMap (SourceOutput.commandOn n)).reverse

/-- The command changes the subscriptions. -/
def ClientCommand.isChange : ClientCommand → Bool
  | ping _ => false
  | change _ _ _ _ => true

/-- The message answers a command that changes the subscriptions. -/
def WireMessage.answers (message : WireMessage) : Bool :=
  message.requestId.isSome &&
    match message.data with
    | .ack _ _ _ => true
    | .error _ _ => true
    | _ => false

/-- The symbols after a change. -/
def changed (action : AckAction) (symbols held : List JsString) : List JsString :=
  match action with
  | .subscribe => symbols ∪ held
  | .unsubscribe => held.filter (· ∉ symbols)

/-- A session of the gateway. -/
structure GatewaySession where
  /-- How many commands it has taken. -/
  handled : ℕ
  /-- The symbols that it is subscribed to. -/
  symbols : List JsString
  /-- What it has answered and has not arrived yet, the first one first. -/
  replies : List WireMessage

/-- A session that has begun. -/
def GatewaySession.init : GatewaySession := ⟨0, [], []⟩

/-- What comes of a subscription command. -/
inductive Verdict
  | accepted (symbols : List JsString) (upstreamTransitions : Option (List JsString))
  | rejected (code message : JsString)

/-- A session takes a command. -/
def GatewaySession.answer (session : GatewaySession) (timestamp : IsoString) (verdict : Verdict) :
    ClientCommand → GatewaySession
  | .ping requestId =>
    { session with
      handled := session.handled + 1
      replies := session.replies ++ [⟨timestamp, some requestId, .pong⟩] }
  | .change action symbols _ requestId =>
    match verdict with
    | .accepted echoed transitions =>
      { handled := session.handled + 1
        symbols := changed action symbols session.symbols
        replies := session.replies ++
          [⟨timestamp, some requestId, .ack action echoed transitions⟩] }
    | .rejected code message =>
      { session with
        handled := session.handled + 1
        replies := session.replies ++ [⟨timestamp, some requestId, .error code message⟩] }

/-- A source with its listeners, and the sessions of its sockets. -/
structure Link where
  calls : Calls GatewayWebSocketSource
  sessions : ℕ → GatewaySession

/-- What happens to a source and its sessions. -/
inductive LinkAction
  /-- What happens to the source, other than an answer. -/
  | source (label : CallLabel (SourceAction × Outcomes))
  /-- A session takes the next command. -/
  | handle (n : ℕ) (timestamp : IsoString) (verdict : Verdict)
  /-- The next answer of a session arrives. -/
  | deliver (n generation : ℕ) (outcomes : Outcomes)

/-- The action is an answer that arrives. -/
def SourceAction.answers : SourceAction → Bool
  | .message _ _ (some reply) => reply.answers
  | _ => false

/-- An answer arrives. -/
def answersLabel : CallLabel (SourceAction × Outcomes) → Bool
  | .call (action, _) => action.answers
  | .returns => false
  | .throws => false

open GatewayWebSocketSource (callStep) in
/-- A step of a source or of one of its sessions. -/
def Link.step (rt : Browser) (link : Link) : LinkAction → Option Link
  | .source label =>
    if answersLabel label then none
    else (callStep rt link.calls label).map fun calls => { link with calls := calls }
  | .handle n timestamp verdict =>
    (sentOn n link.calls.state.output)[(link.sessions n).handled]?.map fun command =>
      { link with
        sessions := Function.update link.sessions n
          ((link.sessions n).answer timestamp verdict command) }
  | .deliver n generation outcomes =>
    match (link.sessions n).replies with
    | [] => none
    | reply :: replies =>
      (callStep rt link.calls (.call (.message n generation (some reply),
        outcomes))).map fun calls =>
        ⟨calls, Function.update link.sessions n { link.sessions n with replies := replies }⟩

/-- The listeners do not call the source. -/
def Link.Unnested (link : Link) : LinkAction → Prop
  | .source label => link.calls.Unnested label
  | .handle _ _ _ => True
  | .deliver _ _ _ => link.calls.waiting = []

instance (link : Link) (a : LinkAction) : Decidable (link.Unnested a) :=
  match a with
  | .source label => inferInstanceAs (Decidable (link.calls.Unnested label))
  | .handle _ _ _ => instDecidableTrue
  | .deliver _ _ _ => inferInstanceAs (Decidable (link.calls.waiting = []))

/-! ## What has not been taken and what has not arrived -/

/-- The subscription commands that a session has not taken yet. -/
def openChanges (n : ℕ) (output : List SourceOutput) (session : GatewaySession) :
    List ClientCommand :=
  ((sentOn n output).drop session.handled).filter ClientCommand.isChange

/-- The answers to subscription commands that have not arrived yet. -/
def openAnswers (session : GatewaySession) : List WireMessage :=
  session.replies.filter WireMessage.answers

/-- The commands on a socket, with the latest output. -/
theorem sentOn_cons {n : ℕ} {o : SourceOutput} {output : List SourceOutput} :
    sentOn n (o :: output) = sentOn n output ++ (o.commandOn n).toList := by
  unfold sentOn
  cases ho : o.commandOn n with
  | none => simp [ho]
  | some command => simp [ho]

/-- Nothing has been sent on a socket that has not been used. -/
theorem sentOn_eq_nil {n : ℕ} {output : List SourceOutput} (h : n ∉ usedSockets output) :
    sentOn n output = [] := by
  refine List.reverse_eq_nil_iff.2 (List.filterMap_eq_nil_iff.2 fun o ho => ?_)
  cases o with
  | sent socket command =>
    refine if_neg ?_
    rintro rfl
    exact h (List.mem_filterMap.2 ⟨_, ho, rfl⟩)
  | _ => rfl

/-- What is sent has not been taken. -/
theorem openChanges_sent {n : ℕ} {output : List SourceOutput} {session : GatewaySession}
    (h : session.handled ≤ (sentOn n output).length) (command : ClientCommand) :
    openChanges n (.sent n command :: output) session =
      openChanges n output session ++ [command].filter ClientCommand.isChange := by
  unfold openChanges
  rw [sentOn_cons, List.drop_append_of_le_length h, List.filter_append]
  congr 2
  exact congrArg Option.toList (if_pos rfl)

/-- What has been sent stays. -/
theorem isPrefix_sentOn {n : ℕ} {output output' : List SourceOutput} (h : output <:+ output') :
    sentOn n output <+: sentOn n output' := List.reverse_prefix.2 (h.filterMap _)

/-- A command that has been sent keeps its place. -/
theorem sentOn_get {n i : ℕ} {output output' : List SourceOutput} {command : ClientCommand}
    (h : output <:+ output')
    (hget : (sentOn n output)[i]? = some command) : (sentOn n output')[i]? = some command := by
  obtain ⟨hlt, heq⟩ := List.getElem?_eq_some_iff.1 hget
  rw [List.prefix_iff_getElem?.1 (isPrefix_sentOn h) i hlt, heq]

/-- A source that puts out no command has sent what it had sent before. -/
theorem sentOn_of_puts {n : ℕ} {p : SourceEvent → Prop} {s t : GatewayWebSocketSource}
    (h : GatewayWebSocketSource.Puts p false s t) : sentOn n t.output = sentOn n s.output := by
  obtain ⟨output, houtput, hallows⟩ := h
  have hnone : output.filterMap (SourceOutput.commandOn n) = [] := by
    refine List.filterMap_eq_nil_iff.2 fun o ho => ?_
    cases o with
    | sent => exact absurd (hallows _ ho) Bool.false_ne_true
    | _ => rfl
  unfold sentOn
  rw [houtput, List.filterMap_append, hnone]
  rfl

/-- What is confirmed once an operation has been acknowledged. -/
theorem mem_confirm {confirmed : List JsString} {operation : PendingSubscriptionOperation}
    {symbol : JsString} :
    symbol ∈ GatewayWebSocketSource.confirm confirmed operation ↔
      symbol ∈ changed operation.action operation.symbols confirmed := by
  unfold GatewayWebSocketSource.confirm changed
  rw [List.mem_insertionSort]
  have hmem : symbol ∈ confirmed.eraseDups ↔ symbol ∈ confirmed := List.mem_eraseDups
  -- The induction is over whatever symbols the loop may start at.
  generalize confirmed.eraseDups = held at hmem
  cases operation.action with
  | subscribe =>
    rw [List.mem_union_iff, ← hmem]
    dsimp only
    clear hmem
    induction operation.symbols generalizing held with
    | nil => simp
    | cons first symbols ih =>
      refine (ih _).trans ?_
      dsimp only
      split_ifs with hfirst
      · grind
      · grind
  | unsubscribe =>
    rw [List.mem_filter, ← hmem]
    dsimp only
    clear hmem
    induction operation.symbols generalizing held with
    | nil => simp
    | cons first symbols ih =>
      refine (ih _).trans ?_
      grind

/-! ## What the two sides keep up -/

/-- The symbols are the same. -/
def SameSymbols (left right : List JsString) : Prop := ∀ symbol, symbol ∈ left ↔ symbol ∈ right

/-- The session is where the source takes it to be: no operation is pending and nothing is under
way, or one operation is pending, and is on its way to the session, or its answer is on its way back
or has been lost. -/
inductive InStep (pending : List (JsString × PendingSubscriptionOperation))
    (confirmed : List JsString)
    (changes : List ClientCommand) (answers : List WireMessage) (held : List JsString) : Prop
  | idle (hpending : pending = []) (hchanges : changes = []) (hanswers : answers = [])
      (hsame : SameSymbols held confirmed)
  | asked (operation : PendingSubscriptionOperation) (hpending : pending =
      [(operation.requestId, operation)])
      (hchanges : changes = [operation.command]) (hanswers : answers = [])
      (hsame : SameSymbols held confirmed)
  | accepted (operation : PendingSubscriptionOperation) (reply : WireMessage)
      (hpending : pending = [(operation.requestId, operation)]) (hchanges : changes = [])
      (hanswers : answers = [reply])
      (hdata : ∃ echoed transitions, reply.data = .ack operation.action echoed transitions)
      (hsame : SameSymbols held (GatewayWebSocketSource.confirm confirmed operation))
  | rejected (operation : PendingSubscriptionOperation) (reply : WireMessage)
      (hpending : pending = [(operation.requestId, operation)]) (hchanges : changes = [])
      (hanswers : answers = [reply])
      (hdata : ∃ code text, reply.data = .error code text) (hsame : SameSymbols held confirmed)
  | lost (operation : PendingSubscriptionOperation) (hpending : pending =
      [(operation.requestId, operation)])
      (hchanges : changes = []) (hanswers : answers = [])
      (hsame : SameSymbols held confirmed ∨
      SameSymbols held (GatewayWebSocketSource.confirm confirmed operation))

/-- A source and its sessions agree. -/
structure Linked (sessions : ℕ → GatewaySession) (s : GatewayWebSocketSource) : Prop where
  consistent : s.Consistent
  logged : s.Logged
  /-- No session has begun before its socket has been made. -/
  fresh : ∀ n, s.sockets ≤ n → sessions n = .init
  taken : ∀ n, (sessions n).handled ≤ (sentOn n s.output).length
  inStep : ∀ socket ∈ s.socket, InStep s.pendingSubscriptionOperations.entries s.confirmedSymbols
    (openChanges socket.id s.output (sessions socket.id)) (openAnswers (sessions socket.id))
    (sessions socket.id).symbols

namespace GatewayWebSocketSource

variable {s s' s₀ : GatewayWebSocketSource} {socket : WebSocketLike} {cut late : Bool}

/-- A source that disconnects only adds to its output. -/
theorem Disconnects.suffix (h : s.Disconnects s₀) : s.output <:+ s₀.output := by
  rcases h.output with heq | ⟨socket, code, reason, -, heq⟩
  · rw [heq]
  · rw [heq]
    exact List.suffix_cons _ _

/-- A source that fails only adds to its output. -/
theorem Fails.suffix (h : Fails late s socket s') : s.output <:+ s'.output := by
  rw [h.output]
  exact (List.suffix_cons _ _).trans (List.suffix_cons _ _)

/-- A source that stops only adds to its output. -/
theorem stop_suffix : s.output <:+ s.stop.output := by
  rcases stop_cases s with heq | ⟨-, -, -, output, houtput, hclosed⟩
  · rw [heq]
  · rw [houtput]
    rcases hclosed with rfl | ⟨socket, code, reason, -, rfl⟩
    · exact List.suffix_cons _ _
    · exact (List.suffix_cons _ _).trans (List.suffix_cons _ _)

/-- What has been put out stays. -/
theorem Move.suffix (h : Move cut s s') : s.output <:+ s'.output := by
  cases h with
  | emit => exact List.suffix_cons _ _
  | report => exact List.suffix_cons _ _
  | watch => exact List.suffix_rfl
  | stability => exact List.suffix_rfl
  | steady => exact List.suffix_rfl
  | attempt => exact List.suffix_rfl
  | count => exact List.suffix_rfl
  | sendPing => exact List.suffix_cons _ _
  | request => exact List.suffix_cons _ _
  | refuse waits hwaits h hfails => exact hfails.suffix
  | retry => exact List.suffix_rfl
  | fail waits hwaits hsocket hfails => exact hfails.suffix
  | desire => exact List.suffix_rfl
  | connect h hconnects =>
    rw [hconnects.output]
    exact h.suffix.trans (List.suffix_cons _ _)
  | miss waits hwaits h hmisses =>
    rcases hmisses.output with houtput | ⟨status, -, houtput⟩
    · rw [houtput]
      exact h.suffix.trans (List.suffix_cons _ _)
    · rw [houtput]
      exact h.suffix.trans ((List.suffix_cons _ _).trans (List.suffix_cons _ _))
  | stop => exact stop_suffix
  | expire => exact List.suffix_rfl
  | timeout handle event waits hwaits h _ _ hfails =>
    exact (List.suffix_cons _ _).trans hfails.suffix
  | advance => exact List.suffix_rfl

/-- Sockets are made, and not unmade. -/
theorem Move.sockets_le (h : Move cut s s') : s.sockets ≤ s'.sockets := by
  cases h with
  | refuse waits hwaits h hfails => exact hfails.sockets.ge
  | fail waits hwaits hsocket hfails => exact hfails.sockets.ge
  | connect h hconnects =>
    rw [hconnects.sockets, h.sockets]
    exact Nat.le_succ _
  | miss waits hwaits h hmisses => exact (hmisses.sockets.trans h.sockets).ge
  | stop =>
    rcases stop_cases s with heq | ⟨-, hsockets, -⟩
    · rw [heq]
    · exact hsockets.ge
  | timeout handle event waits hwaits h _ _ hfails => exact hfails.sockets.ge
  | _ => exact le_rfl

end GatewayWebSocketSource

/-- A session without open changes is in step if the symbols are the confirmed ones. -/
theorem InStep.of_idle {confirmed held : List JsString} {changes : List ClientCommand}
    {answers : List WireMessage}
    (h : InStep [] confirmed changes answers held) :
    changes = [] ∧ answers = [] ∧ SameSymbols held confirmed := by
  cases h with
  | idle _ hchanges hanswers hsame => exact ⟨hchanges, hanswers, hsame⟩
  | _ => contradiction

namespace Linked

open GatewayWebSocketSource

variable {sessions : ℕ → GatewaySession} {s s' : GatewayWebSocketSource} {cut : Bool}

/-- Each move keeps source and sessions in agreement. -/
theorem move (h : Linked sessions s) (hmove : Move cut s s') : Linked sessions s' where
  consistent := hmove.consistent h.consistent
  logged := hmove.logged h.consistent h.logged
  fresh n hn := h.fresh n (hmove.sockets_le.trans hn)
  taken n := (h.taken n).trans (isPrefix_sentOn hmove.suffix).length_le
  inStep := by
    have hgone (hsocket : s'.socket = none) : ∀ socket ∈ s'.socket,
      InStep s'.pendingSubscriptionOperations.entries
        s'.confirmedSymbols (openChanges socket.id s'.output (sessions socket.id))
        (openAnswers (sessions socket.id))
        (sessions socket.id).symbols := by
      rw [hsocket]
      exact fun _ hnone => absurd hnone (Option.not_mem_none _)
    cases hmove with
    | emit => exact h.inStep
    | report => exact h.inStep
    | watch => exact h.inStep
    | stability => exact h.inStep
    | steady => exact h.inStep
    | attempt => exact h.inStep
    | count => exact h.inStep
    | @sendPing socket requestId hsocket =>
      intro k hk
      obtain rfl : k = socket := Option.some.inj (hk.symm.trans hsocket)
      have hinStep := h.inStep k hk
      rw [← List.append_nil (openChanges k.id s.output _)] at hinStep
      show InStep _ _ (openChanges k.id (.sent k.id (.ping requestId) :: s.output) _) _ _
      rw [openChanges_sent (h.taken _)]
      exact hinStep
    | @request socket operation hrequests =>
      -- No operation was pending, so that nothing else is under way.
      intro k hk
      obtain rfl : k = socket := Option.some.inj (hk.symm.trans hrequests.current)
      have hinStep := h.inStep k hrequests.current
      rw [hrequests.idle] at hinStep
      obtain ⟨hchanges, hanswers, hsame⟩ := hinStep.of_idle
      refine .asked operation (hrequests.awaits h.consistent).entries ?_ hanswers hsame
      show openChanges k.id (.sent k.id operation.command :: s.output) _ = _
      rw [openChanges_sent (h.taken _), hchanges]
      rfl
    | refuse waits hwaits hrequests hfails => exact hgone hfails.noSocket
    | retry => exact h.inStep
    | fail waits hwaits hsocket hfails => exact hgone hfails.noSocket
    | desire => exact h.inStep
    | @connect s₀ _ hdisconnects hconnects =>
      -- The number of the new socket has not been used, so that its session has not begun.
      intro k hk
      rw [hconnects.socket] at hk
      obtain rfl := Option.some.inj hk
      have hfresh : sessions s₀.sockets = .init := h.fresh _ hdisconnects.sockets.ge
      have hunused : s₀.sockets ∉ usedSockets s'.output := by
        rw [hconnects.output]
        exact fun hused => lt_irrefl _ ((hdisconnects.recorded h.logged).used _ hused)
      dsimp only
      rw [hfresh, hconnects.pending, hconnects.confirmed]
      refine .idle rfl ?_ rfl fun _ => Iff.rfl
      unfold openChanges
      rw [sentOn_eq_nil hunused]
      rfl
    | miss waits hwaits hdisconnects hmisses => exact hgone hmisses.noSocket
    | stop =>
      rcases stop_cases s with heq | ⟨hnone, -⟩
      · rw [heq]
        exact h.inStep
      · exact hgone hnone
    | expire => exact h.inStep
    | timeout handle event waits hwaits hawaits _ _ hfails => exact hgone hfails.noSocket
    | @advance socket readyState hsocket =>
      intro k hk
      obtain rfl := Option.some.inj hk
      exact h.inStep socket hsocket

/-- A move keeps the sessions linked. -/
theorem moves (h : Linked sessions s) (hmoves : Moves cut s s') : Linked sessions s' := by
  induction hmoves with
  | refl => exact h
  | tail _ hmove ih => exact ih.move hmove

/-! ### Answers -/

variable {n : ℕ} {reply : WireMessage} {replies : List WireMessage}

/-- The open answers of a session, the first one first. -/
theorem openAnswers_cons {session : GatewaySession}
    (hreplies : session.replies = reply :: replies) :
    openAnswers session =
      [reply].filter WireMessage.answers ++ openAnswers { session with replies := replies } := by
  unfold openAnswers
  rw [hreplies, ← List.filter_append]
  rfl

/-- An answer that arrives leaves no session behind its socket. -/
theorem fresh_update (h : Linked sessions s)
    (hreplies : (sessions n).replies = reply :: replies) (m : ℕ)
    (hm : s.sockets ≤ m) :
    Function.update sessions n { sessions n with replies := replies } m = .init := by
  have hinit := h.fresh m hm
  have hne : m ≠ n := by
    rintro rfl
    rw [hinit] at hreplies
    cases hreplies
  rw [Function.update_of_ne hne]
  exact hinit

/-- A session that sends a reply has handled no more than has been sent. -/
theorem taken_update (h : Linked sessions s) (m : ℕ) :
    (Function.update sessions n { sessions n with replies := replies } m).handled ≤
    (sentOn m s.output).length := by
  by_cases hm : m = n
  · rw [hm, Function.update_self]
    exact h.taken n
  · rw [Function.update_of_ne hm]
    exact h.taken m

/-- An answer is lost. -/
theorem lose (h : Linked sessions s) (hreplies : (sessions n).replies = reply :: replies) :
    Linked (Function.update sessions n { sessions n with replies := replies }) s where
  consistent := h.consistent
  logged := h.logged
  fresh := h.fresh_update hreplies
  taken := h.taken_update
  inStep := by
    intro k hk
    have hinStep := h.inStep k hk
    by_cases hn : k.id = n
    · rw [hn] at hinStep ⊢
      rw [openAnswers_cons hreplies] at hinStep
      rw [Function.update_self]
      cases hreply : reply.answers with
      | false =>
        rw [List.filter_cons_of_neg (by simp [hreply])] at hinStep
        exact hinStep
      | true =>
        -- It was the answer to the pending operation, which then waits in vain.
        rw [List.filter_cons_of_pos hreply] at hinStep
        cases hinStep with
        | accepted operation _ hpending hchanges hanswers _ hsame =>
          exact .lost operation hpending hchanges (List.cons.inj hanswers).2 (Or.inr hsame)
        | rejected operation _ hpending hchanges hanswers _ hsame =>
          exact .lost operation hpending hchanges (List.cons.inj hanswers).2 (Or.inl hsame)
        | idle _ _ hanswers => cases hanswers
        | asked _ _ _ hanswers => cases hanswers
        | lost _ _ _ hanswers => cases hanswers
    · rw [Function.update_of_ne hn]
      exact hinStep

/-- The answer to the pending operation is the only one under way. -/
theorem inStep_of_awaits (h : Linked sessions s)
    (hreplies : (sessions n).replies = reply :: replies)
    (hsocket : s.socket.map WebSocketLike.id = some n) {socket : WebSocketLike}
    {operation : PendingSubscriptionOperation} (hawaits : s.Awaits socket operation)
    (hreply : reply.answers = true) :
    openChanges n s.output (sessions n) = [] ∧
    openAnswers { sessions n with replies := replies } = [] ∧
      ((∃ echoed transitions, reply.data = .ack operation.action echoed transitions) ∧
          SameSymbols (sessions n).symbols
          (GatewayWebSocketSource.confirm s.confirmedSymbols operation) ∨
        (∃ code text, reply.data = .error code text) ∧
        SameSymbols (sessions n).symbols s.confirmedSymbols) := by
  have hn : socket.id = n := by
    rw [hawaits.current] at hsocket
    exact Option.some.inj hsocket
  have hinStep := h.inStep socket hawaits.current
  rw [hn, openAnswers_cons hreplies, List.filter_cons_of_pos hreply, hawaits.entries] at hinStep
  -- An operation is pending, so that both sides are at its answer.
  cases hinStep with
  | accepted operation' reply' hentries hchanges hanswers hdata hsame =>
    obtain rfl : operation = operation' := (Prod.mk.inj (List.cons.inj hentries).1).2
    rw [← (List.cons.inj hanswers).1] at hdata
    exact ⟨hchanges, (List.cons.inj hanswers).2, Or.inl ⟨hdata, hsame⟩⟩
  | rejected operation' reply' hentries hchanges hanswers hdata hsame =>
    rw [← (List.cons.inj hanswers).1] at hdata
    exact ⟨hchanges, (List.cons.inj hanswers).2, Or.inr ⟨hdata, hsame⟩⟩
  | idle _ _ hanswers => cases hanswers
  | asked _ _ _ hanswers => cases hanswers
  | lost _ _ _ hanswers => cases hanswers

/-- An answer arrives and is heard. -/
theorem answered (h : Linked sessions s) (hreplies : (sessions n).replies = reply :: replies)
    (hsocket : s.socket.map WebSocketLike.id = some n) (hanswers : Answers reply s s') :
    Linked (Function.update sessions n { sessions n with replies := replies }) s' := by
  obtain ⟨hconsistent, hidle, hsame, -⟩ := hanswers.consistent h.consistent
  -- The answer is one of the current session.
  have hcurrent {k : WebSocketLike} (hk : s'.socket = some k) : k.id = n := by
    rw [← hsame, hk] at hsocket
    exact Option.some.inj hsocket
  cases hanswers with
  | accepted echoed transitions hawaits hid hdata =>
    have hreply : reply.answers = true := by
      unfold WireMessage.answers
      rw [hid, hdata]
      rfl
    obtain ⟨hchanges, hnone, ⟨-, hsymbols⟩ | ⟨⟨code, text, hother⟩, -⟩⟩ :=
      h.inStep_of_awaits hreplies hsocket hawaits hreply
    · refine ⟨hconsistent, h.logged, h.fresh_update hreplies, h.taken_update, fun k hk => ?_⟩
      rw [hcurrent hk, Function.update_self]
      exact .idle hidle.1 hchanges hnone hsymbols
    · -- The server would have rejected what it has accepted.
      rw [hdata] at hother
      cases hother
  | rejected code text hawaits hid hdata =>
    have hreply : reply.answers = true := by
      unfold WireMessage.answers
      rw [hid, hdata]
      rfl
    obtain ⟨hchanges, hnone, ⟨⟨echoed, transitions, hother⟩, -⟩ | ⟨-, hsymbols⟩⟩ :=
      h.inStep_of_awaits hreplies hsocket hawaits hreply
    · rw [hdata] at hother
      cases hother
    · refine ⟨hconsistent, h.logged, h.fresh_update hreplies, h.taken_update, fun k hk => ?_⟩
      rw [hcurrent hk, Function.update_self]
      exact .idle hidle.1 hchanges hnone hsymbols

/-! ### Commands -/

/-- The same change leaves the same symbols. -/
theorem sameSymbols_changed {held confirmed : List JsString} (h : SameSymbols held confirmed)
    (operation : PendingSubscriptionOperation) :
    SameSymbols (changed operation.action operation.symbols held)
      (GatewayWebSocketSource.confirm confirmed operation) := by
  intro symbol
  rw [mem_confirm]
  unfold changed
  cases operation.action with
  | subscribe => rw [List.mem_union_iff, List.mem_union_iff, h symbol]
  | unsubscribe => rw [List.mem_filter, List.mem_filter, h symbol]

/-- An answer is one more command that is handled. -/
theorem handled_answer (session : GatewaySession) (timestamp : IsoString) (verdict : Verdict)
    (command : ClientCommand) :
    (session.answer timestamp verdict command).handled = session.handled + 1 := by
  cases command with
  | ping => rfl
  | change => cases verdict <;> rfl

/-- A session takes the next command. -/
theorem handle (h : Linked sessions s) {command : ClientCommand}
    (hcommand : (sentOn n s.output)[(sessions n).handled]? = some command) (timestamp : IsoString)
    (verdict : Verdict) :
    Linked (Function.update sessions n ((sessions n).answer timestamp verdict command)) s where
  consistent := h.consistent
  logged := h.logged
  fresh m hm := by
    have hne : m ≠ n := by
      rintro rfl
      rw [sentOn_eq_nil fun hused => absurd (h.logged.used m hused) hm.not_gt] at hcommand
      cases hcommand
    rw [Function.update_of_ne hne]
    exact h.fresh m hm
  taken m := by
    by_cases hm : m = n
    · rw [hm, Function.update_self, handled_answer]
      exact (List.getElem?_eq_some_iff.1 hcommand).1
    · rw [Function.update_of_ne hm]
      exact h.taken m
  inStep := by
    intro k hk
    have hinStep := h.inStep k hk
    by_cases hn : k.id = n
    · rw [hn] at hinStep ⊢
      rw [Function.update_self]
      obtain ⟨hlt, hget⟩ := List.getElem?_eq_some_iff.1 hcommand
      have hchanges : openChanges n s.output (sessions n) =
        [command].filter ClientCommand.isChange ++
          openChanges n s.output ((sessions n).answer timestamp verdict command) := by
        unfold openChanges
        rw [handled_answer, List.drop_eq_getElem_cons hlt, hget, ← List.filter_append]
        rfl
      rw [hchanges] at hinStep
      cases command with
      | ping requestId =>
        have hanswers : openAnswers ((sessions n).answer timestamp verdict (.ping requestId)) =
            openAnswers (sessions n) := by
          show List.filter _ (_ ++ [_]) = _
          rw [List.filter_append]
          exact List.append_nil _
        rw [hanswers]
        exact hinStep
      | change action symbols channels requestId =>
        -- A change that has not been taken is the pending operation, as it has been sent.
        cases hinStep with
        | asked operation hpending hasked hanswers hsame =>
          obtain ⟨hoperation, hnone⟩ := List.cons.inj hasked
          obtain ⟨rfl, rfl, -, rfl⟩ := ClientCommand.change.inj hoperation
          cases verdict with
          | accepted echoed transitions =>
            refine .accepted operation ⟨timestamp, some operation.requestId,
              .ack operation.action echoed transitions⟩
              hpending hnone ?_ ⟨echoed, transitions, rfl⟩ (sameSymbols_changed hsame operation)
            show List.filter _ (_ ++ [_]) = _
            rw [List.filter_append]
            exact congrArg (· ++ _) hanswers
          | rejected code text =>
            refine .rejected operation ⟨timestamp, some operation.requestId, .error code text⟩
              hpending hnone ?_ ⟨code, text, rfl⟩ hsame
            show List.filter _ (_ ++ [_]) = _
            rw [List.filter_append]
            exact congrArg (· ++ _) hanswers
        | idle _ hnone => cases hnone
        | accepted _ _ _ hnone => cases hnone
        | rejected _ _ _ hnone => cases hnone
        | lost _ _ hnone => cases hnone
    · rw [Function.update_of_ne hn]
      exact hinStep

/-! ### Calls -/

variable {rt : Browser} {action : SourceAction}

/-- Whatever comes of an action that is no answer keeps source and sessions in agreement. -/
theorem comes (h : Linked sessions s) (hanswers : action.answers = false)
    (hcomes : Comes cut action s s') :
    Linked sessions s' := by
  rcases hcomes with hmoves | ⟨n, reply, s₁, s₂, rfl, -, -, -, hreply, -⟩
  · exact h.moves hmoves
  · -- Only an answer meets the pending operation.
    refine absurd (hanswers.symm.trans ?_) Bool.false_ne_true
    show reply.answers = true
    unfold WireMessage.answers
    cases hreply with
    | accepted _ _ _ hid hdata =>
      rw [hid, hdata]
      rfl
    | rejected _ _ _ hid hdata =>
      rw [hid, hdata]
      rfl

/-- So does what comes of an answer that has been under way. -/
theorem comes_answer {generation : ℕ} (h : Linked sessions s)
    (hreplies : (sessions n).replies = reply :: replies)
    (hcomes : Comes cut (.message n generation (some reply)) s s') :
    Linked (Function.update sessions n { sessions n with replies := replies }) s' := by
  rcases hcomes with hmoves |
    ⟨m, message, s₁, s₂, haction, hsocket, hbefore, hsame, hanswers, hafter⟩
  · -- The source takes no notice of the answer, as of one that is lost.
    exact (h.lose hreplies).moves hmoves
  · obtain ⟨rfl, -, hmessage⟩ := SourceAction.message.inj haction
    obtain rfl := Option.some.inj hmessage
    rw [← hsame] at hsocket
    exact ((h.moves hbefore).answered hreplies hsocket hanswers).moves hafter

/-- A new source is linked with its sessions. -/
theorem of_new {options : SourceOptions} (hnew : GatewayWebSocketSource.new options = .ok s) :
    Linked (fun _ => .init) s where
  consistent := consistent_new hnew
  logged := logged_new hnew
  fresh _ _ := rfl
  taken _ := Nat.zero_le _
  inStep socket hsocket := by
    rw [(new_spec hnew).1] at hsocket
    exact absurd hsocket (Option.not_mem_none _)

end Linked

/-! ## Links -/

open GatewayWebSocketSource

/-- What is left of a call keeps source and sessions in agreement, and nothing has been sent since
it began. -/
def Ongoing (sessions : ℕ → GatewaySession) (s : GatewayWebSocketSource)
    (rest : GatewayWebSocketSource → SourceCall) : Prop :=
  ∃ begun, Puts (fun _ => True) false begun s ∧ Says (fun _ => True) begun (rest s) ∧
    (rest s).Keeps (Linked sessions)

/-- Source and sessions agree, and what is left of the call under way, if there is one, keeps them
so. -/
structure Agreed (link : Link) : Prop where
  linked : Linked link.sessions link.calls.state
  waiting : link.calls.waiting = [] ∨
    ∃ rest, link.calls.waiting = [rest] ∧ Ongoing link.sessions link.calls.state rest

namespace Agreed

variable {sessions : ℕ → GatewaySession} {begun : GatewayWebSocketSource}
  {rt : Browser} {link link' : Link}

/-- A call that keeps source and sessions in agreement goes on. -/
theorem proceed {call : SourceCall} (hsaid : Says (fun _ => True) begun call)
    (hkeeps : call.Keeps (Linked sessions)) :
    Agreed ⟨Calls.proceed call [], sessions⟩ := by
  cases call with
  | returned s => exact ⟨hkeeps.2, Or.inl rfl⟩
  | telling s rest =>
    obtain ⟨⟨hputs, htells⟩, hrun⟩ := hsaid
    exact ⟨hkeeps.rest.1, Or.inr ⟨rest, rfl, begun, hputs, ⟨htells, hrun⟩, hkeeps.rest.2⟩⟩

/-- A step of the source that is no answer. -/
theorem source (h : Agreed link) {label : CallLabel (SourceAction × Outcomes)}
    (hanswers : answersLabel label = false)
    (hunnested : link.calls.Unnested label) {calls : Calls GatewayWebSocketSource}
    (hstep : callStep rt link.calls label = some calls) : Agreed ⟨calls, link.sessions⟩ := by
  obtain ⟨⟨s, waiting⟩, sessions⟩ := link
  obtain ⟨hlinked, hwaiting⟩ := h
  cases label with
  | call a =>
    obtain rfl : waiting = [] := hunnested
    obtain ⟨call, hcall, rfl⟩ := Option.map_eq_some_iff.1 hstep
    refine proceed ((method_said hcall).mono fun _ _ => trivial) ?_
    exact method_keeps hlinked.consistent (fun t hcomes => hlinked.comes hanswers hcomes) hcall
  | returns =>
    rcases hwaiting with hnone | ⟨rest, hrest, begun, -, hsaid, hkeeps⟩
    · obtain rfl : waiting = [] := hnone
      cases hstep
    · obtain rfl : waiting = [rest] := hrest
      obtain rfl := Option.some.inj hstep
      exact proceed hsaid hkeeps
  | throws =>
    rcases hwaiting with hnone | ⟨rest, hrest, -⟩
    · obtain rfl : waiting = [] := hnone
      cases hstep
    · obtain rfl : waiting = [rest] := hrest
      obtain rfl := Option.some.inj hstep
      exact ⟨hlinked, Or.inl rfl⟩

/-- A session takes the next command, be it in the middle of a call. -/
theorem handle (h : Agreed link) {n : ℕ} {command : ClientCommand}
    (hcommand : (sentOn n link.calls.state.output)[(link.sessions n).handled]? = some command)
    (timestamp : IsoString) (verdict : Verdict) : Agreed { link with
      sessions := Function.update link.sessions n
        ((link.sessions n).answer timestamp verdict command) } := by
  refine ⟨h.linked.handle hcommand timestamp verdict, h.waiting.imp id ?_⟩
  rintro ⟨rest, hrest, begun, hputs, hsaid, hkeeps⟩
  refine ⟨rest, hrest, begun, hputs, hsaid, ?_⟩
  -- The command has been sent before the call, and so is there wherever the call goes on.
  rw [sentOn_of_puts hputs] at hcommand
  refine (hkeeps.and hsaid.keeps).mono ?_
  rintro t ⟨hlinked, hlater⟩
  exact hlinked.handle (sentOn_get hlater.suffix hcommand) timestamp verdict

/-- Each step keeps source and sessions in agreement. -/
theorem step (h : Agreed link) {a : LinkAction} (hunnested : link.Unnested a)
    (hstep : link.step rt a = some link') :
    Agreed link' := by
  cases a with
  | source label =>
    unfold Link.step at hstep
    dsimp only at hstep
    split_ifs at hstep with hanswers
    obtain ⟨calls, hcalls, rfl⟩ := Option.map_eq_some_iff.1 hstep
    exact h.source (Bool.not_eq_true _ ▸ hanswers) hunnested hcalls
  | handle n timestamp verdict =>
    obtain ⟨command, hcommand, rfl⟩ := Option.map_eq_some_iff.1 hstep
    exact h.handle hcommand timestamp verdict
  | deliver n generation outcomes =>
    unfold Link.step at hstep
    dsimp only at hstep
    split at hstep
    · cases hstep
    · next reply replies hreplies =>
      obtain ⟨⟨s, waiting⟩, sessions⟩ := link
      obtain rfl : waiting = [] := hunnested
      obtain ⟨calls, hcalls, rfl⟩ := Option.map_eq_some_iff.1 hstep
      have hcalls : (SourceCall.method rt s (.message n generation (some reply), outcomes)).map
          (fun call => Calls.proceed call []) = some calls := hcalls
      obtain ⟨call, hcall, rfl⟩ := Option.map_eq_some_iff.1 hcalls
      refine proceed ((method_said hcall).mono fun _ _ => trivial) ?_
      exact method_keeps h.linked.consistent (fun t hcomes =>
        h.linked.comes_answer hreplies hcomes) hcall

end Agreed

/-- In every run of a source with its sessions, whose listeners do not call the source, at most one
operation is pending. Without one, the current session is subscribed to the symbols that the source
takes for confirmed, and so to the desired ones if these are confirmed; with one, to those that the
source takes for confirmed or to those that it would take for confirmed after an acknowledgement. -/
theorem agreement_run (rt : Browser) (options : SourceOptions)
    (s₀ : GatewayWebSocketSource) (link : Link)
    (hnew : GatewayWebSocketSource.new options = .ok s₀)
    (h : Path (Link.step rt) Link.Unnested ⟨⟨s₀, []⟩, fun _ => .init⟩ link) :
    let source := link.calls.state
    let pending := source.pendingSubscriptionOperations.entries
    let confirmed := source.confirmedSymbols
    pending.length ≤ 1 ∧ ∀ socket, source.socket = some socket →
      let held := (link.sessions socket.id).symbols
      (pending = [] → SameSymbols held confirmed) ∧
        (pending = [] → confirmed = source.desiredSymbols →
        SameSymbols held source.desiredSymbols) ∧
        ∀ requestId operation, (requestId, operation) ∈ pending →
          SameSymbols held confirmed ∨ SameSymbols held (confirm confirmed operation) := by
  have hagreed : Agreed link := h.invariant Agreed ⟨.of_new hnew, Or.inl rfl⟩
    fun _ _ _ hagreed hunnested hstep => hagreed.step hunnested hstep
  intro source pending confirmed
  have hone : pending.length ≤ 1 := by
    rcases hagreed.linked.consistent.pending with hidle | ⟨k, operation, hawaits⟩
    · exact (congrArg List.length hidle.1).trans_le (Nat.zero_le 1)
    · exact (congrArg List.length hawaits.entries).le
  refine ⟨hone, fun socket hsocket => ?_⟩
  have hinStep := hagreed.linked.inStep socket hsocket
  intro held
  have hidle (hpending : pending = []) : SameSymbols held confirmed := by
    have hinStep : InStep pending _ _ _ held := hinStep
    rw [hpending] at hinStep
    exact hinStep.of_idle.2.2
  refine ⟨hidle, fun hpending hdesired => hdesired ▸ hidle hpending,
    fun requestId operation hmem => ?_⟩
  have hmem : (requestId, operation) ∈ link.calls.state.pendingSubscriptionOperations.entries :=
    hmem
  -- What is pending is not sent yet, or accepted, or refused, or its reply is lost.
  cases hinStep with
  | idle hpending =>
    rw [hpending] at hmem
    exact absurd hmem List.not_mem_nil
  | asked _ _ _ _ hsame => exact Or.inl hsame
  | accepted operation' _ hpending _ _ _ hsame =>
    rw [hpending, List.mem_singleton] at hmem
    obtain ⟨-, rfl⟩ := Prod.mk.inj hmem
    exact Or.inr hsame
  | rejected _ _ _ _ _ _ hsame => exact Or.inl hsame
  | lost operation' hpending _ _ hsame =>
    rw [hpending, List.mem_singleton] at hmem
    obtain ⟨-, rfl⟩ := Prod.mk.inj hmem
    exact hsame

/-- A source asks for a symbol as its first socket opens, and the session acknowledges it. -/
def subscribedActions : List LinkAction :=
  requestingCalls.map .source ++
    [.handle 0 newYear (.accepted [js "A"] none), .deliver 0 1 fairOutcomes, .source .returns]

/-- A source whose first symbol has been acknowledged. -/
theorem agreement_run_subscribed : ∃ link : Link, link.calls.state.socket = some ⟨0, .opened⟩ ∧
    link.calls.state.confirmedSymbols = [js "A"] ∧
    SameSymbols (link.sessions 0).symbols [js "A"] := by
  obtain ⟨link, hpath, hsocket, hpending, hconfirmed⟩ :=
    Path.exists_of_exec (Link.step asciiBrowser) Link.Unnested
    ⟨⟨defaultSource, []⟩, fun _ => .init⟩ subscribedActions
    (fun link => link.calls.state.socket = some ⟨0, .opened⟩ ∧
      link.calls.state.pendingSubscriptionOperations.entries = [] ∧
      link.calls.state.confirmedSymbols = [js "A"])
    (by decide +kernel)
  obtain ⟨-, hsession⟩ := agreement_run asciiBrowser {} defaultSource link new_default hpath
  obtain ⟨hidle, -⟩ := hsession ⟨0, .opened⟩ hsocket
  exact ⟨link, hsocket, hconfirmed, hconfirmed ▸ hidle hpending⟩

end MarketDataGateway.MarketData

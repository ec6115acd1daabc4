import MarketDataGateway.Lib.Transition
import MarketDataGateway.Session.Buffer

/-!
# The delivery of quotes to a session

The tasks through which a quote comes to a client: the processing of quotes, which caches one and
hands it to the fan-out, `ConnectionHub.publish`, and `receive_loop` and `send_loop` of one session
in `app.py`. Each of them runs from one suspension to the next in one step, and any task may take
the next step. A message is sent in one step, since `send_message` holds a lock. Heartbeats,
warnings, pongs and errors are no part of the log.

The hub's and the registry's parts in a command are in `Session.Receive`: of these only the
session's symbols matter here.
-/

namespace MarketDataGateway.Session

open Lib

/-- Where `receive_loop` is. -/
inductive Stage
  /-- It waits for a command. -/
  | idle
  /-- A `subscribe` is being checked, or the registry called. -/
  | subscribing (symbols : List Symbol)
  /-- The loop over `local_added` has come to these symbols. -/
  | fetching (symbols : List Symbol)
  /-- A snapshot waits for the lock. -/
  | showing (q : Quote) (symbols : List Symbol)
  /-- An `unsubscribe` is being checked. -/
  | unsubscribing (symbols : List Symbol)
  /-- The symbols have been removed from the hub. -/
  | removing (symbols : List Symbol)
  /-- The loop has ended. -/
  | closed

/-- The loop waits, and no snapshot is due to be sent. -/
def Stage.Waits : Stage → Prop
  | .idle | .fetching _ | .unsubscribing _ => True
  | _ => False

/-- The symbols of a `subscribe` that have not been added to the hub. -/
def Stage.wanted : Stage → List Symbol
  | .subscribing symbols => symbols
  | _ => []

/-- The symbols whose snapshots have not been sent. -/
def Stage.pending : Stage → List Symbol
  | .fetching symbols => symbols
  | .showing q symbols => symbolOf q :: symbols
  | _ => []

/-- The snapshot that waits for the lock. -/
def Stage.shown : Stage → List Quote
  | .showing q _ => [q]
  | _ => []

/-- The symbols of an `unsubscribe` that waits for its `ack`. -/
def Stage.removed : Stage → List Symbol
  | .removing symbols => symbols
  | _ => []

/-- What happens at the connection. -/
inductive Entry
  /-- A `subscribe` is received. -/
  | received (symbols : List Symbol)
  /-- `hub.subscribe` has added symbols for which the store holds a quote. -/
  | added (symbols : List Symbol)
  /-- A `snapshot` is sent. -/
  | snapshot (q : Quote)
  /-- A `quote` is sent. -/
  | quote (q : Quote)
  /-- The `ack` of an `unsubscribe` is sent. -/
  | unsubscribed (symbols : List Symbol)

/-- The state of the tasks. -/
structure Delivery where
  /-- The monotonic clock. -/
  clock : Timestamp
  /-- `smdg:latest:<symbol>`. -/
  store : Symbol → Option Quote
  /-- The quotes that have been handed to the fan-out, and not to `publish`. -/
  fanout : List Quote
  /-- `session.subscriptions`. -/
  subscriptions : Finset Symbol
  /-- The quotes with which `publish` has found the session, and which it has not put. -/
  inflight : List Quote
  /-- `session.buffer`. -/
  buffer : LatestValueBuffer
  /-- `session.last_sent`, in which a symbol that is not there counts as zero. -/
  lastSent : Symbol → Timestamp
  /-- The quote with which `send_loop` waits for the lock. -/
  sender : Option Quote
  /-- `receive_loop`. -/
  receiver : Stage
  /-- What has happened, the last first. -/
  log : List Entry

/-- A session that has been opened. -/
def Delivery.init (maxItems : ℕ) (maxItems_pos : 0 < maxItems) : Delivery where
  clock := 0
  store _ := none
  fanout := []
  subscriptions := ∅
  inflight := []
  buffer := .new maxItems maxItems_pos
  lastSent _ := 0
  sender := none
  receiver := .idle
  log := []

/-- The steps of the processing and of `publish`. -/
inductive Feed
  /-- A quote is cached and handed to the fan-out. -/
  | cache (q : Quote)
  /-- `publish` looks for the sessions of the next quote. -/
  | publish
  /-- `publish` puts a quote into the buffer. -/
  | put (index : ℕ)

/-- The steps of `send_loop`. -/
inductive Sender
  /-- `get_due` returns. -/
  | take
  /-- The quote is sent. -/
  | send

/-- The steps of `receive_loop`. -/
inductive Receiver
  /-- A command is received. -/
  | receive (command : SubscriptionCommand)
  /-- A command is refused, and answered by an error. -/
  | refuse
  /-- `hub.subscribe`. -/
  | subscribe
  /-- `get_latest`, of a cached payload that is a quote or absent. -/
  | fetch
  /-- `get_latest`, of a cached payload that is no quote, and the error. -/
  | fetchInvalid
  /-- A snapshot is sent. -/
  | sendSnapshot
  /-- The `ack` of a `subscribe` is sent. -/
  | ackSubscribe
  /-- `hub.unsubscribe`. -/
  | unsubscribe
  /-- The `ack` of an `unsubscribe` is sent, after the registry's call. -/
  | ackUnsubscribe
  /-- The loop ends by an exception, and `send_loop` is cancelled. -/
  | stop
  /-- `hub.remove`. -/
  | remove

/-- The steps. -/
inductive Action
  /-- Time passes. -/
  | tick (duration : ℕ)
  /-- A step of the processing and of `publish`. -/
  | feed (a : Feed)
  /-- A step of `send_loop`. -/
  | sender (a : Sender)
  /-- A step of `receive_loop`. -/
  | receiver (a : Receiver)

namespace Delivery

variable (interval : ℤ) (st : Delivery)

/-- A step of the processing and of `publish`. -/
def feed : Feed → Option Delivery
  | .cache q => some { st with
      store := Function.update st.store (symbolOf q) (some q)
      fanout := st.fanout ++ [q] }
  | .publish =>
    match st.fanout with
    | [] => none
    | q :: fanout => some { st with
        fanout
        inflight := if symbolOf q ∈ st.subscriptions then st.inflight ++ [q] else st.inflight }
  | .put index =>
    match st.inflight[index]? with
    | none => none
    | some q => some { st with
        inflight := st.inflight.eraseIdx index
        buffer := st.buffer.put q }

/-- A step of `send_loop`. -/
def send : Sender → Option Delivery
  | .take =>
    match st.receiver, st.sender, st.buffer.due interval st.lastSent st.clock with
    | .closed, _, _ => none
    | _, none, some q => some { st with
        buffer := st.buffer.without q
        lastSent := Function.update st.lastSent (symbolOf q) st.clock
        sender := some q }
    | _, _, _ => none
  | .send =>
    match st.receiver, st.sender with
    | .closed, _ => none
    | _, some q => some { st with sender := none, log := .quote q :: st.log }
    | _, none => none

/-- A step of `receive_loop`. -/
def receive : Receiver → Option Delivery
  | .receive command =>
    match st.receiver, command.action with
    | .idle, .subscribe => some { st with
        receiver := .subscribing command.symbolSet
        log := .received command.symbolSet :: st.log }
    | .idle, .unsubscribe => some { st with receiver := .unsubscribing command.symbolSet }
    | .idle, .ping => some st
    | _, _ => none
  | .refuse =>
    match st.receiver with
    | .subscribing _ | .unsubscribing _ => some { st with receiver := .idle }
    | _ => none
  | .subscribe =>
    match st.receiver with
    | .subscribing symbols =>
      let added := symbols.filter fun symbol => symbol ∉ st.subscriptions
      some { st with
        subscriptions := st.subscriptions ∪ added.toFinset
        receiver := .fetching added
        log := .added (added.filter fun symbol => (st.store symbol).isSome) :: st.log }
    | _ => none
  | .fetch =>
    match st.receiver with
    | .fetching (symbol :: symbols) =>
      match st.store symbol with
      | none => some { st with receiver := .fetching symbols }
      | some q => some { st with receiver := .showing q symbols }
    | _ => none
  | .fetchInvalid =>
    match st.receiver with
    | .fetching (_ :: _) => some { st with receiver := .idle }
    | _ => none
  | .sendSnapshot =>
    match st.receiver with
    | .showing q symbols => some { st with
        receiver := .fetching symbols
        log := .snapshot q :: st.log }
    | _ => none
  | .ackSubscribe =>
    match st.receiver with
    | .fetching [] => some { st with receiver := .idle }
    | _ => none
  | .unsubscribe =>
    match st.receiver with
    | .unsubscribing symbols => some { st with
        subscriptions := st.subscriptions \ symbols.toFinset
        receiver := .removing symbols }
    | _ => none
  | .ackUnsubscribe =>
    match st.receiver with
    | .removing symbols => some { st with
        receiver := .idle
        log := .unsubscribed symbols :: st.log }
    | _ => none
  | .stop =>
    match st.receiver with
    | .closed => none
    | _ => some { st with receiver := .closed, sender := none }
  | .remove =>
    match st.receiver with
    | .closed => some { st with subscriptions := ∅, buffer := st.buffer.close }
    | _ => none

/-- A step. -/
def step : Action → Option Delivery
  | .tick duration => some { st with clock := st.clock + duration }
  | .feed a => st.feed a
  | .sender a => st.send interval a
  | .receiver a => st.receive a

/-- The quotes that the session has and has not sent. -/
def held : List Quote := st.sender.toList ++ st.buffer.events

/-! ## What the steps do -/

/-- A step of the processing and of `publish`. -/
structure Fed (a : Feed) (st' : Delivery) : Prop where
  subscriptions : st'.subscriptions = st.subscriptions
  receiver : st'.receiver = st.receiver
  log : st'.log = st.log
  held : ∀ q ∈ st'.held, q ∈ st.held ∨ q ∈ st.inflight ∧ ∃ i, a = .put i ∧ st.inflight[i]? = some q
  inflight : ∀ q ∈ st'.inflight, q ∈ st.inflight ∨ q ∈ st.fanout ∧ symbolOf q ∈ st.subscriptions
  fanout : ∀ q ∈ st'.fanout, q ∈ st.fanout ∨ a = .cache q
  store : (∀ q, a ≠ .cache q) → st'.store = st.store
  cached : ∀ q, a = .cache q → st'.store = Function.update st.store (symbolOf q) (some q)

/-- A step of `send_loop`. -/
structure Sent (st' : Delivery) : Prop where
  subscriptions : st'.subscriptions = st.subscriptions
  receiver : st'.receiver = st.receiver
  running : st.receiver ≠ .closed
  held : ∀ q ∈ st'.held, q ∈ st.held
  inflight : st'.inflight = st.inflight
  fanout : st'.fanout = st.fanout
  store : st'.store = st.store
  log : st'.log = st.log ∨ ∃ q ∈ st.held, st'.log = .quote q :: st.log

/-- The steps of `receive_loop`. -/
inductive Received : Receiver → Delivery → Prop
  | stay {a : Receiver} : Received a st
  | wait {a : Receiver} {r : Stage} : r.Waits → r.pending = [] → st.receiver.pending = [] →
      st.receiver ≠ .closed → Received a { st with receiver := r }
  | receive {command : SubscriptionCommand} : st.receiver = .idle →
      Received (.receive command) { st with
        receiver := .subscribing command.symbolSet
        log := .received command.symbolSet :: st.log }
  | subscribe {symbols : List Symbol} : st.receiver = .subscribing symbols →
      Received .subscribe { st with
        subscriptions := st.subscriptions ∪
          (symbols.filter fun symbol => symbol ∉ st.subscriptions).toFinset
        receiver := .fetching (symbols.filter fun symbol => symbol ∉ st.subscriptions)
        log := .added ((symbols.filter fun symbol => symbol ∉ st.subscriptions).filter
          fun symbol => (st.store symbol).isSome) :: st.log }
  | fetch {symbol : Symbol} {symbols : List Symbol} {q : Quote} :
      st.receiver = .fetching (symbol :: symbols) → st.store symbol = some q →
      Received .fetch { st with receiver := .showing q symbols }
  | skip {symbol : Symbol} {symbols : List Symbol} :
      st.receiver = .fetching (symbol :: symbols) → st.store symbol = none →
      Received .fetch { st with receiver := .fetching symbols }
  | fetchInvalid : Received .fetchInvalid { st with receiver := .idle }
  | sendSnapshot {q : Quote} {symbols : List Symbol} : st.receiver = .showing q symbols →
      Received .sendSnapshot { st with
        receiver := .fetching symbols
        log := .snapshot q :: st.log }
  | unsubscribe {symbols : List Symbol} : st.receiver = .unsubscribing symbols →
      Received .unsubscribe { st with
        subscriptions := st.subscriptions \ symbols.toFinset
        receiver := .removing symbols }
  | ackUnsubscribe {symbols : List Symbol} : st.receiver = .removing symbols →
      Received .ackUnsubscribe { st with
        receiver := .idle
        log := .unsubscribed symbols :: st.log }
  | stop : Received .stop { st with receiver := .closed, sender := none }
  | remove : st.receiver = .closed →
      Received .remove { st with subscriptions := ∅, buffer := st.buffer.close }

variable {interval st} {st' : Delivery}

/-- What a step of the publisher does. -/
theorem fed {a : Feed} (h : st.feed a = some st') : Fed st a st' := by
  unfold feed at h
  split at h
  · next q =>
    -- The quote is cached, and waits for its fanout.
    rw [← Option.some.inj h]
    refine ⟨rfl, rfl, rfl, fun _ => Or.inl, fun _ => Or.inl, fun e he => ?_, ?_, ?_⟩
    · rcases List.mem_append.1 he with he | he
      · exact Or.inl he
      · rw [List.mem_singleton.1 he]
        exact Or.inr rfl
    · exact fun hne => absurd rfl (hne q)
    · intro q' heq
      rw [← Feed.cache.inj heq]
  · split at h
    · exact absurd h nofun
    · next q fanout hfanout =>
      rw [← Option.some.inj h]
      refine ⟨rfl, rfl, rfl, fun _ => Or.inl, fun e he => ?_, fun e he => ?_, fun _ => rfl,
        fun _ heq => nomatch heq⟩
      · dsimp only at he
        rw [hfanout]
        -- The hub offers it to the buffers of those who have subscribed.
        split_ifs at he with hmem
        · rcases List.mem_append.1 he with he | he
          · exact Or.inl he
          · rw [List.mem_singleton.1 he]
            exact Or.inr ⟨List.mem_cons_self, hmem⟩
        · exact Or.inl he
      · rw [hfanout]
        exact Or.inl (List.mem_cons_of_mem q he)
  · next index =>
    split at h
    · exact absurd h nofun
    · next q hq =>
      rw [← Option.some.inj h]
      refine ⟨rfl, rfl, rfl, fun e he => ?_, fun e he => ?_, fun _ => Or.inl, fun _ => rfl,
        fun _ heq => nomatch heq⟩
      · rcases List.mem_append.1 he with he | he
        · exact Or.inl (List.mem_append_left _ he)
        · -- What a buffer takes comes out of what has been offered.
          rcases LatestValueBuffer.mem_put he with rfl | he
          · exact Or.inr ⟨List.mem_of_getElem? hq, index, rfl, hq⟩
          · exact Or.inl (List.mem_append_right _ he)
      · exact Or.inl (List.mem_of_mem_eraseIdx he)

/-- What a step of the sender does. -/
theorem sent {a : Sender} (h : st.send interval a = some st') : Sent st st' := by
  unfold send at h
  split at h
  · split at h
    · exact absurd h nofun
    · next q _ hdue hrunning =>
      rw [← Option.some.inj h]
      refine ⟨rfl, rfl, hrunning, fun e he => ?_, rfl, rfl, rfl, Or.inl rfl⟩
      rcases List.mem_append.1 he with he | he
      · rw [List.mem_singleton.1 he]
        exact List.mem_append_right _ (LatestValueBuffer.mem_of_due hdue)
      · exact List.mem_append_right _ (LatestValueBuffer.mem_of_mem_without he)
    · exact absurd h nofun
  · split at h
    · exact absurd h nofun
    · next q hsender hrunning =>
      rw [← Option.some.inj h]
      have hq : q ∈ st.held := by
        unfold held
        rw [hsender]
        exact List.mem_append_left _ (List.mem_singleton.2 rfl)
      exact ⟨rfl, rfl, hrunning, fun e he => List.mem_append_right _ he, rfl, rfl, rfl,
        Or.inr ⟨q, hq, rfl⟩⟩
    · exact absurd h nofun

/-- What a step of the receiver does. -/
theorem received {a : Receiver} (h : st.receive a = some st') : Received st a st' := by
  -- A loop that is at a stage without snapshots has not ended.
  have hwait {a : Receiver} {r : Stage} (hr : st.receiver = r) (hpending : r.pending = [])
      (hrunning : r ≠ .closed) {r' : Stage} (hwaits : r'.Waits) (hpending' : r'.pending = []) :
      Received st a { st with receiver := r' } :=
    .wait hwaits hpending' (hr ▸ hpending) (hr ▸ hrunning)
  unfold receive at h
  cases a with
  | receive command =>
    dsimp only at h
    split at h
    · next hr _ => exact Option.some.inj h ▸ .receive hr
    · next hr _ => exact Option.some.inj h ▸ hwait hr rfl nofun trivial rfl
    · exact Option.some.inj h ▸ .stay
    · exact absurd h nofun
  | refuse =>
    dsimp only at h
    split at h
    · next hr => exact Option.some.inj h ▸ hwait hr rfl nofun trivial rfl
    · next hr => exact Option.some.inj h ▸ hwait hr rfl nofun trivial rfl
    · exact absurd h nofun
  | subscribe =>
    dsimp only at h
    split at h
    · next hr => exact Option.some.inj h ▸ .subscribe hr
    · exact absurd h nofun
  | fetch =>
    -- A symbol without a cached quote is skipped.
    dsimp only at h
    split at h
    · next hr =>
      split at h
      · next hnone => exact Option.some.inj h ▸ .skip hr hnone
      · next hq => exact Option.some.inj h ▸ .fetch hr hq
    · exact absurd h nofun
  | fetchInvalid =>
    dsimp only at h
    split at h
    · exact Option.some.inj h ▸ .fetchInvalid
    · exact absurd h nofun
  | sendSnapshot =>
    dsimp only at h
    split at h
    · next hr => exact Option.some.inj h ▸ .sendSnapshot hr
    · exact absurd h nofun
  | ackSubscribe =>
    dsimp only at h
    split at h
    · next hr => exact Option.some.inj h ▸ hwait hr rfl nofun trivial rfl
    · exact absurd h nofun
  | unsubscribe =>
    dsimp only at h
    split at h
    · next hr => exact Option.some.inj h ▸ .unsubscribe hr
    · exact absurd h nofun
  | ackUnsubscribe =>
    dsimp only at h
    split at h
    · next hr => exact Option.some.inj h ▸ .ackUnsubscribe hr
    · exact absurd h nofun
  | stop =>
    -- The loop can end at every stage but its last.
    dsimp only at h
    split at h
    · exact absurd h nofun
    · exact Option.some.inj h ▸ .stop
  | remove =>
    dsimp only at h
    split at h
    · next hr => exact Option.some.inj h ▸ .remove hr
    · exact absurd h nofun

/-- `receive_loop` gives the session no quote, and takes none from `publish`. -/
theorem Received.frame {a : Receiver} (h : Received st a st') :
    (∀ q ∈ st'.held, q ∈ st.held) ∧ st'.inflight = st.inflight ∧ st'.fanout = st.fanout ∧
      st'.store = st.store := by
  cases h with
  | stop => exact ⟨fun q hq => List.mem_append_right _ hq, rfl, rfl, rfl⟩
  | remove _ =>
    refine ⟨fun q hq => ?_, rfl, rfl, rfl⟩
    rcases List.mem_append.1 hq with hq | hq
    · exact List.mem_append_left _ hq
    · exact absurd hq List.not_mem_nil
  | _ => exact ⟨fun q hq => hq, rfl, rfl, rfl⟩

/-! ## Steps of a session -/

/-- The command for the symbol of `Models.sample`. -/
def sampleCommand (action : CommandAction) : SubscriptionCommand where
  action := action
  symbols := [Models.sample.symbol]
  channels := [Lib.text "quote"]
  requestId := none
  symbols_le := by decide
  channels_le := by decide
  requestId_le := nofun
  valid := Or.inr nofun

/-- `Models.sample` with another sequence. -/
def quoteAt (sequence : ℕ) : Quote :=
  ⟨{ Models.sample.toQuoteFields with sequence := some ⟨sequence, Int.natCast_nonneg sequence⟩ },
    Models.sample.valid⟩

/-- A symbol without a cached quote is subscribed to. -/
def subscribeSteps : List Action :=
  [.receiver (.receive (sampleCommand .subscribe)), .receiver .subscribe, .receiver .fetch,
    .receiver .ackSubscribe]

/-- A quote comes into the buffer. -/
def bufferSteps (q : Quote) : List Action := [.feed (.cache q), .feed .publish, .feed (.put 0)]

/-- A quote is sent. -/
def sendSteps : List Action := [.tick 1000000, .sender .take, .sender .send]

/-- The symbol is unsubscribed. -/
def unsubscribeSteps : List Action :=
  [.receiver (.receive (sampleCommand .unsubscribe)), .receiver .unsubscribe,
    .receiver .ackUnsubscribe]

end Delivery

end MarketDataGateway.Session

import Mathlib.Data.Finset.Image
import MarketDataGateway.Collector.Control

/-!
# The subscription handshake

`CoinbaseResearchMarketDataProvider` of `providers/coinbase.py` with its reader task and its queue,
and the two loops of `collector.py` that share `_provider_lock`. A call of `subscribe` waits until
the reader has seen an acknowledgement of each required channel, and the loop that has made the call
holds the lock meanwhile.

The lock is held by the loop that is inside `async with`. A step runs up to the next `await` that
may suspend. Commands to Redis in the handler of `_provider_loop` do not fail.
-/

namespace MarketDataGateway.Collector.Handshake

open Registry (Action)

/-- The configuration of the provider. -/
structure Config where
  /-- `queue_size`. -/
  queueSize : ℕ := 10000
  /-- `__post_init__` rejects a size that is not positive. -/
  queueSize_pos : 0 < queueSize := by decide
  /-- `str.strip` and `str.upper`. -/
  stripUpper : String → String

/-- `_symbol`, which raises if there is no character or an unsupported one. -/
def Config.symbol (cfg : Config) (value : String) : Option Symbol :=
  let symbol := cfg.stripUpper value
  if symbol = "" then none
  else if symbol.toList.all fun c =>
    c ∈ "ABCDEFGHIJKLMNOPQRSTUVWXYZ0123456789._:-".toList then some symbol
  else none

/-- The channels of `_REQUIRED_CHANNELS`. -/
inductive Channel
  /-- `heartbeats`. -/
  | heartbeats
  /-- `ticker`. -/
  | ticker
  /-- `market_trades`. -/
  | marketTrades
  deriving DecidableEq

/-- `_REQUIRED_CHANNELS`. -/
def requiredChannels : List Channel := [.heartbeats, .ticker, .marketTrades]

/-- A message of the upstream. -/
inductive Message
  /-- The acknowledged channels of a `subscriptions` message that are required. -/
  | subscriptions (channels : List Channel)
  /-- The symbols of the events that the projector makes of a `market_trades` message. -/
  | trades (symbols : List Symbol)
  /-- Any other message, or one that is rejected. -/
  | other

/-- `_reader_task`. -/
inductive Reader
  /-- `None`. -/
  | absent
  /-- `connection.recv()`. -/
  | receiving
  /-- The loop over the events of a message: `event` is to be put into the queue, then `rest`. -/
  | putting (event : Symbol) (rest : List Symbol)
  /-- The task is done. -/
  | ended
  deriving DecidableEq

/-- The reader when the events of a message are still to be put into the queue. -/
def Reader.after : List Symbol → Reader
  | [] => .receiving
  | event :: rest => .putting event rest

/-- The ways in which the reader ends by itself. -/
inductive Exit
  /-- No message has come within `message_idle_timeout_seconds`. -/
  | idle
  /-- `ConnectionClosed`. -/
  | closed
  /-- An unexpected exception. -/
  | failed

/-- The state of the provider. -/
structure Provider where
  /-- Whether `_state` is `CONNECTED`. -/
  connected : Bool
  /-- Whether there is a `_connection`. -/
  connection : Bool
  /-- Whether it is open. -/
  isOpen : Bool
  /-- `_reader_task`. -/
  reader : Reader
  /-- How many events are in `_queue`. -/
  queue : ℕ
  /-- `_symbols`. -/
  symbols : Finset Symbol
  /-- `_heartbeats_subscribed`. -/
  heartbeatsSubscribed : Bool
  /-- `_acknowledged_channels`. -/
  acknowledgedChannels : Finset Channel
  /-- Whether `_all_acknowledged` is set. -/
  allAcknowledged : Bool

/-- A call of `subscribe` or `unsubscribe`, once it has come to an `await`. -/
inductive Call
  /-- `subscribe`: `connection.send` for a channel, before those for `rest`. `missing` is whether a
  channel was missing when the call began. -/
  | sending (channel : Channel) (rest : List Channel) (missing : Bool)
  /-- `unsubscribe`: `connection.send` for a channel, before those for `rest`. -/
  | unsubscribing (channel : Channel) (rest : List Channel)
  /-- `subscribe`: `_all_acknowledged.wait()`. -/
  | waiting
  /-- `subscribe`: the event has been set. -/
  | woken
  deriving DecidableEq

/-- How a call goes on. -/
inductive Next
  /-- It raises. -/
  | raises
  /-- It returns. -/
  | returns
  /-- It comes to the next `await`. -/
  | goesOn (call : Call)

/-- The program counter of `_control_loop`. -/
inductive ControlPc
  /-- Between two messages. -/
  | idle
  /-- `_apply_control`: the lock. -/
  | wantLock (control : Control)
  /-- `_apply_control`: a call of the provider, with the lock. -/
  | calling (call : Call)
  deriving DecidableEq

/-- The program counter of `_provider_loop`. -/
inductive LoopPc
  /-- The lock. -/
  | wantLock
  /-- `connect`, with the lock. -/
  | connecting
  /-- `subscribe`, with the lock. -/
  | calling (call : Call)
  /-- The loop over `events()`. -/
  | events
  /-- The handler of an exception, before `disconnect`. -/
  | failing
  deriving DecidableEq

/-- The state of the system. -/
structure State where
  /-- The provider. -/
  provider : Provider
  /-- `active_symbols`. -/
  activeSymbols : Finset Symbol
  /-- `_control_loop`. -/
  control : ControlPc
  /-- `_provider_loop`. -/
  loop : LoopPc

/-- A provider that has never been connected. -/
def Provider.init : Provider where
  connected := false
  connection := false
  isOpen := false
  reader := .absent
  queue := 0
  symbols := ∅
  heartbeatsSubscribed := false
  acknowledgedChannels := ∅
  allAcknowledged := false

/-- A collector that starts. -/
def State.init : State := ⟨.init, ∅, .idle, .wantLock⟩

/-! ## The provider -/

/-- A call that waits is woken when the event is set. -/
def Call.wake : Call → Call
  | .waiting => .woken
  | call => call

/-- The control loop when the event is set. -/
def ControlPc.wake : ControlPc → ControlPc
  | .calling call => .calling call.wake
  | pc => pc

/-- The provider loop when the event is set. -/
def LoopPc.wake : LoopPc → LoopPc
  | .calling call => .calling call.wake
  | pc => pc

/-- Each required channel is acknowledged. -/
def Provider.AllAcked (p : Provider) : Prop := ∀ c ∈ requiredChannels, c ∈ p.acknowledgedChannels

instance (p : Provider) : Decidable p.AllAcked :=
  inferInstanceAs (Decidable (∀ c ∈ requiredChannels, c ∈ p.acknowledgedChannels))

/-- `_sync_ack_event`. -/
def syncAckEvent (st : State) : State :=
  if st.provider.AllAcked then
    { st with
      provider := { st.provider with allAcknowledged := true }
      control := st.control.wake
      loop := st.loop.wake }
  else { st with provider := { st.provider with allAcknowledged := false } }

/-- `_record_acknowledged_channel`. -/
def recordAcknowledged (st : State) (channel : Channel) : State :=
  syncAckEvent { st with provider := { st.provider with
    acknowledgedChannels := insert channel st.provider.acknowledgedChannels } }

/-- `subscribe`, up to its first `await`. -/
def beginSubscribe (cfg : Config) (p : Provider) (symbols : Finset Symbol) : Provider × Next :=
  if ∃ s ∈ symbols, cfg.symbol s = none then (p, .raises)
  else
    let normalized := symbols.image fun s => (cfg.symbol s).getD ""
    let updated := { p with symbols := p.symbols ∪ normalized }
    let missing : Bool := ∃ c ∈ requiredChannels, c ∉ p.acknowledgedChannels
    if normalized ⊆ p.symbols ∧ missing = false then (updated, .returns)
    else if p.connection = false then (updated, .raises)
    else
      let cleared := { updated with allAcknowledged := false }
      if p.heartbeatsSubscribed then (cleared, .goesOn (.sending .ticker [.marketTrades] missing))
      else (cleared, .goesOn (.sending .heartbeats [.ticker, .marketTrades] missing))

/-- `unsubscribe`, up to its first `await`. -/
def beginUnsubscribe (cfg : Config) (p : Provider) (symbols : Finset Symbol) : Provider × Next :=
  if ∃ s ∈ symbols, cfg.symbol s = none then (p, .raises)
  else
    let normalized := symbols.image fun s => (cfg.symbol s).getD ""
    let updated := { p with symbols := p.symbols \ normalized }
    if normalized ∩ p.symbols = ∅ then (updated, .returns)
    else if p.connection = false then (updated, .raises)
    else (updated, .goesOn (.unsubscribing .ticker [.marketTrades]))

/-- The message for a channel has been sent. -/
def State.sentFor (st : State) (channel : Channel) : State :=
  if channel = .heartbeats then
    { st with provider := { st.provider with heartbeatsSubscribed := true } }
  else st

/-- `subscribe` goes on after a message has been sent, before those for `rest`. -/
def afterSend (p : Provider) (missing : Bool) (rest : List Channel) : Next :=
  match rest with
  | channel :: rest => .goesOn (.sending channel rest missing)
  | [] => if missing && !p.allAcknowledged then .goesOn .waiting else .returns

/-- `unsubscribe` goes on after a message has been sent, before those for `rest`. -/
def afterUnsubscribe (rest : List Channel) : Next :=
  match rest with
  | channel :: rest => .goesOn (.unsubscribing channel rest)
  | [] => .returns

/-- The next step of a call. `sent` is whether `connection.send` goes through, which it does only on
an open connection. A call that waits takes no step: it is woken. -/
def callStep (st : State) (sent : Bool) : Call → Option (State × Next)
  | .sending channel rest missing =>
    if sent && st.provider.isOpen then
      some (st.sentFor channel, afterSend st.provider missing rest)
    else some (st, .raises)
  | .unsubscribing channel rest =>
    if sent && st.provider.isOpen then
      some (syncAckEvent { st with provider := { st.provider with
        acknowledgedChannels := st.provider.acknowledgedChannels.erase channel } },
        afterUnsubscribe rest)
    else some (st, .raises)
  | .waiting => none
  | .woken => some (st, .returns)

/-- `disconnect`. -/
def disconnect (st : State) : State :=
  { st with provider := { Provider.init with queue := st.provider.queue } }

/-! ## The loops -/

/-- The control loop is inside `async with self._provider_lock`. -/
def ControlPc.holdsLock : ControlPc → Bool
  | .calling _ => true
  | _ => false

/-- The provider loop is inside `async with self._provider_lock`. -/
def LoopPc.holdsLock : LoopPc → Bool
  | .connecting => true
  | .calling _ => true
  | _ => false

/-- `_provider_lock` is locked. -/
def State.locked (st : State) : Bool := st.control.holdsLock || st.loop.holdsLock

/-- Where the control loop goes on. An exception ends its batch. -/
def ControlPc.next : Next → ControlPc
  | .goesOn call => .calling call
  | _ => .idle

/-- Where the provider loop goes on. -/
def LoopPc.next : Next → LoopPc
  | .raises => .failing
  | .returns => .events
  | .goesOn call => .calling call

/-- A step of the control loop. -/
def controlStep (cfg : Config) (st : State) (sent : Bool) : Option State :=
  match st.control with
  | .idle => none
  | .wantLock control =>
    if st.locked then none
    else
      let applied := { st with activeSymbols := applyControl st.activeSymbols control }
      if Changes st.activeSymbols control ∧ st.provider.connected then
        let result := match control.1 with
          | .subscribe => beginSubscribe cfg st.provider {control.2}
          | .unsubscribe => beginUnsubscribe cfg st.provider {control.2}
        some { applied with provider := result.1, control := .next result.2 }
      else some { applied with control := .idle }
  | .calling call =>
    (callStep st sent call).map fun result => { result.1 with control := .next result.2 }

/-- `_provider_loop` after `connect`. -/
def afterConnect (cfg : Config) (st : State) : State :=
  if st.activeSymbols = ∅ then { st with loop := .events }
  else
    let result := beginSubscribe cfg st.provider st.activeSymbols
    { st with provider := result.1, loop := .next result.2 }

/-- The reader task is not there, or done. -/
def Reader.isDone : Reader → Bool
  | .absent => true
  | .ended => true
  | _ => false

/-- A step of the provider loop. `ok` is whether the call that it makes goes through. -/
def loopStep (cfg : Config) (st : State) (ok : Bool) : Option State :=
  match st.loop with
  | .wantLock =>
    if st.locked then none
    else if st.provider.reader.isDone then
      let reset := { st.provider with connected := false, acknowledgedChannels := ∅ }
      some { syncAckEvent { st with provider := reset } with loop := .connecting }
    else some (afterConnect cfg st)
  | .connecting =>
    if ok then
      some (afterConnect cfg { st with provider := { st.provider with
        connected := true
        connection := true
        isOpen := true
        reader := .receiving
        heartbeatsSubscribed := false } })
    else some { st with provider := { st.provider with connected := false }, loop := .failing }
  | .calling call =>
    (callStep st ok call).map fun result => { result.1 with loop := .next result.2 }
  | .events =>
    if st.provider.queue = 0 then
      -- `events()` ends if the reader is done, and `_provider_loop` raises.
      if st.provider.reader.isDone then some { st with loop := .failing } else none
    else
      some { st with
        provider := { st.provider with queue := st.provider.queue - 1 }
        loop := if ok then .events else .failing }
  | .failing => some { disconnect st with loop := .wantLock }

/-! ## The reader -/

/-- The reader has a message. -/
def messageStep (st : State) (message : Message) : State :=
  match message with
  | .subscriptions channels => channels.foldl recordAcknowledged st
  | .trades events => { st with provider := { st.provider with reader := .after events } }
  | .other => st

/-- The reader puts the next event of its message into the queue, when there is room for it. -/
def putStep (cfg : Config) (st : State) (event : Symbol) (rest : List Symbol) : Option State :=
  if event ∉ st.provider.symbols then
    some { st with provider := { st.provider with reader := .after rest } }
  else if st.provider.queue < cfg.queueSize then
    some { st with provider := { st.provider with
      reader := .after rest
      queue := st.provider.queue + 1 } }
  else none

/-- A step of the system. -/
inductive Label
  /-- The upstream sends a message, and the reader receives it. -/
  | message (message : Message)
  /-- The reader puts the next event. -/
  | put
  /-- The reader ends. -/
  | readerExit (exit : Exit)
  /-- The control loop has a message. -/
  | control (control : Control)
  /-- The control loop takes a step. -/
  | runControl (sent : Bool)
  /-- The provider loop takes a step. -/
  | runLoop (ok : Bool)

/-- The steps of the system. -/
def step (cfg : Config) (st : State) : Label → Option State
  | .message message =>
    if st.provider.reader = .receiving then some (messageStep st message) else none
  | .put =>
    match st.provider.reader with
    | .putting event rest => putStep cfg st event rest
    | _ => none
  | .readerExit exit =>
    if st.provider.reader = .receiving then
      some { st with provider := { st.provider with
        reader := .ended
        connected := false
        isOpen := match exit with
          | .closed => false
          | _ => st.provider.isOpen } }
    else none
  | .control control =>
    if st.control = .idle then some { st with control := .wantLock control } else none
  | .runControl sent => controlStep cfg st sent
  | .runLoop ok => loopStep cfg st ok

end MarketDataGateway.Collector.Handshake

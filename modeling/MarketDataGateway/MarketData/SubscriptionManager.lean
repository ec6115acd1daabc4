import MarketDataGateway.Lib.InsertionSet
import MarketDataGateway.MarketData.SourceCalls
import Mathlib.Data.Finset.Basic

/-!
# The subscription manager

`SmartSubscriptionManager` of `market-data/subscription-manager.ts`: the consumers refer to symbols,
and the symbols that are referred to are desired of a `GatewayWebSocketSource`.

The manager is among the listeners of the source. Whatever the source tells, the manager hears first
(`ManagedSource.hear`), and the other listeners of the source and those of the manager have the
control after that. A call of the manager, or of the source under it, is a `ManagerCall`.

`ManagerHistory` is no part of the code: it keeps what the consumers have asked for and what the
manager has passed on and heard. `dispose` is left out.
-/

namespace MarketDataGateway.MarketData

open Lib

/-! ## Keys -/

/-- `SubscriptionKey`. The one channel there is, is `quote`. -/
structure SubscriptionKey where
  symbol : JsString
  /-- `normalizeKey` has let the symbol through. -/
  valid : isSymbol symbol = true
  deriving DecidableEq

/-- What a consumer subscribes to: a symbol, or a key with any channel. -/
inductive KeyInput
  | symbol (symbol : JsString)
  | key (channel symbol : JsString)

/-- What the calls of the manager throw. -/
inductive ManagerError
  /-- `Unsupported market-data channel`. -/
  | unsupportedChannel
  /-- The error of `symbolSchema`. -/
  | invalidSymbol
  /-- `consumerId must not be empty`. -/
  | emptyConsumer
  deriving DecidableEq

/-- `normalizeKey`. -/
def Runtime.normalizeKey (rt : Runtime) (input : KeyInput) : Except ManagerError SubscriptionKey :=
  let (channel, symbol) :=
    match input with
    | .symbol symbol => (js "quote", symbol)
    | .key channel symbol => (channel, symbol)
  if channel ≠ js "quote" then .error .unsupportedChannel
  else
    -- `symbolSchema` trims what it checks.
    let symbol := trim (rt.normalize symbol)
    if h : isSymbol symbol = true then .ok ⟨symbol, h⟩ else .error .invalidSymbol

/-- `nonEmptyConsumer`. -/
def nonEmptyConsumer (consumerId : JsString) : Except ManagerError JsString :=
  let normalized := trim consumerId
  if normalized = [] then .error .emptyConsumer else .ok normalized

/-- `serializeKey`. -/
def serializeKey (key : SubscriptionKey) : JsString := js "quote" ++ js ":" ++ key.symbol

/-- `deserializeKey`, of which the channel is `quote`: what follows the first colon. -/
def deserializeKey (serialized : JsString) : JsString :=
  (serialized.dropWhile fun c => c.val ≠ 0x3A).tail

/-- Keys are what they are serialized to, so that a map by keys stands for one by strings. -/
theorem deserializeKey_serializeKey (key : SubscriptionKey) :
    deserializeKey (serializeKey key) = key.symbol := rfl

/-! ## Snapshots -/

/-- `ManagedSubscriptionStatus`. -/
inductive ManagedSubscriptionStatus
  | pending
  | live
  deriving DecidableEq

/-- `ManagedSubscription`. -/
structure ManagedSubscription where
  key : SubscriptionKey
  refCount : ℕ
  consumers : List JsString
  status : ManagedSubscriptionStatus
  generation : ℕ
  deriving DecidableEq

/-- `SubscriptionManagerSnapshot`. -/
structure SubscriptionManagerSnapshot where
  generation : ℕ
  sourceStatus : SourceStatus
  subscriptions : List ManagedSubscription
  totalReferences : ℕ
  uniqueSubscriptions : ℕ
  deriving DecidableEq

/-! ## The manager -/

/-- `SmartSubscriptionManager`, without its source. -/
structure SmartSubscriptionManager where
  autoStart : Bool
  references : InsertionMap SubscriptionKey (InsertionSet JsString)
  acknowledgedSymbols : InsertionSet JsString
  freshSymbols : InsertionSet JsString
  sourceStatus : SourceStatus
  snapshot : SubscriptionManagerSnapshot

namespace SmartSubscriptionManager

variable (m : SmartSubscriptionManager) (rt : Runtime)

/-- An entry of a snapshot. -/
def subscription (e : SubscriptionKey × InsertionSet JsString) : ManagedSubscription where
  key := e.1
  refCount := e.2.size
  consumers := e.2.elements.insertionSort (· ≤ ·)
  status :=
    if m.sourceStatus.state = .live ∧ e.1.symbol ∈ m.acknowledgedSymbols ∧
      e.1.symbol ∈ m.freshSymbols then .live else .pending
  generation := m.sourceStatus.generation

/-- `buildSnapshot`. -/
def buildSnapshot : SubscriptionManagerSnapshot :=
  let subscriptions := (m.references.entries.map m.subscription).insertionSort fun left right =>
    rt.localeCompare (serializeKey left.key) (serializeKey right.key) ≤ 0
  { generation := m.sourceStatus.generation
    sourceStatus := m.sourceStatus
    subscriptions
    totalReferences := (subscriptions.map ManagedSubscription.refCount).sum
    uniqueSubscriptions := subscriptions.length }

/-- `publishSnapshot`, up to the listeners. -/
def publishSnapshot : SmartSubscriptionManager := { m with snapshot := m.buildSnapshot rt }

/-- `new SmartSubscriptionManager(source, { autoStart })`. -/
def new (autoStart : Bool) (status : SourceStatus) : SmartSubscriptionManager :=
  let m : SmartSubscriptionManager :=
    { autoStart
      references := .empty
      acknowledgedSymbols := .empty
      freshSymbols := .empty
      sourceStatus := status
      snapshot := ⟨status.generation, status, [], 0, 0⟩ }
  m.publishSnapshot rt

/-- `forgetSubscription`. -/
def forgetSubscription (key : SubscriptionKey) : SmartSubscriptionManager :=
  { m with
    references := m.references.delete key
    acknowledgedSymbols := m.acknowledgedSymbols.delete key.symbol
    freshSymbols := m.freshSymbols.delete key.symbol }

/-- A consumer is deleted from the consumers of a key, and the key is forgotten with the last of
them. -/
def dropConsumer (consumer : JsString) (key : SubscriptionKey) (consumers : InsertionSet JsString) :
    SmartSubscriptionManager :=
  let consumers := consumers.delete consumer
  if consumers.size = 0 then m.forgetSubscription key
  else { m with references := m.references.set key consumers }

/-- A consumer is added to the consumers of a key. -/
def addConsumer (consumer : JsString) (key : SubscriptionKey) : SmartSubscriptionManager :=
  { m with
    references := m.references.set key (((m.references.get key).getD .empty).add consumer) }

/-- A consumer refers to the key. -/
def Refers (consumer : JsString) (key : SubscriptionKey) : Prop :=
  consumer ∈ (m.references.get key).getD .empty

instance (consumer : JsString) (key : SubscriptionKey) : Decidable (m.Refers consumer key) :=
  inferInstanceAs (Decidable (consumer ∈ (m.references.get key).getD .empty))

/-- The symbols that are referred to, in order. -/
def symbols : List JsString :=
  (m.references.entries.map fun e => e.1.symbol).insertionSort (· ≤ ·)

/-! ### What the source tells -/

/-- What the listener of the events does, up to the listeners of the manager. -/
def hearEvent (event : SourceEvent) : SmartSubscriptionManager :=
  if event.generation ≠ m.sourceStatus.generation then m
  else
    match event with
    | .subscriptionAck .subscribe symbols _ _ =>
      { m with
        acknowledgedSymbols := symbols.foldl .add m.acknowledgedSymbols }.publishSnapshot rt
    | .subscriptionAck .unsubscribe symbols _ _ =>
      { m with
        acknowledgedSymbols := symbols.foldl .delete m.acknowledgedSymbols
        freshSymbols := symbols.foldl .delete m.freshSymbols }.publishSnapshot rt
    | .marketData point =>
      let symbol := point.quote.symbol
      if ∀ e ∈ m.references.entries, e.1.symbol ≠ symbol then m
      else if point.stale then m
      else if symbol ∈ m.freshSymbols then m
      else { m with freshSymbols := m.freshSymbols.add symbol }.publishSnapshot rt
    | .pong .. => m
    | .notice .. => m

/-- What the listener of the statuses does, up to the listeners of the manager. -/
def hearStatus (status : SourceStatus) : SmartSubscriptionManager :=
  let m :=
    if status.generation ≠ m.sourceStatus.generation then
      { m with acknowledgedSymbols := .empty, freshSymbols := .empty }
    else m
  { m with sourceStatus := status }.publishSnapshot rt

/-- What the manager does about what the source puts out. -/
def hear : SourceOutput → SmartSubscriptionManager
  | .emitted event => m.hearEvent rt event
  | .status status => m.hearStatus rt status
  | .sent .. => m
  | .closed .. => m

/-! ### What is replaced -/

/-- The first loop of `replaceConsumerSubscriptions`, over the entries given. With it comes whether
anything has changed. -/
def dropOthers (consumer : JsString) (desired : InsertionSet SubscriptionKey)
    (m : SmartSubscriptionManager) :
    List (SubscriptionKey × InsertionSet JsString) → SmartSubscriptionManager × Bool
  | [] => (m, false)
  | (key, consumers) :: entries =>
    if consumer ∈ consumers ∧ key ∉ desired then
      ((dropOthers consumer desired (m.dropConsumer consumer key consumers) entries).1, true)
    else dropOthers consumer desired m entries

/-- The second loop of `replaceConsumerSubscriptions`, over the keys given. -/
def addDesired (consumer : JsString) (m : SmartSubscriptionManager) :
    List SubscriptionKey → SmartSubscriptionManager × Bool
  | [] => (m, false)
  | key :: keys =>
    if m.Refers consumer key then addDesired consumer m keys
    else ((addDesired consumer (m.addConsumer consumer key) keys).1, true)

/-- What `replaceConsumerSubscriptions` makes of the references. -/
def replaceReferences (consumer : JsString) (desired : InsertionSet SubscriptionKey) :
    SmartSubscriptionManager × Bool :=
  let (dropped, changed) := dropOthers consumer desired m m.references.entries
  let (added, changed') := addDesired consumer dropped desired.elements
  (added, changed || changed')

end SmartSubscriptionManager

/-! ## The manager over its source -/

/-- What `subscribe` returns: a function that unsubscribes once. -/
structure Disposer where
  active : Bool
  consumer : JsString
  key : SubscriptionKey

/-- What has come before. -/
structure ManagerHistory where
  /-- The consumers and keys that have been added and not removed since. -/
  pairs : Finset (JsString × SubscriptionKey)
  /-- What has been passed to `replaceSymbols` last. -/
  passed : Option (List JsString)
  /-- What the manager has heard, and the keys that were not referred to before, the last first. -/
  log : List (SourceOutput ⊕ SubscriptionKey)

/-- A manager over its source. -/
structure ManagedSource where
  manager : SmartSubscriptionManager
  source : GatewayWebSocketSource
  /-- What the calls of `subscribe` have returned. -/
  disposers : List Disposer
  history : ManagerHistory

/-- A call of the manager, or of the source under it. -/
abbrev ManagerCall := Call ManagedSource

/-- `isStartable`. -/
def isStartable (state : SourceConnectionState) : Bool := state = .idle || state = .stopped

namespace ManagedSource

variable (m : ManagedSource) (rt : Browser)

/-- The source is in another state. -/
def withSource (source : GatewayWebSocketSource) : ManagedSource := { m with source }

/-- The manager hears what the source has put out last. -/
def hear (source : GatewayWebSocketSource) : ManagedSource :=
  match source.output with
  | [] => m.withSource source
  | o :: _ =>
    { m with
      source
      manager := m.manager.hear rt.toRuntime o
      history := { m.history with log := .inl o :: m.history.log } }

/-- A call of the source under the manager. -/
def lift (m : ManagedSource) : SourceCall → ManagerCall
  | .returned s => .returned (m.withSource s)
  | .telling s rest => .telling (m.hear rt s) fun m => lift m (rest m.source)

/-- A consumer has been added to the consumers of a key. -/
def noteAdded (consumer : JsString) (keys : List SubscriptionKey) : ManagedSource :=
  { m with
    history := { m.history with
      pairs := (keys.map (Prod.mk consumer)).toFinset ∪ m.history.pairs
      log := (keys.filter (m.manager.references.get · = none)).map .inr ++ m.history.log } }

/-- A consumer has been removed from the consumers of the keys that meet the condition. -/
def noteRemoved (consumer : JsString) (p : SubscriptionKey → Prop) [DecidablePred p] :
    ManagedSource :=
  { m with
    history := { m.history with
      pairs := m.history.pairs.filter fun pair => ¬(pair.1 = consumer ∧ p pair.2) } }

/-- `syncDesiredSymbols`. -/
def syncDesiredSymbols (outcomes : Outcomes) : ManagerCall :=
  let symbols := m.manager.symbols
  lift rt { m with history := { m.history with passed := some symbols } }
    (SourceCall.replaceSymbols m.source rt outcomes symbols)

/-- `publishSnapshot`. -/
def publishSnapshot : ManagerCall :=
  .telling { m with manager := m.manager.publishSnapshot rt.toRuntime } .returned

/-- The source is started if it should be. -/
def startIfNeeded (outcomes : Outcomes) : ManagerCall :=
  if m.manager.autoStart && isStartable m.manager.sourceStatus.state then
    lift rt m (SourceCall.start m.source outcomes)
  else .returned m

/-- `subscribe`. -/
def subscribe (outcomes : Outcomes) (consumerId : JsString) (input : KeyInput) : ManagerCall :=
  match rt.normalizeKey input, nonEmptyConsumer consumerId with
  | .ok key, .ok consumer =>
    let changed := ¬m.manager.Refers consumer key
    let m := m.noteAdded consumer [key]
    let m := { m with manager := m.manager.addConsumer consumer key }
    (if changed then (m.syncDesiredSymbols rt outcomes).bind fun m => m.publishSnapshot rt
      else .returned m).bind fun m =>
    (m.startIfNeeded rt outcomes).bind fun m =>
    .returned { m with disposers := m.disposers ++ [⟨true, consumer, key⟩] }
  | _, _ => .returned m

/-- `unsubscribe`. -/
def unsubscribe (outcomes : Outcomes) (consumerId : JsString) (input : KeyInput) : ManagerCall :=
  match nonEmptyConsumer consumerId, rt.normalizeKey input with
  | .ok consumer, .ok key =>
    let m := m.noteRemoved consumer (· = key)
    match m.manager.references.get key with
    | none => .returned m
    | some consumers =>
      if consumer ∈ consumers then
        let m := { m with manager := m.manager.dropConsumer consumer key consumers }
        (m.syncDesiredSymbols rt outcomes).bind fun m => m.publishSnapshot rt
      else .returned m
  | _, _ => .returned m

/-- What a disposer does. -/
def dispose (outcomes : Outcomes) (n : ℕ) (disposer : Disposer) : ManagerCall :=
  if disposer.active then
    let m := { m with disposers := m.disposers.set n { disposer with active := false } }
    m.unsubscribe rt outcomes disposer.consumer (.key (js "quote") disposer.key.symbol)
  else .returned m

/-- `replaceConsumerSubscriptions`. -/
def replaceConsumerSubscriptions (outcomes : Outcomes) (consumerId : JsString)
    (inputs : List KeyInput) : ManagerCall :=
  match nonEmptyConsumer consumerId, inputs.mapM rt.normalizeKey with
  | .ok consumer, .ok keys =>
    let desired := InsertionSet.ofList keys
    let m := (m.noteRemoved consumer (· ∉ desired)).noteAdded consumer desired.elements
    let (manager, changed) := m.manager.replaceReferences consumer desired
    let m := { m with manager }
    if changed then
      (m.syncDesiredSymbols rt outcomes).bind fun m =>
      (if m.manager.references.entries = [] then .returned m
        else m.startIfNeeded rt outcomes).bind fun m =>
      m.publishSnapshot rt
    else .returned m
  | _, _ => .returned m

end ManagedSource

/-! ## Runs -/

/-- What happens to a manager over its source. -/
inductive ManagerAction
  | subscribe (consumerId : JsString) (input : KeyInput)
  | unsubscribe (consumerId : JsString) (input : KeyInput)
  | replaceConsumerSubscriptions (consumerId : JsString) (inputs : List KeyInput)
  /-- What the call of `subscribe` of this number has returned is called. -/
  | dispose (n : ℕ)
  /-- What happens to the source, `start` and `stop` of the manager among it. -/
  | source (action : SourceAction)

/-- What an action calls. No one else replaces the symbols of the source. -/
def ManagedSource.method (rt : Browser) (m : ManagedSource) :
    ManagerAction × Outcomes → Option ManagerCall
  | (action, outcomes) =>
    match action with
    | .subscribe consumerId input => some (m.subscribe rt outcomes consumerId input)
    | .unsubscribe consumerId input => some (m.unsubscribe rt outcomes consumerId input)
    | .replaceConsumerSubscriptions consumerId inputs =>
      some (m.replaceConsumerSubscriptions rt outcomes consumerId inputs)
    | .dispose n => m.disposers[n]?.map (m.dispose rt outcomes n)
    | .source (.replaceSymbols _) => none
    | .source action => (SourceCall.method rt m.source (action, outcomes)).map (lift rt m)

/-- A manager is made over a source. -/
def ManagedSource.new (rt : Browser) (autoStart : Bool) (source : GatewayWebSocketSource) :
    ManagedSource where
  manager := .new rt.toRuntime autoStart source.status
  source
  disposers := []
  history := ⟨∅, none, []⟩

/-- The steps of a manager over its source, with the listeners of both. -/
abbrev managerStep (rt : Browser) :
    Calls ManagedSource → CallLabel (ManagerAction × Outcomes) → Option (Calls ManagedSource) :=
  Calls.step (ManagedSource.method rt)

end MarketDataGateway.MarketData

import MarketDataGateway.MarketData.SubscriptionHearing

/-!
# The subscription manager in its runs

What holds of a `SmartSubscriptionManager` over its source in every run (`soundness_run`), wherever
a call returns and wherever the listeners have the control. They do not call the manager or the
source, but they may throw.

What is reported as live is confirmed, unless an acknowledgement of an unsubscribe has the source
clear an error first, of a symbol that the manager holds as acknowledged (`exists_unconfirmed`). If
the listeners return, that lasts no longer than the call.
-/

namespace MarketDataGateway.MarketData

open Lib GatewayWebSocketSource

namespace ManagedSource

variable {m m' : ManagedSource} {rt : Browser} {call : SourceCall} {outcomes : Outcomes}
  {p : GatewayWebSocketSource → Prop} {consumer : JsString} {key : SubscriptionKey}
  {extra extra' : Set JsString}

/-- What has been passed to the source last are the symbols that are referred to. -/
def Passed (m : ManagedSource) : Prop := m.history.passed.getD [] = m.manager.symbols

/-- What holds as a manager goes on with a call, before it has published a snapshot. -/
structure Underway (extra : Set JsString) (m : ManagedSource) : Prop where
  sound : m.Sound extra
  passed : m.Passed
  consistent : Consistent m.source

/-- What holds whenever the listeners have the control or no call is under way. -/
structure Settled (extra : Set JsString) (rt : Browser) (m : ManagedSource) : Prop
    extends Underway extra m where
  current : m.manager.Current rt.toRuntime

/-- The manager may hold more symbols as acknowledged. -/
theorem Settled.mono (h : m.Settled extra rt) (hextra : extra ⊆ extra') : m.Settled extra' rt :=
  ⟨⟨h.sound.mono hextra, h.passed, h.consistent⟩, h.current⟩

/-! ## Calls of the source -/

/-- What a call of the source keeps, it keeps under the manager. -/
theorem keeps_source (h : call.Keeps p) : (lift rt m call).Keeps fun m => p m.source := by
  induction call generalizing m with
  | returned s => exact h
  | telling s rest ih =>
    have hrest := @ih s (m.hear rt s) h.rest.2
    have hhere : p (m.hear rt s).source := by
      rw [hear_source]
      exact h.rest.1
    refine ⟨⟨hhere, ?_⟩, ?_⟩
    · show (lift rt (m.hear rt s) (rest (m.hear rt s).source)).Tells _
      rw [hear_source]
      exact hrest.1
    · show p (lift rt (m.hear rt s) (rest (m.hear rt s).source)).run.source
      rw [hear_source]
      exact hrest.2

/-- A call of the source changes nothing of the manager but what it hears. -/
theorem keeps_manager {q : ManagedSource → Prop} (hq : q m)
    (hsource : ∀ m s, q m → q (m.withSource s)) (hhear : ∀ m s, q m → q (m.hear rt s)) :
    (lift rt m call).Keeps q := by
  induction call generalizing m with
  | returned s => exact ⟨trivial, hsource m s hq⟩
  | telling s rest ih =>
    have hrest := @ih (m.hear rt s).source (m.hear rt s) (hhear m s hq)
    exact ⟨⟨hhear m s hq, hrest.1⟩, hrest.2⟩

/-- A call of the source keeps what has been passed. -/
theorem keeps_passed (h : m.Passed) : (lift rt m call).Keeps Passed := by
  refine keeps_manager h (fun m s h => h) fun m s h => ?_
  unfold Passed SmartSubscriptionManager.symbols at h ⊢
  rw [(hear_history s).1, hear_references]
  exact h

/-- A call of the source keeps a current snapshot current. -/
theorem keeps_current (h : m.manager.Current rt.toRuntime) :
    (lift rt m call).Keeps fun m => m.manager.Current rt.toRuntime := by
  refine keeps_manager h (fun m s h => h) fun m s h => ?_
  unfold hear
  cases s.output with
  | nil => exact h
  | cons o before =>
    cases o with
    | emitted event => exact h.hearEvent event
    | status status => exact SmartSubscriptionManager.current_hearStatus rt.toRuntime status
    | sent => exact h
    | closed => exact h

/-- Where statuses are all that is told, the snapshot is current as they are. -/
theorem tells_current (h : Reports call) :
    (lift rt m call).Tells fun m => m.manager.Current rt.toRuntime := by
  induction call generalizing m with
  | returned s => trivial
  | telling s rest ih =>
    obtain ⟨⟨before, houtput⟩, hrest⟩ := h
    refine ⟨?_, ?_⟩
    · rw [hear_eq houtput]
      exact SmartSubscriptionManager.current_hearStatus rt.toRuntime s.status
    · show (lift rt (m.hear rt s) (rest (m.hear rt s).source)).Tells _
      rw [hear_source]
      exact ih s hrest

/-- A call of the source that tells statuses leaves the manager settled wherever it tells them. -/
theorem Underway.lift (h : m.Underway extra)
    (hsound : (ManagedSource.lift rt m call).Keeps (Sound extra))
    (hconsistent : call.Keeps Consistent) (hreports : Reports call) :
    (ManagedSource.lift rt m call).Tells (Settled extra rt) ∧
      (ManagedSource.lift rt m call).run.Underway extra := by
  have hpassed : (ManagedSource.lift rt m call).Keeps Passed := keeps_passed h.passed
  have hall := (hsound.and hpassed).and (keeps_source hconsistent)
  have hunderway := hall.mono fun m hm => Underway.mk hm.1.1 hm.1.2 hm.2
  refine ⟨?_, hunderway.2⟩
  exact (hunderway.1.and (tells_current hreports)).mono fun m hm => ⟨hm.1, hm.2⟩

/-- A call of the source keeps the manager settled, if it keeps it sound. -/
theorem Settled.lift (h : m.Settled extra rt)
    (hsound : (ManagedSource.lift rt m call).Tells (Sound extra') ∧
      (ManagedSource.lift rt m call).run.Sound extra) (hconsistent : call.Keeps Consistent) :
    (ManagedSource.lift rt m call).Tells (Settled extra' rt) ∧
      (ManagedSource.lift rt m call).run.Settled extra rt := by
  have hpassed : (ManagedSource.lift rt m call).Keeps Passed := keeps_passed h.passed
  have hrest := (hpassed.and (keeps_source hconsistent)).and (keeps_current h.current)
  obtain ⟨⟨hrun, hrun'⟩, hcurrent⟩ := hrest.2
  refine ⟨(hsound.1.and hrest.1).mono fun m hm => ?_, ⟨hsound.2, hrun, hrun'⟩, hcurrent⟩
  exact ⟨⟨hm.1, hm.2.1.1, hm.2.1.2⟩, hm.2.2⟩

/-! ## Calls of the manager -/

/-- The source is asked for other symbols. -/
theorem keeps_replaceSymbols (h : m.Sound extra) (symbols : List JsString) :
    (lift rt m (SourceCall.replaceSymbols m.source rt outcomes symbols)).Keeps (Sound extra) := by
  refine Sound.liftFrom ?_ (speaks_replaceSymbols symbols)
  exact h.same rfl rfl rfl rfl

/-- What the manager has passed on is what it refers to. -/
theorem syncDesiredSymbols_spec (h : m.Sound extra) (hs : Consistent m.source) (rt : Browser)
    (outcomes : Outcomes) :
    (m.syncDesiredSymbols rt outcomes).Tells (Settled extra rt) ∧
      (m.syncDesiredSymbols rt outcomes).run.Underway extra := by
  have hunderway : Underway extra { m with
      history := { m.history with passed := some m.manager.symbols } } :=
    ⟨{ h with }, rfl, hs⟩
  have hcall : SourceCall.method rt m.source (.replaceSymbols m.manager.symbols, outcomes) =
      some (SourceCall.replaceSymbols m.source rt outcomes m.manager.symbols) := rfl
  exact hunderway.lift (keeps_replaceSymbols hunderway.sound m.manager.symbols)
    (method_keeps hs (fun t ht => ht.consistent hs) hcall) (reports_replaceSymbols _)

/-- A snapshot that is published is current. -/
theorem Underway.publishSnapshot (h : m.Underway extra) (rt : Browser) :
    (m.publishSnapshot rt).Keeps (Settled extra rt) := by
  have hsettled : Settled extra rt { m with manager := m.manager.publishSnapshot rt.toRuntime } :=
    ⟨⟨{ h.sound with }, h.passed, h.consistent⟩, rfl⟩
  exact ⟨⟨hsettled, trivial⟩, hsettled⟩

/-- The source is started. -/
theorem keeps_start (h : m.Sound extra) (hs : Consistent m.source) (rt : Browser)
    (outcomes : Outcomes) :
    (lift rt m (SourceCall.start m.source outcomes)).Keeps (Sound extra) ∧
      (SourceCall.start m.source outcomes).Keeps Consistent := by
  have hcall : SourceCall.method rt m.source (.start, outcomes) =
      some (SourceCall.start m.source outcomes) := rfl
  refine ⟨sound_sourceCall h hs subset_rfl ?_
      (method_acts hs (fun _ heq => SourceAction.noConfusion heq) hcall),
    method_keeps hs (fun t ht => ht.consistent hs) hcall⟩
  rintro symbol ⟨operation, hoperation, -⟩
  exact absurd hoperation (Option.not_mem_none _)

/-- The manager is settled wherever it tells something as it starts the source. -/
theorem Underway.startIfNeeded (h : m.Underway extra) (rt : Browser) (outcomes : Outcomes) :
    (m.startIfNeeded rt outcomes).Tells (Settled extra rt) ∧
      (m.startIfNeeded rt outcomes).run.Underway extra := by
  unfold ManagedSource.startIfNeeded
  split_ifs
  · obtain ⟨hsound, hconsistent⟩ := keeps_start h.sound h.consistent rt outcomes
    exact h.lift hsound hconsistent reports_start
  · exact ⟨trivial, h⟩

/-- A settled manager stays so as it starts the source. -/
theorem Settled.startIfNeeded (h : m.Settled extra rt) :
    (m.startIfNeeded rt outcomes).Keeps (Settled extra rt) := by
  unfold ManagedSource.startIfNeeded
  split_ifs
  · obtain ⟨hsound, hconsistent⟩ := keeps_start h.sound h.consistent rt outcomes
    exact h.lift hsound hconsistent
  · exact ⟨trivial, h⟩

/-- What has changed is passed on and published. -/
theorem keeps_changed (h : m.Sound extra) (hs : Consistent m.source) :
    ((m.syncDesiredSymbols rt outcomes).bind fun m => m.publishSnapshot rt).Keeps
      (Settled extra rt) := by
  obtain ⟨htells, hrun⟩ := syncDesiredSymbols_spec h hs rt outcomes
  have hpublished := hrun.publishSnapshot rt
  refine ⟨Call.tells_bind.2 ⟨htells, hpublished.1⟩, ?_⟩
  rw [Call.run_bind]
  exact hpublished.2

/-- The source is started if anything is referred to, and then the snapshot is published. -/
theorem Underway.startAndPublish (h : m.Underway extra) (rt : Browser) (outcomes : Outcomes) :
    ((if m.manager.references.entries = [] then .returned m
      else m.startIfNeeded rt outcomes).bind fun m => m.publishSnapshot rt).Keeps
        (Settled extra rt) := by
  split_ifs
  · exact h.publishSnapshot rt
  · obtain ⟨htells, hrun⟩ := h.startIfNeeded rt outcomes
    have hpublished := hrun.publishSnapshot rt
    refine ⟨Call.tells_bind.2 ⟨htells, hpublished.1⟩, ?_⟩
    rw [Call.run_bind]
    exact hpublished.2

/-- The disposers do not matter. -/
theorem Settled.withDisposers (h : m.Settled extra rt) (disposers : List Disposer) :
    Settled extra rt { m with disposers := disposers } :=
  ⟨⟨{ h.sound with }, h.passed, h.consistent⟩, h.current⟩

/-! ### References -/

/-- The pairs after keys have been added. -/
theorem mem_pairs_noteAdded {c' : JsString} {k' : SubscriptionKey} {keys : List SubscriptionKey} :
    (c', k') ∈ (m.noteAdded consumer keys).history.pairs ↔
      c' = consumer ∧ k' ∈ keys ∨ (c', k') ∈ m.history.pairs := by
  unfold noteAdded
  dsimp only
  rw [Finset.mem_union, List.mem_toFinset, List.mem_map]
  refine or_congr_left ⟨?_, fun h => ⟨k', h.2, Prod.ext h.1.symm rfl⟩⟩
  rintro ⟨k, hk, heq⟩
  obtain ⟨rfl, rfl⟩ := Prod.mk.inj heq
  exact ⟨rfl, hk⟩

/-- The pairs after keys have been removed. -/
theorem mem_pairs_noteRemoved {c' : JsString} {k' : SubscriptionKey} {q : SubscriptionKey → Prop}
    [DecidablePred q] : (c', k') ∈ (m.noteRemoved consumer q).history.pairs ↔
      (c', k') ∈ m.history.pairs ∧ ¬(c' = consumer ∧ q k') := Finset.mem_filter

/-- The manager is sound with other references, if they have been asked for. -/
theorem Sound.withManager (h : m.Sound extra) {manager : SmartSubscriptionManager}
    {history : ManagerHistory} (hstatus : manager.sourceStatus = m.manager.sourceStatus)
    (hpopulated : manager.Populated)
    (hpairs : ∀ consumer key, (consumer, key) ∈ history.pairs ↔ manager.Refers consumer key)
    (hacknowledged : ∀ symbol ∈ manager.acknowledgedSymbols,
      symbol ∈ m.manager.acknowledgedSymbols)
    (hfresh : ∀ symbol ∈ manager.freshSymbols, symbol ∈ m.manager.freshSymbols) :
    Sound extra { m with manager := manager, history := history } where
  status := hstatus.trans h.status
  populated := hpopulated
  pairs := hpairs
  acknowledged hsocket symbol hsymbol :=
    h.acknowledged hsocket symbol (hacknowledged symbol hsymbol)
  fresh symbol hsymbol := h.fresh symbol (hfresh symbol hsymbol)

/-- A consumer is added to the consumers of a key. -/
theorem Sound.add (h : m.Sound extra) (consumer : JsString) (key : SubscriptionKey) :
    Sound extra { m.noteAdded consumer [key] with
      manager := (m.noteAdded consumer [key]).manager.addConsumer consumer key } := by
  refine h.withManager rfl h.populated.addConsumer (fun c' k' => ?_) (fun _ hmem => hmem)
    fun _ hmem => hmem
  refine mem_pairs_noteAdded.trans ?_
  rw [List.mem_singleton, h.pairs, or_comm]
  exact SmartSubscriptionManager.refers_addConsumer.symm

/-- A subscription leaves the manager settled. -/
theorem Settled.subscribe (h : m.Settled extra rt) (consumerId : JsString) (input : KeyInput) :
    (m.subscribe rt outcomes consumerId input).Keeps (Settled extra rt) := by
  unfold ManagedSource.subscribe
  split
  · rename_i key consumer _ _
    dsimp only
    have hadded := h.sound.add consumer key
    refine Call.Keeps.bind ?_ fun hchanged => Call.Keeps.bind hchanged.startIfNeeded
      fun hstarted => ⟨trivial, hstarted.withDisposers _⟩
    split_ifs with hrefers
    · -- The consumer refers to the key already.
      have hsame := SmartSubscriptionManager.addConsumer_of_refers hrefers
      refine ⟨trivial, ⟨⟨hadded, ?_, h.consistent⟩, ?_⟩⟩
      · exact h.passed.trans (congrArg SmartSubscriptionManager.symbols hsame.symm)
      · exact hsame.symm ▸ h.current
    · exact keeps_changed hadded h.consistent
  · exact ⟨trivial, h⟩

/-- What is dropped is no longer asked for. -/
theorem Sound.remove (h : m.Sound extra) {consumers : InsertionSet JsString}
    (hget : m.manager.references.get key = some consumers) :
    Sound extra { m.noteRemoved consumer (· = key) with
      manager := (m.noteRemoved consumer (· = key)).manager.dropConsumer consumer key
        consumers } := by
  have hsheds : SmartSubscriptionManager.Sheds (fun c k => c = consumer ∧ k = key) m.manager
      (m.manager.dropConsumer consumer key consumers) :=
    SmartSubscriptionManager.sheds_dropConsumer h.populated hget
  refine h.withManager hsheds.sourceStatus hsheds.populated (fun c' k' => ?_)
    hsheds.acknowledged hsheds.fresh
  refine mem_pairs_noteRemoved.trans ?_
  exact (and_congr_left fun _ => h.pairs c' k').trans (hsheds.refers c' k').symm

/-- What no consumer refers to is not asked for. -/
theorem Sound.removeNone (h : m.Sound extra) (hrefers : ¬m.manager.Refers consumer key) :
    (m.noteRemoved consumer (· = key)).Sound extra := by
  refine h.withManager rfl h.populated (fun c' k' => ?_) (fun _ hmem => hmem) fun _ hmem => hmem
  refine (mem_pairs_noteRemoved (q := (· = key))).trans ?_
  rw [h.pairs]
  refine and_iff_left_of_imp fun hc' hremoved => hrefers ?_
  obtain ⟨rfl, rfl⟩ := hremoved
  exact hc'

/-- Nothing changes for a settled manager. -/
theorem Settled.removeNone (h : m.Settled extra rt) (hrefers : ¬m.manager.Refers consumer key) :
    (m.noteRemoved consumer (· = key)).Settled extra rt :=
  ⟨⟨h.sound.removeNone hrefers, h.passed, h.consistent⟩, h.current⟩

/-- The end of a subscription leaves the manager settled. -/
theorem Settled.unsubscribe (h : m.Settled extra rt) (consumerId : JsString) (input : KeyInput) :
    (m.unsubscribe rt outcomes consumerId input).Keeps (Settled extra rt) := by
  unfold ManagedSource.unsubscribe
  split
  · rename_i consumer key _ _
    dsimp only
    split
    · rename_i hget
      exact ⟨trivial, h.removeNone (SmartSubscriptionManager.not_refers_of_get hget)⟩
    · rename_i consumers hget
      split_ifs with hmem
      · exact keeps_changed (h.sound.remove hget) h.consistent
      · refine ⟨trivial, h.removeNone fun hrefers => hmem ?_⟩
        exact (SmartSubscriptionManager.refers_of_get hget).1 hrefers
  · exact ⟨trivial, h⟩

/-- A disposer leaves the manager settled. -/
theorem Settled.dispose (h : m.Settled extra rt) (n : ℕ) (disposer : Disposer) :
    (m.dispose rt outcomes n disposer).Keeps (Settled extra rt) := by
  unfold ManagedSource.dispose
  split_ifs
  · exact (h.withDisposers _).unsubscribe _ _
  · exact ⟨trivial, h⟩

/-- What a consumer refers to is replaced by what it has asked for. -/
theorem Sound.replace (h : m.Sound extra) (consumer : JsString)
    (desired : InsertionSet SubscriptionKey) :
    Sound extra { (m.noteRemoved consumer (· ∉ desired)).noteAdded consumer desired.elements with
      manager := (m.manager.replaceReferences consumer desired).1 } := by
  obtain ⟨m₁, hsheds, hrefers, -, hpopulated, hrest⟩ :=
    SmartSubscriptionManager.replaceReferences_spec h.populated consumer desired
  refine h.withManager ?_ hpopulated (fun c' k' => ?_) (fun symbol hsymbol => ?_)
    fun symbol hsymbol => ?_
  · rw [hrest]
    exact hsheds.sourceStatus
  · refine mem_pairs_noteAdded.trans ?_
    rw [mem_pairs_noteRemoved, hrefers, hsheds.refers, h.pairs, or_comm]
    rfl
  · rw [hrest] at hsymbol
    exact hsheds.acknowledged symbol hsymbol
  · rw [hrest] at hsymbol
    exact hsheds.fresh symbol hsymbol

/-- A replacement leaves the manager settled. -/
theorem Settled.replaceConsumerSubscriptions (h : m.Settled extra rt) (consumerId : JsString)
    (inputs : List KeyInput) :
    (m.replaceConsumerSubscriptions rt outcomes consumerId inputs).Keeps (Settled extra rt) := by
  unfold ManagedSource.replaceConsumerSubscriptions
  split
  · rename_i consumer keys _ _
    dsimp only
    have hreplaced := h.sound.replace consumer (InsertionSet.ofList keys)
    split_ifs with hchanged
    · obtain ⟨htells, hunderway⟩ :=
        syncDesiredSymbols_spec hreplaced h.consistent rt outcomes
      have hstarted := hunderway.startAndPublish rt outcomes
      refine ⟨Call.tells_bind.2 ⟨htells, hstarted.1⟩, ?_⟩
      rw [Call.run_bind]
      exact hstarted.2
    · have hsame := SmartSubscriptionManager.replaceReferences_unchanged
        (Bool.not_eq_true _ ▸ hchanged)
      refine ⟨trivial, ⟨⟨hreplaced, ?_, h.consistent⟩, ?_⟩⟩
      · exact h.passed.trans (congrArg SmartSubscriptionManager.symbols hsame.symm)
      · exact hsame.symm ▸ h.current
  · exact ⟨trivial, h⟩

/-! ## Runs -/

/-- The listeners do not call the manager or the source, and no acknowledgement of an unsubscribe
has the source clear an error before the manager hears of it, while the manager holds a symbol of it
as acknowledged. -/
def Orderly (c : Calls ManagedSource) : CallLabel (ManagerAction × Outcomes) → Prop
  | .call (.source action, _) => c.waiting = [] ∧ c.state.Unheld action
  | .call _ => c.waiting = []
  | .returns => True
  | .throws => True

instance (m : ManagedSource) (action : SourceAction) : Decidable (m.Unheld action) :=
  inferInstanceAs (Decidable (∀ operation ∈ acknowledgedBy m.source action, _ → _ → _))

instance (c : Calls ManagedSource) (a : CallLabel (ManagerAction × Outcomes)) :
    Decidable (Orderly c a) := by
  unfold Orderly
  split <;> infer_instance

/-- A step of an orderly run is one of listeners that do not call. -/
theorem Orderly.unnested {c : Calls ManagedSource} {a : CallLabel (ManagerAction × Outcomes)}
    (h : Orderly c a) : Calls.Unnested c a := by
  cases a with
  | call b =>
    obtain ⟨action, outcomes⟩ := b
    cases action with
    | source action => exact h.1
    | _ => exact h
  | returns => trivial
  | throws => trivial

/-- The manager holds no symbol of an acknowledgement that is told too late. -/
theorem Orderly.unheld {c : Calls ManagedSource} {action : SourceAction} {outcomes : Outcomes}
    (h : Orderly c (.call (.source action, outcomes))) : c.state.Unheld action := h.2

/-- What happens to the source is a call of the source, but none for other symbols. -/
theorem method_source {action : SourceAction} {call : ManagerCall}
    (hcall : m.method rt (.source action, outcomes) = some call) :
    (∀ symbols, action ≠ .replaceSymbols symbols) ∧ ∃ sourceCall,
      SourceCall.method rt m.source (action, outcomes) = some sourceCall ∧
        lift rt m sourceCall = call := by
  cases action with
  | replaceSymbols symbols => cases hcall
  | _ => exact ⟨fun _ heq => SourceAction.noConfusion heq, Option.map_eq_some_iff.1 hcall⟩

/-- Each call keeps the manager settled, when it is done. Wherever something is told before that,
the manager may hold more symbols as acknowledged. -/
theorem Settled.method (h : m.Settled extra rt) {b : ManagerAction × Outcomes}
    {call : ManagerCall} (hextra : extra ⊆ extra')
    (hheld : ∀ action, b.1 = .source action → m.Held action ⊆ extra')
    (hcall : m.method rt b = some call) :
    call.Tells (Settled extra' rt) ∧ call.run.Settled extra rt := by
  have hkeeps {call : ManagerCall} (hcall : call.Keeps (Settled extra rt)) :
      call.Tells (Settled extra' rt) ∧ call.run.Settled extra rt :=
    ⟨hcall.1.mono fun _ hsettled => hsettled.mono hextra, hcall.2⟩
  obtain ⟨action, outcomes⟩ := b
  cases action with
  | subscribe consumerId input =>
    obtain rfl := Option.some.inj hcall
    exact hkeeps (h.subscribe consumerId input)
  | unsubscribe consumerId input =>
    obtain rfl := Option.some.inj hcall
    exact hkeeps (h.unsubscribe consumerId input)
  | replaceConsumerSubscriptions consumerId inputs =>
    obtain rfl := Option.some.inj hcall
    exact hkeeps (h.replaceConsumerSubscriptions consumerId inputs)
  | dispose n =>
    obtain ⟨disposer, -, rfl⟩ := Option.map_eq_some_iff.1 hcall
    exact hkeeps (h.dispose n disposer)
  | source action =>
    obtain ⟨hreplace, sourceCall, hsource, rfl⟩ := method_source hcall
    exact h.lift (sound_sourceCall h.sound h.consistent hextra (hheld action rfl)
        (method_acts h.consistent hreplace hsource))
      (method_keeps h.consistent (fun t ht => ht.consistent h.consistent) hsource)

/-- A manager that has just been made is settled. -/
theorem settled_new {s : GatewayWebSocketSource} (hs : Consistent s) (rt : Browser)
    (autoStart : Bool) : (ManagedSource.new rt autoStart s).Settled extra rt := by
  refine ⟨⟨⟨rfl, fun _ _ hget => ?_, fun consumer key => ?_, fun _ _ hmem => ?_,
    fun _ hmem => ?_⟩, rfl, hs⟩, rfl⟩
  · cases hget
  · exact iff_of_false (Finset.notMem_empty _)
      (SmartSubscriptionManager.not_refers_of_get (m := (ManagedSource.new rt autoStart s).manager)
        rfl)
  · exact absurd hmem (InsertionSet.not_mem_empty _)
  · exact absurd hmem (InsertionSet.not_mem_empty _)

/-- The manager is settled in every run, wherever the listeners have the control. -/
theorem settled_of_path {s : GatewayWebSocketSource} (hs : Consistent s) {autoStart : Bool}
    {c : Calls ManagedSource}
    {ok : Calls ManagedSource → CallLabel (ManagerAction × Outcomes) → Prop}
    (hunnested : ∀ c a, ok c a → Calls.Unnested c a)
    (hheld : ∀ c action outcomes, ok c (.call (.source action, outcomes)) →
      c.state.Held action ⊆ extra)
    (h : Path (managerStep rt) ok ⟨ManagedSource.new rt autoStart s, []⟩ c) :
    c.state.Settled extra rt := by
  have hkept : Calls.Kept (Settled extra rt) c :=
    h.invariant (Calls.Kept (Settled extra rt)) ⟨settled_new hs rt autoStart, Or.inl rfl⟩
      fun c a c' hkept hok hstep => hkept.step (fun b call hb hsettled hcall =>
        hsettled.method subset_rfl (fun action haction => hheld c action b.2 ?_) hcall)
        (hunnested c a hok) hstep
  · exact hkept.1
  · subst hb
    obtain ⟨_, outcomes⟩ := b
    obtain rfl := haction
    exact hok

/-- Where the listeners return, it is so whenever no call is under way, whatever is told too
late. -/
theorem settled_of_quiet {s : GatewayWebSocketSource} (hs : Consistent s) {autoStart : Bool}
    {c : Calls ManagedSource}
    (h : Path (managerStep rt) Calls.Quiet ⟨ManagedSource.new rt autoStart s, []⟩ c)
    (hdone : c.waiting = []) : c.state.Settled ∅ rt := by
  let Led := Calls.Leads (Settled Set.univ rt) (Settled ∅ rt)
  have hled : Led c :=
    h.invariant Led (Or.inl ⟨rfl, settled_new hs rt autoStart⟩)
      fun c a c' hled hquiet hstep => hled.step (fun b call _ hsettled hcall =>
        hsettled.method (Set.empty_subset _) (fun _ _ => Set.subset_univ _) hcall)
        (fun hthrows _ => (hthrows ▸ hquiet : Calls.Quiet c .throws).elim) hquiet.unnested hstep
  exact hled.done hdone

/-! ### Disposers -/

/-- The disposer of this number has been called. -/
def Disposed (n : ℕ) (m : ManagedSource) : Prop :=
  ∃ disposer, m.disposers[n]? = some disposer ∧ disposer.active = false

/-- A call of the source changes no disposer. -/
theorem Disposed.lift {n : ℕ} (h : m.Disposed n) :
    (ManagedSource.lift rt m call).Keeps (Disposed n) := by
  refine keeps_manager h (fun m s h => h) fun m s h => ?_
  unfold Disposed
  rw [(hear_history s).2]
  exact h

/-- Nor does the manager as it passes its symbols on. -/
theorem Disposed.syncDesiredSymbols {n : ℕ} (h : m.Disposed n) :
    (m.syncDesiredSymbols rt outcomes).Keeps (Disposed n) := by
  have hpassed : Disposed n { m with
      history := { m.history with passed := some m.manager.symbols } } := h
  exact hpassed.lift

/-- Nor as it publishes a snapshot. -/
theorem Disposed.publishSnapshot {n : ℕ} (h : m.Disposed n) :
    (m.publishSnapshot rt).Keeps (Disposed n) := ⟨⟨h, trivial⟩, h⟩

/-- Nor as it starts its source. -/
theorem Disposed.startIfNeeded {n : ℕ} (h : m.Disposed n) :
    (m.startIfNeeded rt outcomes).Keeps (Disposed n) := by
  unfold ManagedSource.startIfNeeded
  split_ifs
  · exact h.lift
  · exact ⟨trivial, h⟩

/-- A disposer that has been called stays so as others are made. -/
theorem Disposed.subscribe {n : ℕ} (h : m.Disposed n) (consumerId : JsString) (input : KeyInput) :
    (m.subscribe rt outcomes consumerId input).Keeps (Disposed n) := by
  unfold ManagedSource.subscribe
  split
  · rename_i key consumer _ _
    dsimp only
    have hadded : Disposed n { m.noteAdded consumer [key] with
        manager := (m.noteAdded consumer [key]).manager.addConsumer consumer key } := h
    refine Call.Keeps.bind ?_ fun hchanged => Call.Keeps.bind hchanged.startIfNeeded
      fun hstarted => ⟨trivial, ?_⟩
    · split_ifs
      · exact ⟨trivial, hadded⟩
      · exact hadded.syncDesiredSymbols.bind Disposed.publishSnapshot
    · obtain ⟨disposer, hdisposer, hactive⟩ := hstarted
      refine ⟨disposer, ?_, hactive⟩
      have hlt := (List.getElem?_eq_some_iff.1 hdisposer).1
      exact (List.getElem?_append_left hlt).trans hdisposer
  · exact ⟨trivial, h⟩

/-- It stays so as a subscription ends. -/
theorem Disposed.unsubscribe {n : ℕ} (h : m.Disposed n) (consumerId : JsString)
    (input : KeyInput) : (m.unsubscribe rt outcomes consumerId input).Keeps (Disposed n) := by
  unfold ManagedSource.unsubscribe
  split
  · rename_i consumer key _ _
    have hremoved : Disposed n (m.noteRemoved consumer (· = key)) := h
    dsimp only
    split
    · exact ⟨trivial, hremoved⟩
    · rename_i consumers _
      split_ifs
      · have hdropped : Disposed n { m.noteRemoved consumer (· = key) with
            manager := m.manager.dropConsumer consumer key consumers } := h
        exact hdropped.syncDesiredSymbols.bind Disposed.publishSnapshot
      · exact ⟨trivial, hremoved⟩
  · exact ⟨trivial, h⟩

/-- It stays so as subscriptions are replaced. -/
theorem Disposed.replaceConsumerSubscriptions {n : ℕ} (h : m.Disposed n) (consumerId : JsString)
    (inputs : List KeyInput) :
    (m.replaceConsumerSubscriptions rt outcomes consumerId inputs).Keeps (Disposed n) := by
  unfold ManagedSource.replaceConsumerSubscriptions
  split
  · rename_i consumer keys _ _
    dsimp only
    split_ifs
    · refine Call.Keeps.bind (Disposed.syncDesiredSymbols h) fun hpassed =>
        Call.Keeps.bind ?_ Disposed.publishSnapshot
      split_ifs
      · exact ⟨trivial, hpassed⟩
      · exact hpassed.startIfNeeded
    · exact ⟨trivial, h⟩
  · exact ⟨trivial, h⟩

/-- After its first call, a disposer has been called. -/
theorem disposed_dispose {n : ℕ} {disposer : Disposer} (h : m.disposers[n]? = some disposer) :
    (m.dispose rt outcomes n disposer).Keeps (Disposed n) := by
  unfold ManagedSource.dispose
  split_ifs with hactive
  · refine Disposed.unsubscribe ⟨{ disposer with active := false }, ?_, rfl⟩ _ _
    have hlt := (List.getElem?_eq_some_iff.1 h).1
    exact List.getElem?_set_self hlt
  · exact ⟨trivial, disposer, h, Bool.eq_false_iff.2 hactive⟩

/-- It stays so as any disposer is called. -/
theorem Disposed.dispose {n k : ℕ} (h : m.Disposed n) {disposer : Disposer}
    (hdisposer : m.disposers[k]? = some disposer) :
    (m.dispose rt outcomes k disposer).Keeps (Disposed n) := by
  by_cases hk : k = n
  · subst hk
    exact disposed_dispose hdisposer
  · unfold ManagedSource.dispose
    split_ifs
    · obtain ⟨called, hcalled, hinactive⟩ := h
      refine Disposed.unsubscribe ⟨called, ?_, hinactive⟩ _ _
      exact (List.getElem?_set_ne hk).trans hcalled
    · exact ⟨trivial, h⟩

/-- Each call keeps the disposers that have been called. -/
theorem Disposed.method {n : ℕ} (h : m.Disposed n) {b : ManagerAction × Outcomes}
    {call : ManagerCall} (hcall : m.method rt b = some call) : call.Keeps (Disposed n) := by
  obtain ⟨action, outcomes⟩ := b
  cases action with
  | subscribe consumerId input =>
    obtain rfl := Option.some.inj hcall
    exact h.subscribe consumerId input
  | unsubscribe consumerId input =>
    obtain rfl := Option.some.inj hcall
    exact h.unsubscribe consumerId input
  | replaceConsumerSubscriptions consumerId inputs =>
    obtain rfl := Option.some.inj hcall
    exact h.replaceConsumerSubscriptions consumerId inputs
  | dispose k =>
    obtain ⟨disposer, hdisposer, rfl⟩ := Option.map_eq_some_iff.1 hcall
    exact h.dispose hdisposer
  | source action =>
    obtain ⟨-, sourceCall, -, rfl⟩ := method_source hcall
    exact h.lift

/-- After its first call, a call of a disposer changes nothing. -/
theorem dispose_again {c c₁ c₂ : Calls ManagedSource} {n : ℕ} {outcomes : Outcomes}
    (hwaiting : c.waiting = []) (hfirst : managerStep rt c (.call (.dispose n, outcomes)) = some c₁)
    (h : Path (managerStep rt) Calls.Unnested c₁ c₂) (outcomes' : Outcomes) :
    managerStep rt c₂ (.call (.dispose n, outcomes')) = some c₂ := by
  obtain ⟨s, waiting⟩ := c
  obtain rfl : waiting = [] := hwaiting
  obtain ⟨call, hcall, rfl⟩ := Option.map_eq_some_iff.1 hfirst
  obtain ⟨disposer, hdisposer, rfl⟩ := Option.map_eq_some_iff.1 hcall
  have hkept : Calls.Kept (Disposed n) c₂ :=
    h.invariant (Calls.Kept (Disposed n)) (Calls.kept_proceed (disposed_dispose hdisposer))
      fun c a c' hkept hok hstep => hkept.step
        (fun b call _ hdisposed hcall => hdisposed.method hcall) hok hstep
  obtain ⟨called, hcalled, hinactive⟩ := hkept.1
  show ((c₂.state.disposers[n]?).map (c₂.state.dispose rt outcomes' n)).map _ = _
  rw [hcalled, Option.map_some, Option.map_some]
  unfold ManagedSource.dispose
  rw [if_neg (by rw [hinactive]; exact Bool.false_ne_true)]
  rfl

/-! ### Everything together -/

/-- In every run of a manager over its source, whenever no call is under way or the listeners have
the control: no set of consumers is empty, and the references are what has been asked for and not
given up since. What has been passed to the source last are the symbols referred to, in order and
each once. The totals of the snapshot are those of the sets. A disposer that has been called does
nothing when it is called again. If a symbol is reported as live, the source is live, and a
non-stale quote of the symbol has come in the current generation. It is confirmed if the run is
orderly, or if the listeners return and no call is under way. -/
theorem soundness_run (rt : Browser) (options : SourceOptions) (s₀ s : GatewayWebSocketSource)
    (autoStart : Bool) (c : Calls ManagedSource)
    (hnew : GatewayWebSocketSource.new options = .ok s₀)
    (hbefore : Path (callStep rt) Calls.Unnested ⟨s₀, []⟩ ⟨s, []⟩)
    (h : Path (managerStep rt) Calls.Unnested ⟨ManagedSource.new rt autoStart s, []⟩ c) :
    (∀ key consumers, c.state.manager.references.get key = some consumers →
      consumers.elements ≠ []) ∧
    (∀ consumer key, (∃ consumers, c.state.manager.references.get key = some consumers ∧
      consumer ∈ consumers) ↔ (consumer, key) ∈ c.state.history.pairs) ∧
    ((c.state.history.passed.getD []).Pairwise (· < ·) ∧
      ∀ symbol, symbol ∈ c.state.history.passed.getD [] ↔
        ∃ key, c.state.manager.references.get key ≠ none ∧ key.symbol = symbol) ∧
    (c.state.manager.snapshot.totalReferences =
        (c.state.manager.references.values.map InsertionSet.size).sum ∧
      c.state.manager.snapshot.uniqueSubscriptions = c.state.manager.references.entries.length) ∧
    (c.waiting = [] → ∀ n outcomes c₁ c₂,
      managerStep rt c (.call (.dispose n, outcomes)) = some c₁ →
      Path (managerStep rt) Calls.Unnested c₁ c₂ → ∀ outcomes',
        managerStep rt c₂ (.call (.dispose n, outcomes')) = some c₂) ∧
    ∀ entry ∈ c.state.manager.snapshot.subscriptions, entry.status = .live →
      c.state.source.status.state = .live ∧
      (∃ point : MarketDataPoint, .emitted (.marketData point) ∈ c.state.source.output ∧
        point.quote.symbol = entry.key.symbol ∧ point.stale = false ∧
        point.generation = c.state.source.generation) ∧
      (Path (managerStep rt) Orderly ⟨ManagedSource.new rt autoStart s, []⟩ c ∨
          Path (managerStep rt) Calls.Quiet ⟨ManagedSource.new rt autoStart s, []⟩ c ∧
            c.waiting = [] →
        entry.key.symbol ∈ c.state.source.confirmedSymbols) := by
  have hs := (kept_of_unnested hnew hbefore).1
  have hsettled : c.state.Settled Set.univ rt :=
    settled_of_path hs (fun _ _ => id) (fun _ _ _ _ => Set.subset_univ _) h
  refine ⟨fun key consumers hget hnil => ?_, fun consumer key => ?_, ?_,
    hsettled.current.totals, fun hwaiting n outcomes c₁ c₂ hfirst hpath outcomes' =>
      dispose_again hwaiting hfirst hpath outcomes', fun entry hentry hlive => ?_⟩
  · exact hsettled.sound.populated key consumers hget (List.length_eq_zero_iff.2 hnil)
  · rw [hsettled.sound.pairs]
    constructor
    · rintro ⟨consumers, hget, hmem⟩
      exact (SmartSubscriptionManager.refers_of_get hget).2 hmem
    · intro hrefers
      obtain ⟨consumers, hget⟩ := Option.ne_none_iff_exists'.1 hrefers.referenced
      exact ⟨consumers, hget, (SmartSubscriptionManager.refers_of_get hget).1 hrefers⟩
  · rw [hsettled.passed]
    exact ⟨SmartSubscriptionManager.pairwise_symbols,
      fun symbol => SmartSubscriptionManager.mem_symbols⟩
  · obtain ⟨e, -, rfl⟩ := hsettled.current.mem_subscriptions.1 hentry
    obtain ⟨hstate, hacknowledged, hfresh⟩ := SmartSubscriptionManager.subscription_live.1 hlive
    rw [hsettled.sound.status] at hstate
    obtain ⟨point, hpoint, hsymbol, hstale, hgeneration⟩ := hsettled.sound.fresh _ hfresh
    refine ⟨hstate, ⟨point, hpoint, hsymbol, hstale,
      hgeneration.trans hsettled.consistent.generation⟩, fun hruns => ?_⟩
    have hstrict : c.state.Settled ∅ rt := by
      rcases hruns with horderly | ⟨hquiet, hdone⟩
      · exact settled_of_path hs (fun _ _ => Orderly.unnested)
          (fun _ _ _ hok => Unheld.held (Orderly.unheld hok)) horderly
      · exact settled_of_quiet hs hquiet hdone
    -- A source that is live has a socket.
    have hsocket := hsettled.consistent.live hstate
    exact (hstrict.sound.acknowledged hsocket _ hacknowledged).resolve_right (Set.notMem_empty _)

/-- A quote of a symbol. -/
def quoteOf (symbol : JsString) : WireQuote where
  schemaVersion := js "1.0"
  eventId := js "e"
  symbol := symbol
  price := 1
  bid := none
  ask := none
  providerTimestamp := newYear
  receivedAt := newYear
  sequence := none
  provider := js "p"
  lastSize := none
  cumulativeVolume := none
  tradeCount := none

/-- The first socket of a source gives it a message. -/
def received (requestId : Option JsString) (data : WireData) :
    CallLabel (ManagerAction × Outcomes) :=
  .call (.source (.message 0 1 (some ⟨newYear, requestId, data⟩)), fairOutcomes)

/-- A consumer subscribes to a symbol, and the socket that is opened for it asks for that. -/
def subscribingCalls : List (CallLabel (ManagerAction × Outcomes)) :=
  [.call (.subscribe (js "c") (.symbol (js "A")), fairOutcomes), .returns, .returns,
    .call (.source (.advance .opened), fairOutcomes),
    .call (.source (.opened 0 1), fairOutcomes), .returns]

/-- A symbol whose subscription is acknowledged, and of which a quote comes, is live. -/
theorem soundness_run_live : ∃ c : Calls ManagedSource,
    (∃ entry ∈ c.state.manager.snapshot.subscriptions, entry.key.symbol = js "A") ∧
      js "A" ∈ c.state.source.confirmedSymbols := by
  obtain ⟨c, hpath, entry, hentry, hsymbol, hlive⟩ :=
    Path.exists_of_exec (managerStep asciiBrowser) Orderly
      ⟨ManagedSource.new asciiBrowser true defaultSource, []⟩
      (subscribingCalls ++ [received (some (js "subscribe-1-1")) (.ack .subscribe [js "A"] none),
        .returns, received none (.quote (quoteOf (js "A"))), .returns])
      (fun c => ∃ entry ∈ c.state.manager.snapshot.subscriptions, entry.key.symbol = js "A" ∧
        entry.status = .live) (by decide +kernel)
  obtain ⟨-, -, -, -, -, hsound⟩ :=
    soundness_run asciiBrowser {} defaultSource defaultSource true c new_default .refl
      (hpath.mono fun _ _ => Orderly.unnested)
  obtain ⟨-, -, hconfirmed⟩ := hsound entry hentry hlive
  exact ⟨c, ⟨entry, hentry, hsymbol⟩, hsymbol ▸ hconfirmed (Or.inl hpath)⟩

/-- The consumer gives the symbol up while the subscribe is pending, and asks for it again while the
unsubscribe that follows is. A quote and an error come, and then the unsubscribe is acknowledged. -/
def unsubscribingCalls : List (CallLabel (ManagerAction × Outcomes)) :=
  [.call (.unsubscribe (js "c") (.symbol (js "A")), fairOutcomes), .returns,
    received (some (js "subscribe-1-1")) (.ack .subscribe [js "A"] none), .returns,
    .call (.subscribe (js "c") (.symbol (js "A")), fairOutcomes), .returns,
    received none (.quote (quoteOf (js "A"))), .returns,
    received none (.error (js "internal") (js "text")), .returns, .returns,
    received (some (js "unsubscribe-1-2")) (.ack .unsubscribe [js "A"] none)]

/-- The symbol is reported as live as the error is cleared, though it is not confirmed any more.
That stays so if a listener throws there. -/
theorem exists_unconfirmed : ∃ c c' : Calls ManagedSource,
    Path (managerStep asciiBrowser) Calls.Unnested
      ⟨ManagedSource.new asciiBrowser true defaultSource, []⟩ c ∧
    managerStep asciiBrowser c .throws = some c' ∧ c'.waiting = [] ∧
    ∀ d ∈ [c, c'], ∃ entry ∈ d.state.manager.snapshot.subscriptions, entry.status = .live ∧
      entry.key.symbol ∉ d.state.source.confirmedSymbols := by
  obtain ⟨⟨m, waiting⟩, hpath, hone, hentry⟩ :=
    Path.exists_of_exec (managerStep asciiBrowser) Calls.Unnested
      ⟨ManagedSource.new asciiBrowser true defaultSource, []⟩
      (subscribingCalls ++ unsubscribingCalls)
      (fun c => c.waiting.length = 1 ∧ ∃ entry ∈ c.state.manager.snapshot.subscriptions,
        entry.status = .live ∧ entry.key.symbol ∉ c.state.source.confirmedSymbols)
      (by decide +kernel)
  obtain ⟨rest, rfl⟩ := List.length_eq_one_iff.1 hone
  refine ⟨_, ⟨m, []⟩, hpath, rfl, rfl, fun d hd => ?_⟩
  rcases List.mem_pair.1 hd with rfl | rfl
  · exact hentry
  · exact hentry

end ManagedSource

end MarketDataGateway.MarketData

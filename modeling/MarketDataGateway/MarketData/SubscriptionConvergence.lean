import MarketDataGateway.MarketData.SubscriptionSoundness

/-!
# A subscription manager comes to agree with its source

Over a gateway that rejects no operation, a symbol that is confirmed and referred to is
acknowledged, and one of which a quote has come since it was referred to first is fresh
(`Converging`), but for two oversights. `forgetSubscription` forgets a symbol that the source keeps,
if it is referred to again before the source has unsubscribed from it (`exists_diverged`); and an
acknowledgement of an unsubscribe makes the manager forget a quote that has come after the symbol
was referred to again. In the runs without them (`Heedful`), whenever nothing is pending and what is
confirmed is what is desired, each symbol of which a quote has come is reported as live
(`convergence_run`).
-/

namespace MarketDataGateway.MarketData

open Lib GatewayWebSocketSource

namespace GatewayWebSocketSource

variable {s t : GatewayWebSocketSource} {symbol : JsString} {outcomes : Outcomes} {rt : Browser}
  {socket : WebSocketLike} {operation : PendingSubscriptionOperation}

/-- The symbol is among those of a pending unsubscribe. -/
def Unsubscribing (s : GatewayWebSocketSource) (symbol : JsString) : Prop :=
  ∃ e ∈ s.pendingSubscriptionOperations.entries, e.2.action = .unsubscribe ∧ symbol ∈ e.2.symbols

instance (s : GatewayWebSocketSource) (symbol : JsString) : Decidable (s.Unsubscribing symbol) :=
  inferInstanceAs (Decidable (∃ e ∈ _, _ ∧ _))

/-- A source is consistent, and its output is recorded. -/
abbrev Regular (s : GatewayWebSocketSource) : Prop := Consistent s ∧ s.Logged

/-- Each call keeps a source regular. -/
theorem Regular.method (hs : s.Regular) {action : SourceAction} {call : SourceCall}
    (hcall : SourceCall.method rt s (action, outcomes) = some call) : call.Keeps Regular :=
  method_keeps hs.1 (fun _ ht => ⟨ht.consistent hs.1, ht.logged hs.1 hs.2⟩) hcall

/-- An event that has just been emitted is of the generation of its source. -/
theorem Regular.emitted (hs : s.Regular) {event : SourceEvent} {before : List SourceOutput}
    (houtput : s.output = .emitted event :: before) : event.generation = s.generation := by
  have hfenced := hs.2.fenced
  have hlast := hs.2.last
  rw [houtput] at hfenced hlast
  have hof : lastStatus before = s.status := hlast
  rw [hfenced.1.1, hof, hs.1.generation]

/-- With the same status, regular sources have the same generation. -/
theorem Regular.generation_eq (hs : s.Regular) (ht : t.Regular) (hstatus : t.status = s.status) :
    t.generation = s.generation := by
  rw [← ht.1.generation, hstatus, hs.1.generation]

/-- What is confirmed by a regular source that has stayed unchanged was so before. -/
theorem Regular.confirmed (ht : t.Regular) (hunchanged : Unchanged s t)
    (hsymbol : symbol ∈ t.confirmedSymbols) : t.socket ≠ none ∧ symbol ∈ s.confirmedSymbols := by
  have hsocket : t.socket ≠ none := by
    intro hnone
    rw [ht.1.confirmed hnone] at hsymbol
    exact absurd hsymbol List.not_mem_nil
  exact ⟨hsocket, (hunchanged.confirmed hsocket).2 ▸ hsymbol⟩

/-- An unsubscribe that is pending stays so. -/
theorem Unsubscribing.unchanged (h : s.Unsubscribing symbol) (hunchanged : Unchanged s t)
    (hsocket : t.socket ≠ none) : t.Unsubscribing symbol := by
  obtain ⟨e, he, hunsubscribe⟩ := h
  exact ⟨e, hunchanged.pending hsocket e he, hunsubscribe⟩

/-- The operation that is unsubscribing is the pending one. -/
theorem Unsubscribing.of_awaits (h : s.Unsubscribing symbol) (hawaits : s.Awaits socket operation) :
    operation.action = .unsubscribe ∧ symbol ∈ operation.symbols := by
  obtain ⟨e, he, hunsubscribe⟩ := h
  rw [hawaits.entries, List.mem_singleton] at he
  subst he
  exact hunsubscribe

end GatewayWebSocketSource

namespace ManagedSource

variable {m m' : ManagedSource} {rt : Browser} {s t : GatewayWebSocketSource} {call : SourceCall}
  {outcomes : Outcomes} {key : SubscriptionKey} {extra extra' : Set JsString}

/-- A non-stale quote of the symbol comes, of the generation. -/
def Quotes (symbol : JsString) (generation : ℕ) : SourceOutput ⊕ SubscriptionKey → Prop
  | .inl (.emitted (.marketData point)) =>
    point.quote.symbol = symbol ∧ point.stale = false ∧ point.generation = generation
  | _ => False

instance (symbol : JsString) (generation : ℕ) : DecidablePred (Quotes symbol generation) := by
  intro x
  unfold Quotes
  split <;> infer_instance

/-- A non-stale quote has come in the current generation, and since the key has been referred to
first. -/
def QuotedSince (m : ManagedSource) (key : SubscriptionKey) : Prop :=
  ∃ x ∈ m.history.log.takeWhile (· ≠ .inr key), Quotes key.symbol m.source.generation x

instance (m : ManagedSource) (key : SubscriptionKey) : Decidable (m.QuotedSince key) :=
  inferInstanceAs (Decidable (∃ x ∈ _, _))

/-- A symbol that is confirmed and referred to is acknowledged, or the source is unsubscribing from
it. -/
def Known (m : ManagedSource) : Prop :=
  ∀ e ∈ m.manager.references.entries, e.1.symbol ∈ m.source.confirmedSymbols →
    e.1.symbol ∈ m.manager.acknowledgedSymbols ∨ m.source.Unsubscribing e.1.symbol

instance (m : ManagedSource) : Decidable m.Known :=
  inferInstanceAs (Decidable (∀ e ∈ _, _ → _ ∨ _))

/-- The manager knows of what is confirmed, but for some symbols, and of the quotes. The source
desires what has been passed to it. -/
structure Converging (rt : Browser) (extra : Set JsString) (m : ManagedSource) : Prop where
  sound : m.Sound Set.univ
  regular : m.source.Regular
  /-- What has been passed on last is desired. -/
  desired : ∀ symbols ∈ m.history.passed, m.source.desiredSymbols = rt.normalizeSymbols symbols
  /-- What is confirmed and referred to is acknowledged, or about to be unsubscribed from. -/
  known : ∀ key, m.manager.Referenced key → key.symbol ∈ m.source.confirmedSymbols →
    key.symbol ∈ m.manager.acknowledgedSymbols ∨ m.source.Unsubscribing key.symbol ∨
      key.symbol ∈ extra
  /-- Quotes that have come since a key was referred to first have not been forgotten. -/
  fresh : ∀ key, m.manager.Referenced key → m.QuotedSince key →
    key.symbol ∈ m.manager.freshSymbols
  /-- No quote is of a generation to come. -/
  bound : ∀ point : MarketDataPoint, .inl (.emitted (.marketData point)) ∈ m.history.log →
    point.generation ≤ m.source.generation

/-! ## One thing that is heard -/

/-- The manager may know of less. -/
theorem Converging.mono (h : m.Converging rt extra) (hextra : extra ⊆ extra') :
    m.Converging rt extra' :=
  { h with
    known := fun key hkey hsymbol =>
      (h.known key hkey hsymbol).imp_right fun hor => hor.imp_right fun hmem => hextra hmem }

/-- The generation of the manager is that of the source. -/
theorem Converging.generation (h : m.Converging rt extra) :
    m.manager.sourceStatus.generation = m.source.generation := by
  rw [h.sound.status, h.regular.1.generation]

/-- What is known stays so while nothing changes. -/
theorem Converging.known_unchanged (h : m.Converging rt extra) (ht : t.Regular)
    (hunchanged : Unchanged m.source t) (hkey : m.manager.Referenced key)
    (hsymbol : key.symbol ∈ t.confirmedSymbols) :
    t.socket ≠ none ∧ (key.symbol ∈ m.manager.acknowledgedSymbols ∨
      t.Unsubscribing key.symbol ∨ key.symbol ∈ extra) := by
  obtain ⟨hsocket, hbefore⟩ := ht.confirmed hunchanged hsymbol
  refine ⟨hsocket, (h.known key hkey hbefore).imp_right fun hor => hor.imp_left fun hun => ?_⟩
  exact hun.unchanged hunchanged hsocket

/-- The manager converges over a source of which nothing has changed that it goes by. -/
theorem Converging.unchanged (h : m.Converging rt extra) (ht : t.Regular)
    (hunchanged : Unchanged m.source t) (hstatus : t.status = m.source.status) :
    (m.withSource t).Converging rt extra where
  sound := h.sound.unchanged hunchanged hstatus
  regular := ht
  desired symbols hpassed := hunchanged.desired.trans (h.desired symbols hpassed)
  known key hkey hsymbol := (h.known_unchanged ht hunchanged hkey hsymbol).2
  fresh key hkey hquoted := by
    obtain ⟨x, hx, hquotes⟩ := hquoted
    refine h.fresh key hkey ⟨x, hx, ?_⟩
    rw [← h.regular.generation_eq ht hstatus]
    exact hquotes
  bound point hpoint := (h.bound point hpoint).trans hunchanged.generation.1

/-- A quote has come since when that is heard now, or has been before. -/
theorem quotedSince_hear {o : SourceOutput} {before : List SourceOutput}
    (houtput : t.output = o :: before) : (m.hear rt t).QuotedSince key ↔
      Quotes key.symbol t.generation (.inl o) ∨
        ∃ x ∈ m.history.log.takeWhile (· ≠ .inr key), Quotes key.symbol t.generation x := by
  have htake : (.inl o :: m.history.log).takeWhile (· ≠ .inr key) =
      .inl o :: m.history.log.takeWhile (· ≠ .inr key) :=
    List.takeWhile_cons_of_pos (decide_eq_true Sum.inl_ne_inr)
  unfold QuotedSince
  rw [hear_eq houtput]
  dsimp only
  rw [htake, List.exists_mem_cons_iff]

/-- Of a generation that has not been yet, no quote has come. -/
theorem Converging.not_quotes (h : m.Converging rt extra) {generation : ℕ}
    {x : SourceOutput ⊕ SubscriptionKey} (hgeneration : m.source.generation < generation)
    (hx : x ∈ m.history.log.takeWhile (· ≠ .inr key)) : ¬Quotes key.symbol generation x := by
  intro hquotes
  unfold Quotes at hquotes
  split at hquotes
  · have hbound := h.bound _ ((List.takeWhile_sublist _).subset hx)
    exact absurd hquotes.2.2 (hbound.trans_lt hgeneration).ne
  · exact hquotes

/-- What is heard goes on to the bound, if what is heard is bounded. -/
theorem Converging.bound_hear (h : m.Converging rt extra) {o : SourceOutput}
    {before : List SourceOutput} (houtput : t.output = o :: before)
    (hgeneration : m.source.generation ≤ t.generation)
    (ho : ∀ point : MarketDataPoint, o = .emitted (.marketData point) →
      point.generation ≤ t.generation) (point : MarketDataPoint)
    (hpoint : .inl (.emitted (.marketData point)) ∈ (m.hear rt t).history.log) :
    point.generation ≤ t.generation := by
  rw [hear_eq houtput] at hpoint
  rcases List.mem_cons.1 hpoint with heq | hpoint
  · exact ho point (Sum.inl.inj heq).symm
  · exact (h.bound point hpoint).trans hgeneration

/-- What is heard changes no key. -/
theorem referenced_hear : (m.hear rt t).manager.Referenced key ↔ m.manager.Referenced key := by
  unfold SmartSubscriptionManager.Referenced
  rw [hear_references]

/-- Nor what is desired, as long as nothing changes. -/
theorem Converging.desired_hear (h : m.Converging rt extra) (hunchanged : Unchanged m.source t)
    (symbols : List JsString) (hpassed : symbols ∈ (m.hear rt t).history.passed) :
    (m.hear rt t).source.desiredSymbols = rt.normalizeSymbols symbols := by
  rw [(hear_history t).1] at hpassed
  rw [hear_source]
  exact hunchanged.desired.trans (h.desired symbols hpassed)

/-- A status is heard. -/
theorem Converging.hearStatus (h : m.Converging rt extra) (ht : t.Regular)
    {before : List SourceOutput} (hunchanged : Unchanged m.source t)
    (houtput : t.output = .status t.status :: before) : (m.hear rt t).Converging rt extra := by
  have hsound : (m.hear rt t).Sound Set.univ := h.sound.hearStatus hunchanged houtput
  have hmanager : (m.hear rt t).manager = m.manager.hearStatus rt.toRuntime t.status := by
    rw [hear_eq houtput]
    rfl
  refine ⟨hsound, by rw [hear_source]; exact ht, h.desired_hear hunchanged,
    fun key hkey hsymbol => ?_, fun key hkey hquoted => ?_, fun point hpoint => ?_⟩
  · rw [referenced_hear] at hkey
    rw [hear_source] at hsymbol ⊢
    obtain ⟨hsocket, hknown⟩ := h.known_unchanged ht hunchanged hkey hsymbol
    rw [hmanager]
    rcases @SmartSubscriptionManager.hearStatus_cases m.manager rt.toRuntime t.status with
      ⟨hne, -, -⟩ | ⟨-, hacknowledged, -⟩
    · -- The socket would be that of another generation.
      rw [h.generation, ht.1.generation] at hne
      exact absurd (hunchanged.generation.2 hsocket) hne
    · rw [hacknowledged]
      exact hknown
  · rw [referenced_hear] at hkey
    rw [quotedSince_hear houtput] at hquoted
    obtain ⟨x, hx, hquotes⟩ := hquoted.resolve_left id
    rw [hmanager]
    rcases @SmartSubscriptionManager.hearStatus_cases m.manager rt.toRuntime t.status with
      ⟨hne, -, -⟩ | ⟨heq, -, hfresh⟩
    · rw [h.generation, ht.1.generation] at hne
      have hlt := lt_of_le_of_ne hunchanged.generation.1 hne.symm
      exact absurd hquotes (h.not_quotes hlt hx)
    · rw [h.generation, ht.1.generation] at heq
      rw [hfresh]
      exact h.fresh key hkey ⟨x, hx, heq ▸ hquotes⟩
  · rw [hear_source]
    exact h.bound_hear houtput hunchanged.generation.1
      (fun _ heq => SourceOutput.noConfusion heq) point hpoint

/-- A plain event is heard. -/
theorem Converging.hearPlain (h : m.Converging rt extra) (ht : t.Regular) {event : SourceEvent}
    {before : List SourceOutput} (hunchanged : Unchanged m.source t)
    (houtput : t.output = .emitted event :: before) (hstatus : t.status = m.source.status)
    (hplain : ∀ action symbols generation requestId,
      event ≠ .subscriptionAck action symbols generation requestId) :
    (m.hear rt t).Converging rt extra := by
  have hsound : (m.hear rt t).Sound Set.univ :=
    h.sound.hearPlain hunchanged houtput hstatus hplain
  have hmanager : (m.hear rt t).manager = m.manager.hearEvent rt.toRuntime event := by
    rw [hear_eq houtput]
    rfl
  have hgeneration := h.regular.generation_eq ht hstatus
  obtain ⟨hacknowledged, hfresh⟩ :=
    @SmartSubscriptionManager.hearEvent_plain m.manager rt.toRuntime event hplain
  refine ⟨hsound, by rw [hear_source]; exact ht, h.desired_hear hunchanged,
    fun key hkey hsymbol => ?_, fun key hkey hquoted => ?_, fun point hpoint => ?_⟩
  · rw [referenced_hear] at hkey
    rw [hear_source] at hsymbol ⊢
    rw [hmanager, hacknowledged]
    exact (h.known_unchanged ht hunchanged hkey hsymbol).2
  · rw [referenced_hear] at hkey
    rw [hmanager]
    rcases (quotedSince_hear houtput).1 hquoted with hquotes | ⟨x, hx, hquotes⟩
    · -- A quote of the symbol makes it fresh.
      cases event with
      | marketData point =>
        obtain ⟨hsymbol, hstale, hof⟩ := hquotes
        exact SmartSubscriptionManager.hearEvent_marketData
          ((hof.trans hgeneration).trans h.generation.symm) hkey hsymbol hstale
      | _ => exact hquotes.elim
    · exact hfresh _ (h.fresh key hkey ⟨x, hx, hgeneration ▸ hquotes⟩)
  · rw [hear_source]
    refine h.bound_hear houtput hunchanged.generation.1 (fun point hevent => ?_) point hpoint
    exact (ht.emitted (hevent ▸ houtput)).le

/-- What is told is heard. -/
theorem Converging.hear (h : m.Converging rt extra) (ht : t.Regular)
    (hutters : Utters m.source t) : (m.hear rt t).Converging rt extra := by
  cases hutters with
  | reports before hunchanged houtput => exact h.hearStatus ht hunchanged houtput
  | emits event before hunchanged houtput hstatus hplain =>
    exact h.hearPlain ht hunchanged houtput hstatus hplain

/-- A call that speaks keeps the manager converging. -/
theorem Converging.lift (h : m.Converging rt extra) (hspeaks : Speaks m.source call)
    (hregular : call.Keeps Regular) :
    (ManagedSource.lift rt m call).Keeps (Converging rt extra) :=
  keeps_of_speaks (fun _ _ hm => hm.unchanged) (fun _ _ hm => hm.hear) h hspeaks hregular

/-! ## Calls of the source -/

/-- A call that speaks from another state of the source. -/
theorem Converging.liftFrom (h : (m.withSource t).Converging rt extra) (hspeaks : Speaks t call)
    (hregular : call.Keeps Regular) :
    (ManagedSource.lift rt m call).Keeps (Converging rt extra) := by
  rw [← lift_withSource (t := t)]
  exact h.lift hspeaks hregular

/-- A socket that is opened has nothing confirmed. -/
theorem Converging.openSocket (h : m.Converging rt extra) (hdisconnects : m.source.Disconnects s)
    (isReconnect : Bool)
    (hregular : (SourceCall.openSocket s outcomes isReconnect).Keeps Regular) :
    (ManagedSource.lift rt m (SourceCall.openSocket s outcomes isReconnect)).Keeps
      (Converging rt extra) := by
  unfold SourceCall.openSocket at hregular ⊢
  rw [if_pos hdisconnects.running] at hregular ⊢
  dsimp only at hregular ⊢
  generalize SourceStatus.mk (if isReconnect = true then .reconnecting else .connecting)
    (s.generation + 1) _ none none = status at hregular ⊢
  -- The generation is raised and the state reset before anything is told.
  obtain ⟨opening, hopening, hconfirmed, hunchanged⟩ : ∃ opening,
      resetSubscriptionState { s with generation := s.generation + 1 } = opening ∧
        opening.confirmedSymbols = [] ∧ Unchanged s opening :=
    ⟨_, rfl, rfl, .of_none rfl (fun _ ho => ho) hdisconnects.noSocket (Nat.le_succ _)⟩
  rw [hopening] at hregular ⊢
  obtain ⟨⟨htold, -⟩, hrest⟩ := Call.tells_bind.1 hregular.1
  have hrun := hregular.2
  rw [Call.run_bind] at hrun
  have hset : Unchanged opening (opening.setStatus status) :=
    .of_eq rfl (fun _ => mem_cons_output) rfl rfl rfl rfl
  -- The status of the new generation is heard.
  have hheard : (m.hear rt (opening.setStatus status)).Converging rt extra :=
    h.hear htold (.reports opening.output
      (((Unchanged.of_disconnects hdisconnects).trans hunchanged).trans hset) rfl)
  rw [lift_bind]
  refine Call.Keeps.bind ⟨⟨hheard, trivial⟩, hheard⟩ fun _ => ?_
  have hlifted : (ManagedSource.lift rt m (SourceCall.setStatus opening status)).run =
      m.hear rt (opening.setStatus status) := rfl
  have hsame : (SourceCall.setStatus opening status).run = opening.setStatus status := rfl
  rw [hsame] at hrest hrun
  rw [hlifted, hear_source]
  -- The socket is made, or a reconnect is scheduled.
  by_cases hconnects : outcomes.connects = true
  · rw [if_pos hconnects] at hrun ⊢
    have hstatus := hheard.sound.status
    rw [hear_source] at hstatus
    refine ⟨trivial, ⟨hstatus, hheard.sound.populated,
      hheard.sound.pairs, fun _ _ _ => Or.inr trivial, fun symbol hsymbol => ?_⟩, hrun,
      fun symbols hpassed => ?_, fun key _ hsymbol => ?_, fun key hkey hquoted => ?_,
      fun point hpoint => ?_⟩
    · have hquoted := hheard.sound.fresh symbol hsymbol
      rw [hear_source] at hquoted
      exact hquoted.mono (fun _ ho => ho) rfl
    · have hdesired := hheard.desired symbols hpassed
      rw [hear_source] at hdesired
      exact hdesired
    · have hsymbol : key.symbol ∈ opening.confirmedSymbols := hsymbol
      rw [hconfirmed] at hsymbol
      exact absurd hsymbol List.not_mem_nil
    · obtain ⟨x, hx, hquotes⟩ := hquoted
      refine hheard.fresh key hkey ⟨x, hx, ?_⟩
      rw [hear_source]
      exact hquotes
    · have hbound := hheard.bound point hpoint
      rw [hear_source] at hbound
      exact hbound
  · rw [if_neg hconnects] at hrest hrun ⊢
    refine hheard.lift ?_ ⟨hrest, hrun⟩
    rw [hear_source]
    exact speaks_scheduleReconnect _

/-! ### Acknowledgements -/

variable {operation : PendingSubscriptionOperation} {socket : WebSocketLike}

/-- Once an operation is accepted, the manager has still to hear of its symbols. -/
theorem Converging.accept (h : m.Converging rt ∅) (hawaits : m.source.Awaits socket operation)
    (haccepted : (m.source.accept operation).Regular) :
    (m.withSource (m.source.accept operation)).Converging rt
      {symbol | symbol ∈ operation.symbols} where
  sound := (h.sound.accept (Set.subset_univ _) fun _ _ _ _ => trivial)
  regular := haccepted
  desired := h.desired
  known key hkey hsymbol := by
    have hsymbol : key.symbol ∈ confirm m.source.confirmedSymbols operation := hsymbol
    rw [mem_confirm] at hsymbol
    unfold changed at hsymbol
    -- What is confirmed and not in the operation was confirmed before.
    by_cases hmem : key.symbol ∈ operation.symbols
    · exact Or.inr (Or.inr hmem)
    · have hbefore : key.symbol ∈ m.source.confirmedSymbols := by
        cases haction : operation.action with
        | subscribe =>
          rw [haction] at hsymbol
          exact (List.mem_union_iff.1 hsymbol).resolve_left hmem
        | unsubscribe =>
          rw [haction] at hsymbol
          exact (List.mem_filter.1 hsymbol).1
      rcases h.known key hkey hbefore with hacknowledged | hun | hnone
      · exact Or.inl hacknowledged
      · exact absurd (hun.of_awaits hawaits).2 hmem
      · exact absurd hnone (Set.notMem_empty _)
  fresh := h.fresh
  bound := h.bound

/-- Nothing becomes fresh as the error is cleared. -/
theorem fresh_clearSubscriptionError {symbol : JsString}
    (hsymbol : symbol ∈ (ManagedSource.lift rt m
      (SourceCall.clearSubscriptionError s)).run.manager.freshSymbols) :
    symbol ∈ m.manager.freshSymbols := by
  unfold SourceCall.clearSubscriptionError at hsymbol
  split_ifs at hsymbol
  · have hsymbol : symbol ∈ (m.hear rt (s.setStatus _)).manager.freshSymbols := hsymbol
    rw [hear_eq (t := s.setStatus _) rfl] at hsymbol
    have hsymbol : symbol ∈ (m.manager.hearStatus rt.toRuntime _).freshSymbols := hsymbol
    rcases @SmartSubscriptionManager.hearStatus_cases m.manager rt.toRuntime _ with
      ⟨-, -, hempty⟩ | ⟨-, -, hsame⟩
    · rw [hempty] at hsymbol
      exact absurd hsymbol (InsertionSet.not_mem_empty symbol)
    · rw [hsame] at hsymbol
      exact hsymbol
  · exact hsymbol

/-- The acknowledgement is heard. -/
theorem Converging.hearAck (h : m.Converging rt {symbol | symbol ∈ operation.symbols})
    (hsource : m.source = (s.accept operation).clearSubscriptionError) (hs : Consistent s)
    (ht : (m.source.emit (s.acknowledgement operation)).Regular)
    (hfresh : operation.action = .unsubscribe →
      ∀ symbol ∈ operation.symbols, symbol ∉ m.manager.freshSymbols) :
    (m.hear rt (m.source.emit (s.acknowledgement operation))).Converging rt ∅ := by
  have hsound : (m.hear rt (m.source.emit (s.acknowledgement operation))).Sound Set.univ :=
    (h.sound.mono fun _ _ => Or.inl trivial).hearAgain hsource hs
  have hemitted : s.generation = m.source.generation := ht.emitted rfl
  have hof : s.generation = m.manager.sourceStatus.generation :=
    hemitted.trans h.generation.symm
  have hmanager : (m.hear rt (m.source.emit (s.acknowledgement operation))).manager =
      m.manager.hearEvent rt.toRuntime (s.acknowledgement operation) := rfl
  have hquoted {key : SubscriptionKey} (hquoted : (m.hear rt
      (m.source.emit (s.acknowledgement operation))).QuotedSince key) : m.QuotedSince key :=
    ((quotedSince_hear rfl).1 hquoted).resolve_left id
  refine ⟨hsound, ht, h.desired, fun key hkey hsymbol => ?_, fun key hkey hsince => ?_,
    h.bound_hear (t := m.source.emit (s.acknowledgement operation)) rfl le_rfl
      fun point heq => SourceEvent.noConfusion (SourceOutput.emitted.inj heq)⟩
  · rw [referenced_hear] at hkey
    have hconfirmed : key.symbol ∈ m.source.confirmedSymbols := hsymbol
    have hknown := h.known key hkey hconfirmed
    rw [hmanager]
    unfold acknowledgement
    cases haction : operation.action with
    | subscribe =>
      rw [SmartSubscriptionManager.hearEvent_subscribe hof]
      rcases hknown with hacknowledged | hun | hmem
      · exact Or.inl (InsertionSet.mem_foldl_add.2 (Or.inl hacknowledged))
      · exact Or.inr (Or.inl hun)
      · exact Or.inl (InsertionSet.mem_foldl_add.2 (Or.inr hmem))
    | unsubscribe =>
      -- What is confirmed still is none of its symbols.
      have hnot : key.symbol ∉ operation.symbols := by
        have hchanged : key.symbol ∈ confirm s.confirmedSymbols operation := by
          rw [hsource] at hconfirmed
          unfold GatewayWebSocketSource.clearSubscriptionError at hconfirmed
          split_ifs at hconfirmed <;> exact hconfirmed
        rw [mem_confirm, haction] at hchanged
        exact of_decide_eq_true (List.mem_filter.1 hchanged).2
      rw [SmartSubscriptionManager.hearEvent_unsubscribe hof]
      rcases hknown with hacknowledged | hun | hmem
      · exact Or.inl (InsertionSet.mem_foldl_delete.2 ⟨hacknowledged, hnot⟩)
      · exact Or.inr (Or.inl hun)
      · exact absurd hmem hnot
  · rw [referenced_hear] at hkey
    have hbefore := h.fresh key hkey (hquoted hsince)
    rw [hmanager]
    unfold acknowledgement
    cases haction : operation.action with
    | subscribe =>
      rw [SmartSubscriptionManager.hearEvent_subscribe hof]
      exact hbefore
    | unsubscribe =>
      rw [SmartSubscriptionManager.hearEvent_unsubscribe hof]
      exact InsertionSet.mem_foldl_delete.2
        ⟨hbefore, fun hmem => hfresh haction _ hmem hbefore⟩

/-- After an event, the desired symbols are flushed. -/
theorem Converging.flush {event : SourceEvent}
    (hheard : (m.hear rt (m.source.emit event)).Converging rt extra)
    (hregular : (SourceCall.flushDesiredSymbols (m.source.emit event) outcomes).Keeps Regular) :
    (ManagedSource.lift rt m ((SourceCall.emit m.source event).bind fun t =>
      SourceCall.flushDesiredSymbols t outcomes)).Keeps (Converging rt extra) := by
  have hemit : ManagedSource.lift rt m (SourceCall.emit m.source event) =
      .telling (m.hear rt (m.source.emit event)) .returned := rfl
  rw [lift_bind, hemit]
  exact Call.Keeps.bind ⟨⟨hheard, trivial⟩, hheard⟩ fun hheard =>
    hheard.lift speaks_flushDesiredSymbols hregular

/-- After an acknowledgement, the manager knows of what is confirmed, if an unsubscribe has no
symbol that is fresh. Before that, it may not know of the symbols that are acknowledged. -/
theorem Converging.acknowledge (h : m.Converging rt ∅) (hawaits : m.source.Awaits socket operation)
    (hfresh : operation.action = .unsubscribe →
      ∀ symbol ∈ operation.symbols, symbol ∉ m.manager.freshSymbols)
    (haccepted : (m.source.accept operation).Regular)
    (hregular : (m.source.acknowledge outcomes operation).Keeps Regular) :
    (ManagedSource.lift rt m (m.source.acknowledge outcomes operation)).Tells
        (Converging rt {symbol | symbol ∈ operation.symbols}) ∧
      (ManagedSource.lift rt m (m.source.acknowledge outcomes operation)).run.Converging rt ∅ := by
  unfold GatewayWebSocketSource.acknowledge at hregular ⊢
  -- The call is in three parts: the error is cleared, the event emitted, the symbols flushed.
  obtain ⟨htells, hrest⟩ := Call.tells_bind.1 hregular.1
  have hrun := hregular.2
  rw [Call.run_bind] at hrun
  obtain ⟨⟨hemitted, -⟩, hflushed⟩ := Call.tells_bind.1 hrest
  rw [Call.run_bind] at hrun
  have hclear : (SourceCall.clearSubscriptionError (m.source.accept operation)).Keeps Regular := by
    refine ⟨htells, ?_⟩
    unfold SourceCall.clearSubscriptionError at htells ⊢
    split_ifs at htells ⊢
    · exact htells.1
    · exact haccepted
  have hcleared := (h.accept hawaits haccepted).lift speaks_clearSubscriptionError hclear
  rw [← lift_withSource (t := m.source.accept operation), lift_bind]
  have hsource : (ManagedSource.lift rt (m.withSource (m.source.accept operation))
      (SourceCall.clearSubscriptionError (m.source.accept operation))).run.source =
      (m.source.accept operation).clearSubscriptionError :=
    run_lift_source.trans SourceCall.run_clearSubscriptionError
  rw [SourceCall.run_clearSubscriptionError, ← hsource] at hemitted hflushed hrun
  -- As the event is heard, the manager catches up with the source.
  have hheard := hcleared.2.hearAck hsource h.regular.1 hemitted
    fun haction symbol hsymbol hmem =>
      hfresh haction symbol hsymbol
        (fresh_clearSubscriptionError (m := m.withSource (m.source.accept operation)) hmem)
  have hfollows := hheard.flush ⟨hflushed, hrun⟩
  refine ⟨Call.tells_bind.2 ⟨hcleared.1, hfollows.1.mono fun _ hm =>
    hm.mono (Set.empty_subset _)⟩, ?_⟩
  rw [Call.run_bind]
  exact hfollows.2

/-- An unsubscribe that is acknowledged has no symbol of which a quote has come. -/
def Unquoted (m : ManagedSource) (action : SourceAction) : Prop :=
  ∀ operation ∈ acknowledgedBy m.source action, operation.action = .unsubscribe →
    ∀ symbol ∈ operation.symbols, symbol ∉ m.manager.freshSymbols

instance (m : ManagedSource) (action : SourceAction) : Decidable (m.Unquoted action) :=
  inferInstanceAs (Decidable (∀ operation ∈ acknowledgedBy m.source action, _ → _))

/-- Whatever happens to the source, the manager knows of what is confirmed when it is done, if the
gateway rejects nothing and acknowledges no unsubscribe of a symbol that is fresh. Wherever
something is told before that, the manager may not know of the symbols that are acknowledged. -/
theorem Converging.sourceCall (h : m.Converging rt ∅) {action : SourceAction}
    (hrejects : rejectedBy m.source action = none)
    (hextra : ∀ operation ∈ acknowledgedBy m.source action,
      {symbol | symbol ∈ operation.symbols} ⊆ extra)
    (hfresh : m.Unquoted action) (hacts : Acts m.source outcomes action call)
    (hregular : call.Keeps Regular) :
    (ManagedSource.lift rt m call).Tells (Converging rt extra) ∧
      (ManagedSource.lift rt m call).run.Converging rt ∅ := by
  have hkeeps {call : ManagerCall} (hcall : call.Keeps (Converging rt ∅)) :
      call.Tells (Converging rt extra) ∧ call.run.Converging rt ∅ :=
    ⟨hcall.1.mono fun _ hm => hm.mono (Set.empty_subset _), hcall.2⟩
  cases hacts with
  | speaks hspeaks => exact hkeeps (h.lift hspeaks hregular)
  | opens isReconnect hdisconnects hstatus =>
    exact hkeeps (h.openSocket hdisconnects isReconnect hregular)
  | acknowledges timers hoperation hconsistent hawaits haccepted =>
    have hunchanged : Unchanged m.source { m.source with timers := timers } :=
      .of_eq rfl (fun _ ho => ho) rfl rfl rfl rfl
    have hsame := h.unchanged ⟨hconsistent, h.regular.2⟩ hunchanged rfl
    obtain ⟨htells, hrun⟩ := hsame.acknowledge hawaits (hfresh _ hoperation)
      ⟨haccepted, h.regular.2⟩ hregular
    rw [← lift_withSource (t := { m.source with timers := timers })]
    exact ⟨htells.mono fun _ hm => hm.mono (hextra _ hoperation), hrun⟩
  | rejects pending hoperation hspeaks =>
    rw [hrejects] at hoperation
    exact absurd hoperation (Option.not_mem_none _)

/-! ## Calls of the manager -/

/-- No quote has come since the keys that are referred to first now. -/
theorem quotes_append {keys : List SubscriptionKey} {log : List (SourceOutput ⊕ SubscriptionKey)}
    {generation : ℕ} :
    (∃ x ∈ (keys.map Sum.inr ++ log).takeWhile (· ≠ Sum.inr key),
        Quotes key.symbol generation x) ↔
      key ∉ keys ∧ ∃ x ∈ log.takeWhile (· ≠ .inr key), Quotes key.symbol generation x := by
  induction keys with
  | nil => exact (and_iff_right List.not_mem_nil).symm
  | cons k keys ih =>
    rw [List.map_cons, List.cons_append, List.mem_cons, not_or]
    by_cases hk : key = k
    · subst hk
      rw [List.takeWhile_cons_of_neg (by simp)]
      exact iff_of_false (fun ⟨_, hx, _⟩ => List.not_mem_nil hx) fun h => h.1.1 rfl
    · have hnone : ¬Quotes key.symbol generation (.inr k) := id
      rw [List.takeWhile_cons_of_pos (by simpa using Ne.symm hk), List.exists_mem_cons_iff,
        or_iff_right hnone, ih, and_assoc]
      exact (and_iff_right hk).symm

/-- The manager converges with other references, if it knows of what is confirmed of the keys that
are referred to first. -/
theorem Converging.withManager (h : m.Converging rt ∅) {manager : SmartSubscriptionManager}
    {history : ManagerHistory} (keys : List SubscriptionKey)
    (hsound : Sound Set.univ { m with manager := manager, history := history })
    (hpassed : history.passed = m.history.passed)
    (hlog : history.log = keys.map .inr ++ m.history.log)
    (hreferenced : ∀ key, manager.Referenced key → key ∉ keys → m.manager.Referenced key)
    (hkept : ∀ key, manager.Referenced key →
      (key.symbol ∈ m.manager.acknowledgedSymbols → key.symbol ∈ manager.acknowledgedSymbols) ∧
        (key.symbol ∈ m.manager.freshSymbols → key.symbol ∈ manager.freshSymbols))
    (hnew : ∀ key ∈ keys, key.symbol ∈ m.source.confirmedSymbols →
      key.symbol ∈ m.manager.acknowledgedSymbols ∨ m.source.Unsubscribing key.symbol) :
    Converging rt ∅ { m with manager := manager, history := history } where
  sound := hsound
  regular := h.regular
  desired symbols hsymbols := h.desired symbols (hpassed ▸ hsymbols)
  known key hkey hsymbol := by
    have hknown : key.symbol ∈ m.manager.acknowledgedSymbols ∨
        m.source.Unsubscribing key.symbol := by
      by_cases hmem : key ∈ keys
      · exact hnew key hmem hsymbol
      · exact (h.known key (hreferenced key hkey hmem) hsymbol).imp_right fun hor =>
          hor.resolve_right (Set.notMem_empty _)
    exact hknown.imp (hkept key hkey).1 Or.inl
  fresh key hkey hquoted := by
    have hquoted : ∃ x ∈ history.log.takeWhile (· ≠ .inr key),
        Quotes key.symbol m.source.generation x := hquoted
    -- A key that has been referred to first just now has had no quote since.
    rw [hlog, quotes_append] at hquoted
    exact (hkept key hkey).2 (h.fresh key (hreferenced key hkey hquoted.1) hquoted.2)
  bound point hpoint := by
    have hpoint : .inl (.emitted (.marketData point)) ∈ history.log := hpoint
    rw [hlog, List.mem_append, List.mem_map] at hpoint
    rcases hpoint with ⟨_, -, heq⟩ | hpoint
    · cases heq
    · exact h.bound point hpoint

/-- Other symbols are desired. -/
theorem Converging.syncDesiredSymbols (h : m.Converging rt ∅) :
    (m.syncDesiredSymbols rt outcomes).Keeps (Converging rt ∅) := by
  have hcall : SourceCall.method rt m.source (.replaceSymbols m.manager.symbols, outcomes) =
      some (SourceCall.replaceSymbols m.source rt outcomes m.manager.symbols) := rfl
  refine Converging.liftFrom ?_ (speaks_replaceSymbols m.manager.symbols)
    (h.regular.method hcall)
  exact {
    sound := { h.sound with }
    regular := ⟨{ h.regular.1 with pending := h.regular.1.pending_of rfl rfl rfl rfl },
      h.regular.2⟩
    desired := fun symbols hsymbols => by rw [← Option.some.inj hsymbols]; rfl
    known := h.known
    fresh := h.fresh
    bound := h.bound }

/-- A snapshot is published. -/
theorem Converging.publishSnapshot (h : m.Converging rt ∅) :
    (m.publishSnapshot rt).Keeps (Converging rt ∅) := by
  have hsame : Converging rt ∅ { m with manager := m.manager.publishSnapshot rt.toRuntime } :=
    { h with sound := { h.sound with } }
  exact ⟨⟨hsame, trivial⟩, hsame⟩

/-- The source is started. -/
theorem Converging.startIfNeeded (h : m.Converging rt ∅) :
    (m.startIfNeeded rt outcomes).Keeps (Converging rt ∅) := by
  unfold ManagedSource.startIfNeeded
  split_ifs
  · have hcall : SourceCall.method rt m.source (.start, outcomes) =
        some (SourceCall.start m.source outcomes) := rfl
    exact h.sourceCall rfl (fun _ hnone => absurd hnone (Option.not_mem_none _))
      (fun _ hnone => absurd hnone (Option.not_mem_none _))
      (method_acts h.regular.1 (fun _ heq => SourceAction.noConfusion heq) hcall)
      (h.regular.method hcall)
  · exact ⟨trivial, h⟩

/-- The manager converges as well when its disposers are others. -/
theorem Converging.withDisposers (h : m.Converging rt ∅) (disposers : List Disposer) :
    Converging rt ∅ { m with disposers := disposers } :=
  { h with sound := { h.sound with } }

/-- What has changed is passed on and published. -/
theorem Converging.changed (h : m.Converging rt ∅) :
    ((m.syncDesiredSymbols rt outcomes).bind fun m => m.publishSnapshot rt).Keeps
      (Converging rt ∅) :=
  h.syncDesiredSymbols.bind Converging.publishSnapshot

end ManagedSource

/-- The keys that a call of the manager begins to refer to, or goes on to. -/
def ManagerAction.keys (rt : Browser) : ManagerAction → List SubscriptionKey
  | .subscribe consumerId input =>
    match rt.normalizeKey input, nonEmptyConsumer consumerId with
    | .ok key, .ok _ => [key]
    | _, _ => []
  | .replaceConsumerSubscriptions consumerId inputs =>
    match nonEmptyConsumer consumerId, inputs.mapM rt.normalizeKey with
    | .ok _, .ok keys => keys
    | _, _ => []
  | .unsubscribe .. => []
  | .dispose _ => []
  | .source _ => []

/-- A subscription refers to its key. -/
theorem ManagerAction.keys_subscribe {rt : Browser} {consumerId consumer : JsString}
    {input : KeyInput} {key : SubscriptionKey} (hkey : rt.normalizeKey input = .ok key)
    (hconsumer : nonEmptyConsumer consumerId = .ok consumer) :
    (ManagerAction.subscribe consumerId input).keys rt = [key] := by
  rw [ManagerAction.keys, hkey, hconsumer]

/-- A replacement refers to what it asks for. -/
theorem ManagerAction.keys_replaceConsumerSubscriptions {rt : Browser}
    {consumerId consumer : JsString} {inputs : List KeyInput} {keys : List SubscriptionKey}
    (hconsumer : nonEmptyConsumer consumerId = .ok consumer)
    (hinputs : inputs.mapM rt.normalizeKey = .ok keys) :
    (ManagerAction.replaceConsumerSubscriptions consumerId inputs).keys rt = keys := by
  rw [ManagerAction.keys, hconsumer, hinputs]

namespace ManagedSource

variable {m m' : ManagedSource} {rt : Browser} {outcomes : Outcomes} {key : SubscriptionKey}

/-- Of the keys that are referred to first, the manager knows what is confirmed. -/
def Foreseen (m : ManagedSource) (keys : List SubscriptionKey) : Prop :=
  ∀ key ∈ keys, m.manager.references.get key = none →
    key.symbol ∈ m.source.confirmedSymbols →
    key.symbol ∈ m.manager.acknowledgedSymbols ∨ m.source.Unsubscribing key.symbol

instance (m : ManagedSource) (keys : List SubscriptionKey) : Decidable (m.Foreseen keys) :=
  inferInstanceAs (Decidable (∀ key ∈ keys, _ → _ → _ ∨ _))

/-- A consumer is added to the consumers of a key. -/
theorem Converging.add (h : m.Converging rt ∅) (consumer : JsString)
    (hkey : m.Foreseen [key]) :
    Converging rt ∅ { m.noteAdded consumer [key] with
      manager := (m.noteAdded consumer [key]).manager.addConsumer consumer key } := by
  refine h.withManager ([key].filter (m.manager.references.get · = none))
    (h.sound.add consumer key) rfl rfl (fun key' hkey' hnot => ?_) (fun _ _ => ⟨id, id⟩)
    fun key' hkey' hsymbol => ?_
  · rcases SmartSubscriptionManager.referenced_addConsumer.1 hkey' with hkey' | rfl
    · exact hkey'
    · intro hnone
      exact hnot (List.mem_filter.2 ⟨List.mem_singleton.2 rfl, decide_eq_true hnone⟩)
  · obtain ⟨hmem, hnone⟩ := List.mem_filter.1 hkey'
    exact hkey key' hmem (of_decide_eq_true hnone) hsymbol

/-- A consumer is deleted from the consumers of a key. -/
theorem Converging.remove (h : m.Converging rt ∅) {consumer : JsString}
    {consumers : InsertionSet JsString} (hget : m.manager.references.get key = some consumers) :
    Converging rt ∅ { m.noteRemoved consumer (· = key) with
      manager := (m.noteRemoved consumer (· = key)).manager.dropConsumer consumer key
        consumers } := by
  have hsheds : SmartSubscriptionManager.Sheds (fun c k => c = consumer ∧ k = key) m.manager
      (m.manager.dropConsumer consumer key consumers) :=
    SmartSubscriptionManager.sheds_dropConsumer h.sound.populated hget
  exact h.withManager [] (h.sound.remove hget) rfl rfl
    (fun key' hkey' _ => hsheds.referenced hkey')
    (fun key' hkey' => hsheds.kept key' (Or.inl hkey')) fun _ hnone => absurd hnone List.not_mem_nil

/-- What a consumer refers to is replaced. -/
theorem Converging.replace (h : m.Converging rt ∅) (consumer : JsString)
    (desired : InsertionSet SubscriptionKey) (hkeys : m.Foreseen desired.elements) :
    Converging rt ∅
      { (m.noteRemoved consumer (· ∉ desired)).noteAdded consumer desired.elements with
        manager := (m.manager.replaceReferences consumer desired).1 } := by
  obtain ⟨m₁, hsheds, -, hreferenced, -, hrest⟩ :=
    SmartSubscriptionManager.replaceReferences_spec h.sound.populated consumer desired
  refine h.withManager (desired.elements.filter (m.manager.references.get · = none))
    (h.sound.replace consumer desired) rfl rfl (fun key hkey hnot => ?_) (fun key hkey => ?_)
    fun key hkey hsymbol => ?_
  · rcases (hreferenced key).1 hkey with hkey | hmem
    · exact hsheds.referenced hkey
    · exact fun hnone => hnot (List.mem_filter.2 ⟨hmem, decide_eq_true hnone⟩)
  · -- A key that is asked for is not dropped on the way.
    rw [hrest]
    exact hsheds.kept key (((hreferenced key).1 hkey).imp_right fun hmem _ hp => hp.2 hmem)
  · obtain ⟨hmem, hnone⟩ := List.mem_filter.1 hkey
    exact hkeys key hmem (of_decide_eq_true hnone) hsymbol

/-- What no consumer refers to is given up. -/
theorem Converging.removeNone (h : m.Converging rt ∅) {consumer : JsString}
    (hrefers : ¬m.manager.Refers consumer key) :
    (m.noteRemoved consumer (· = key)).Converging rt ∅ :=
  { h with sound := h.sound.removeNone hrefers }

/-- A subscription keeps the manager converging. -/
theorem Converging.subscribe (h : m.Converging rt ∅) {consumerId : JsString} {input : KeyInput}
    (hkeys : m.Foreseen ((ManagerAction.subscribe consumerId input).keys rt)) :
    (m.subscribe rt outcomes consumerId input).Keeps (Converging rt ∅) := by
  unfold ManagedSource.subscribe
  split
  · rename_i key consumer hkey hconsumer
    rw [ManagerAction.keys_subscribe hkey hconsumer] at hkeys
    dsimp only
    have hadded := h.add consumer hkeys
    refine Call.Keeps.bind ?_ fun hchanged => Call.Keeps.bind hchanged.startIfNeeded
      fun hstarted => ⟨trivial, hstarted.withDisposers _⟩
    split_ifs
    · exact ⟨trivial, hadded⟩
    · exact hadded.changed
  · exact ⟨trivial, h⟩

/-- So does the end of one. -/
theorem Converging.unsubscribe (h : m.Converging rt ∅) (consumerId : JsString)
    (input : KeyInput) : (m.unsubscribe rt outcomes consumerId input).Keeps (Converging rt ∅) := by
  unfold ManagedSource.unsubscribe
  split
  · rename_i consumer key _ _
    dsimp only
    split
    · rename_i hget
      exact ⟨trivial, h.removeNone (SmartSubscriptionManager.not_refers_of_get hget)⟩
    · rename_i consumers hget
      split_ifs with hmem
      · exact (h.remove hget).changed
      · refine ⟨trivial, h.removeNone fun hrefers => hmem ?_⟩
        exact (SmartSubscriptionManager.refers_of_get hget).1 hrefers
  · exact ⟨trivial, h⟩

/-- So does a disposer. -/
theorem Converging.dispose (h : m.Converging rt ∅) (n : ℕ) (disposer : Disposer) :
    (m.dispose rt outcomes n disposer).Keeps (Converging rt ∅) := by
  unfold ManagedSource.dispose
  split_ifs
  · exact (h.withDisposers _).unsubscribe _ _
  · exact ⟨trivial, h⟩

/-- So does a replacement. -/
theorem Converging.replaceConsumerSubscriptions (h : m.Converging rt ∅) {consumerId : JsString}
    {inputs : List KeyInput}
    (hkeys : m.Foreseen
      ((ManagerAction.replaceConsumerSubscriptions consumerId inputs).keys rt)) :
    (m.replaceConsumerSubscriptions rt outcomes consumerId inputs).Keeps (Converging rt ∅) := by
  unfold ManagedSource.replaceConsumerSubscriptions
  split
  · rename_i consumer keys hconsumer hinputs
    rw [ManagerAction.keys_replaceConsumerSubscriptions hconsumer hinputs] at hkeys
    dsimp only
    have hreplaced := h.replace consumer (InsertionSet.ofList keys)
      fun key hmem => hkeys key (InsertionSet.mem_ofList.1 hmem)
    split_ifs
    · refine hreplaced.syncDesiredSymbols.bind fun hpassed =>
        Call.Keeps.bind ?_ Converging.publishSnapshot
      split_ifs
      · exact ⟨trivial, hpassed⟩
      · exact hpassed.startIfNeeded
    · exact ⟨trivial, hreplaced⟩
  · exact ⟨trivial, h⟩

/-! ## Runs -/

/-- The gateway rejects no operation. -/
def Accepting (c : Calls ManagedSource) : CallLabel (ManagerAction × Outcomes) → Prop
  | .call (.source action, _) => rejectedBy c.state.source action = none
  | _ => True

instance (c : Calls ManagedSource) : DecidablePred (Accepting c)
  | .call (.subscribe _ _, _) => inferInstanceAs (Decidable True)
  | .call (.unsubscribe _ _, _) => inferInstanceAs (Decidable True)
  | .call (.replaceConsumerSubscriptions _ _, _) => inferInstanceAs (Decidable True)
  | .call (.dispose _, _) => inferInstanceAs (Decidable True)
  | .call (.source action, _) =>
    inferInstanceAs (Decidable (rejectedBy c.state.source action = none))
  | .returns => inferInstanceAs (Decidable True)
  | .throws => inferInstanceAs (Decidable True)

/-- The listeners do not call the manager or the source. Whenever a key is referred to first whose
symbol is confirmed, the manager holds the symbol as acknowledged, or the source is unsubscribing
from it. No unsubscribe of a symbol that is fresh is acknowledged. A listener throws only where the
manager knows of what is confirmed. -/
def Heedful (rt : Browser) (c : Calls ManagedSource) :
    CallLabel (ManagerAction × Outcomes) → Prop
  | .call (.source action, _) => c.waiting = [] ∧ c.state.Unquoted action
  | .call (action, _) => c.waiting = [] ∧ c.state.Foreseen (action.keys rt)
  | .returns => True
  | .throws => c.state.Known

instance (rt : Browser) (c : Calls ManagedSource) : DecidablePred (Heedful rt c)
  | .call (.subscribe _ _, _) => inferInstanceAs (Decidable (_ ∧ c.state.Foreseen _))
  | .call (.unsubscribe _ _, _) => inferInstanceAs (Decidable (_ ∧ c.state.Foreseen _))
  | .call (.replaceConsumerSubscriptions _ _, _) =>
    inferInstanceAs (Decidable (_ ∧ c.state.Foreseen _))
  | .call (.dispose _, _) => inferInstanceAs (Decidable (_ ∧ c.state.Foreseen _))
  | .call (.source action, _) => inferInstanceAs (Decidable (_ ∧ c.state.Unquoted action))
  | .returns => inferInstanceAs (Decidable True)
  | .throws => inferInstanceAs (Decidable c.state.Known)

variable {c : Calls ManagedSource} {a : CallLabel (ManagerAction × Outcomes)}

/-- A step of a heedful run is one of listeners that do not call. -/
theorem Heedful.unnested (h : Heedful rt c a) : Calls.Unnested c a := by
  cases a with
  | call b =>
    obtain ⟨action, outcomes⟩ := b
    cases action <;> exact h.1
  | returns => trivial
  | throws => trivial

/-- The manager knows of what is confirmed of the keys that are referred to. -/
theorem Heedful.foreseen {action : ManagerAction}
    (h : Heedful rt c (.call (action, outcomes))) : c.state.Foreseen (action.keys rt) := by
  cases action with
  | source action => exact fun _ hnone => absurd hnone List.not_mem_nil
  | _ => exact h.2

/-- Each call keeps the manager converging, when it is done. -/
theorem Converging.method (h : m.Converging rt ∅) {b : ManagerAction × Outcomes}
    {call : ManagerCall} (hkeys : m.Foreseen (b.1.keys rt))
    (hsource : ∀ action, b.1 = .source action →
      rejectedBy m.source action = none ∧ m.Unquoted action)
    (hcall : m.method rt b = some call) :
    call.Tells (Converging rt Set.univ) ∧ call.run.Converging rt ∅ := by
  -- The manager's own calls keep it converging throughout.
  have hkeeps {call : ManagerCall} (hcall : call.Keeps (Converging rt ∅)) :
      call.Tells (Converging rt Set.univ) ∧ call.run.Converging rt ∅ :=
    ⟨hcall.1.mono fun _ hm => hm.mono (Set.empty_subset _), hcall.2⟩
  obtain ⟨action, outcomes⟩ := b
  cases action with
  | subscribe consumerId input =>
    obtain rfl := Option.some.inj hcall
    exact hkeeps (h.subscribe hkeys)
  | unsubscribe consumerId input =>
    obtain rfl := Option.some.inj hcall
    exact hkeeps (h.unsubscribe consumerId input)
  | replaceConsumerSubscriptions consumerId inputs =>
    obtain rfl := Option.some.inj hcall
    exact hkeeps (h.replaceConsumerSubscriptions hkeys)
  | dispose n =>
    obtain ⟨disposer, -, rfl⟩ := Option.map_eq_some_iff.1 hcall
    exact hkeeps (h.dispose n disposer)
  | source action =>
    obtain ⟨hreplace, sourceCall, hsourceCall, rfl⟩ := method_source hcall
    obtain ⟨hrejects, hfresh⟩ := hsource action rfl
    exact h.sourceCall hrejects (fun _ _ => Set.subset_univ _) hfresh
      (method_acts h.regular.1 hreplace hsourceCall) (h.regular.method hsourceCall)

/-- Where the manager knows of what is confirmed, it converges. -/
theorem Converging.of_known (h : m.Converging rt Set.univ) (hknown : m.Known) :
    m.Converging rt ∅ :=
  { h with
    known := fun key hkey hsymbol => by
      obtain ⟨consumers, hget⟩ := Option.ne_none_iff_exists'.1 hkey
      exact (hknown _ (InsertionMap.mem_entries_iff.2 hget) hsymbol).imp_right Or.inl }

/-- A manager that has just been made converges. -/
theorem converging_new {s : GatewayWebSocketSource} (hs : s.Regular) (autoStart : Bool) :
    (ManagedSource.new rt autoStart s).Converging rt ∅ where
  sound := (settled_new hs.1 rt autoStart).sound
  regular := hs
  desired _ hnone := absurd hnone (Option.not_mem_none _)
  known _ hkey := absurd rfl hkey
  fresh _ hkey := absurd rfl hkey
  bound _ hnone := absurd hnone List.not_mem_nil

/-- In heedful runs over a gateway that rejects nothing, the manager converges whenever no call is
under way. -/
theorem converging_of_path {s : GatewayWebSocketSource} (hs : s.Regular) {autoStart : Bool}
    (h : Path (managerStep rt) (fun c a => Accepting c a ∧ Heedful rt c a)
      ⟨ManagedSource.new rt autoStart s, []⟩ c) (hdone : c.waiting = []) :
    c.state.Converging rt ∅ := by
  let Led := Calls.Leads (Converging rt Set.univ) (Converging rt ∅)
  have hled : Led c :=
    h.invariant Led (Or.inl ⟨rfl, converging_new hs autoStart⟩)
      fun c a c' hled hok hstep => by
        obtain ⟨haccepting, hheedful⟩ := hok
        refine hled.step (fun b call hb hconverging hcall => ?_) (fun hthrows hconverging => ?_)
          hheedful.unnested hstep
        · subst hb
          refine hconverging.method hheedful.foreseen (fun action haction => ?_) hcall
          obtain ⟨_, outcomes⟩ := b
          obtain rfl := haction
          exact ⟨haccepting, hheedful.2⟩
        · subst hthrows
          exact hconverging.of_known hheedful
  exact hled.done hdone

/-- A symbol of a key is desired once it is passed on. -/
theorem mem_normalizeSymbols {symbols : List JsString} (h : key.symbol ∈ symbols) :
    key.symbol ∈ rt.normalizeSymbols symbols := by
  have hvalid := key.valid
  unfold isSymbol at hvalid
  obtain ⟨hlength, hchars⟩ := Bool.and_eq_true_iff.1 hvalid
  have hchars := List.all_eq_true.1 hchars
  have hnormal : rt.normalize key.symbol = key.symbol := by
    unfold Runtime.normalize
    rw [trim_eq fun c hc => (symbolChar_spec (hchars c hc)).2.1,
      rt.toUpperCase_ascii _ fun c hc => (symbolChar_spec (hchars c hc)).1,
      List.map_congr_left fun c hc => (symbolChar_spec (hchars c hc)).2.2, List.map_id']
  have hne : key.symbol ≠ [] := by
    intro hnil
    rw [hnil] at hlength
    cases hlength
  unfold Runtime.normalizeSymbols
  rw [List.mem_insertionSort, List.mem_eraseDups, List.mem_filter]
  exact ⟨List.mem_map.2 ⟨key.symbol, h, hnormal⟩, decide_eq_true hne⟩

/-- In every heedful run of a manager over a source whose gateway rejects nothing, whenever no call
is under way, the source is live with nothing pending, and what is confirmed is what is desired:
each key that is referred to, and of which a non-stale quote has come in the current generation
since it was referred to first, is acknowledged and reported as live. -/
theorem convergence_run (rt : Browser) (options : SourceOptions) (s₀ s : GatewayWebSocketSource)
    (autoStart : Bool) (c : Calls ManagedSource)
    (hnew : GatewayWebSocketSource.new options = .ok s₀)
    (hbefore : Path (callStep rt) Calls.Unnested ⟨s₀, []⟩ ⟨s, []⟩)
    (h : Path (managerStep rt) (fun c a => Accepting c a ∧ Heedful rt c a)
      ⟨ManagedSource.new rt autoStart s, []⟩ c) (hdone : c.waiting = [])
    (hlive : c.state.source.status.state = .live)
    (hpending : c.state.source.pendingSubscriptionOperations.entries = [])
    (hconfirmed : c.state.source.confirmedSymbols = c.state.source.desiredSymbols)
    (key : SubscriptionKey) (hkey : c.state.manager.references.get key ≠ none)
    (hquoted : c.state.QuotedSince key) :
    key.symbol ∈ c.state.manager.acknowledgedSymbols ∧
      ∃ entry ∈ c.state.manager.snapshot.subscriptions, entry.key = key ∧ entry.status = .live := by
  have hregular : s.Regular := kept_of_unnested hnew hbefore
  have hconverging := converging_of_path hregular h hdone
  have hsettled : c.state.Settled Set.univ rt :=
    settled_of_path hregular.1 (fun _ _ hok => hok.2.unnested)
      (fun _ _ _ _ => Set.subset_univ _) h
  -- What is referred to has been passed on, so that it is desired.
  have hsymbol : key.symbol ∈ c.state.history.passed.getD [] := by
    rw [hsettled.passed]
    exact SmartSubscriptionManager.mem_symbols.2 ⟨key, hkey, rfl⟩
  obtain ⟨symbols, hpassed⟩ : ∃ symbols, c.state.history.passed = some symbols := by
    cases hpassed : c.state.history.passed with
    | none =>
      rw [hpassed] at hsymbol
      exact absurd hsymbol List.not_mem_nil
    | some symbols => exact ⟨symbols, rfl⟩
  rw [hpassed, Option.getD_some] at hsymbol
  have hdesired : key.symbol ∈ c.state.source.confirmedSymbols := by
    rw [hconfirmed, hconverging.desired symbols hpassed]
    exact mem_normalizeSymbols hsymbol
  have hacknowledged : key.symbol ∈ c.state.manager.acknowledgedSymbols := by
    rcases hconverging.known key hkey hdesired with hacknowledged | hun | hnone
    · exact hacknowledged
    · obtain ⟨e, he, -⟩ := hun
      rw [hpending] at he
      exact absurd he List.not_mem_nil
    · exact absurd hnone (Set.notMem_empty _)
  refine ⟨hacknowledged, ?_⟩
  obtain ⟨consumers, hget⟩ := Option.ne_none_iff_exists'.1 hkey
  refine ⟨c.state.manager.subscription (key, consumers), ?_, rfl, ?_⟩
  · exact hsettled.current.mem_subscriptions.2
      ⟨_, InsertionMap.mem_entries_iff.2 hget, rfl⟩
  · exact SmartSubscriptionManager.subscription_live.2 ⟨by rw [hsettled.sound.status]; exact hlive,
      hacknowledged, hconverging.fresh key hkey hquoted⟩

/-- The key of the symbol that is asked for. -/
def keyA : SubscriptionKey := ⟨js "A", by decide +kernel⟩

/-- A symbol that is given up while it is asked for, and asked for again while the source is
unsubscribing from it, is live again after a quote. -/
theorem convergence_run_live : ∃ c : Calls ManagedSource,
    ∃ entry ∈ c.state.manager.snapshot.subscriptions, entry.key = keyA ∧ entry.status = .live := by
  obtain ⟨c, hpath, hdone, hlive, hpending, hconfirmed, hkey, hquoted⟩ :=
    Path.exists_of_exec (managerStep asciiBrowser)
      (fun c a => Accepting c a ∧ Heedful asciiBrowser c a)
      ⟨ManagedSource.new asciiBrowser true defaultSource, []⟩
      (subscribingCalls ++ [
        .call (.unsubscribe (js "c") (.symbol (js "A")), fairOutcomes), .returns,
        received (some (js "subscribe-1-1")) (.ack .subscribe [js "A"] none), .returns,
        .call (.subscribe (js "c") (.symbol (js "A")), fairOutcomes), .returns,
        received (some (js "unsubscribe-1-2")) (.ack .unsubscribe [js "A"] none), .returns,
        received (some (js "subscribe-1-3")) (.ack .subscribe [js "A"] none), .returns,
        received none (.quote (quoteOf (js "A"))), .returns])
      (fun c => c.waiting = [] ∧ c.state.source.status.state = .live ∧
        c.state.source.pendingSubscriptionOperations.entries = [] ∧
        c.state.source.confirmedSymbols = c.state.source.desiredSymbols ∧
        c.state.manager.references.get keyA ≠ none ∧ c.state.QuotedSince keyA)
      (by decide +kernel)
  exact ⟨c, (convergence_run asciiBrowser {} defaultSource defaultSource true c new_default .refl
    hpath hdone hlive hpending hconfirmed keyA hkey hquoted).2⟩

/-- The consumer asks for another symbol, and gives the first one up and asks for it again while
the source is busy with the other one. -/
def returningCalls : List (CallLabel (ManagerAction × Outcomes)) :=
  [received (some (js "subscribe-1-1")) (.ack .subscribe [js "A"] none), .returns,
    .call (.subscribe (js "c") (.symbol (js "B")), fairOutcomes), .returns,
    .call (.unsubscribe (js "c") (.symbol (js "A")), fairOutcomes), .returns,
    .call (.subscribe (js "c") (.symbol (js "A")), fairOutcomes), .returns,
    received none (.quote (quoteOf (js "A"))), .returns,
    received (some (js "subscribe-1-2")) (.ack .subscribe [js "B"] none), .returns]

/-- The first symbol is confirmed all the while, but never reported as live again, though a quote
has come. The listeners return, and the gateway rejects nothing. -/
theorem exists_diverged : ∃ c : Calls ManagedSource,
    Path (managerStep asciiBrowser) (fun c a => Accepting c a ∧ Calls.Quiet c a)
      ⟨ManagedSource.new asciiBrowser true defaultSource, []⟩ c ∧
    c.waiting = [] ∧ c.state.source.status.state = .live ∧
    c.state.source.pendingSubscriptionOperations.entries = [] ∧
    c.state.source.confirmedSymbols = c.state.source.desiredSymbols ∧
    c.state.manager.references.get keyA ≠ none ∧ c.state.QuotedSince keyA ∧
    keyA.symbol ∉ c.state.manager.acknowledgedSymbols ∧
    ¬∃ entry ∈ c.state.manager.snapshot.subscriptions, entry.key = keyA ∧ entry.status = .live := by
  obtain ⟨c, hpath, hc⟩ :=
    Path.exists_of_exec (managerStep asciiBrowser) (fun c a => Accepting c a ∧ Calls.Quiet c a)
      ⟨ManagedSource.new asciiBrowser true defaultSource, []⟩ (subscribingCalls ++ returningCalls)
      (fun c => c.waiting = [] ∧ c.state.source.status.state = .live ∧
        c.state.source.pendingSubscriptionOperations.entries = [] ∧
        c.state.source.confirmedSymbols = c.state.source.desiredSymbols ∧
        c.state.manager.references.get keyA ≠ none ∧ c.state.QuotedSince keyA ∧
        keyA.symbol ∉ c.state.manager.acknowledgedSymbols ∧
        ¬∃ entry ∈ c.state.manager.snapshot.subscriptions, entry.key = keyA ∧
          entry.status = .live) (by decide +kernel)
  exact ⟨c, hpath, hc⟩

end ManagedSource

end MarketDataGateway.MarketData

import MarketDataGateway.MarketData.SourceReports
import MarketDataGateway.MarketData.SourceSession
import MarketDataGateway.MarketData.SubscriptionReferences

/-!
# What a subscription manager hears

A manager over a source goes by what it has heard of it (`Sound`): the status, the symbols that have
been acknowledged, and those of which a quote has come. A call of the source keeps that wherever the
source tells something, but for one moment: an acknowledgement of an unsubscribe changes what is
confirmed, and if the status has an error to clear, the source tells that first. Once the call has
returned, the manager has heard of the acknowledgement, too (`sound_sourceCall`).
-/

namespace MarketDataGateway.MarketData

open Lib GatewayWebSocketSource

namespace SmartSubscriptionManager

variable {m : SmartSubscriptionManager} {rt : Runtime} {symbols : List JsString} {generation : ℕ}
  {requestId : Option JsString}

/-- An acknowledgement of a subscribe adds its symbols to those that are acknowledged. -/
theorem hearEvent_subscribe (h : generation = m.sourceStatus.generation) :
    m.hearEvent rt (.subscriptionAck .subscribe symbols generation requestId) =
      { m with
        acknowledgedSymbols := symbols.foldl .add m.acknowledgedSymbols }.publishSnapshot rt :=
  if_neg (not_not.2 h)

/-- An acknowledgement of an unsubscribe has its symbols forgotten. -/
theorem hearEvent_unsubscribe (h : generation = m.sourceStatus.generation) :
    m.hearEvent rt (.subscriptionAck .unsubscribe symbols generation requestId) =
      { m with
        acknowledgedSymbols := symbols.foldl .delete m.acknowledgedSymbols
        freshSymbols := symbols.foldl .delete m.freshSymbols }.publishSnapshot rt :=
  if_neg (not_not.2 h)

/-- A plain event changes nothing of what is acknowledged, and makes nothing less fresh. -/
theorem hearEvent_plain {event : SourceEvent} (hplain : ∀ action symbols generation requestId,
    event ≠ .subscriptionAck action symbols generation requestId) :
    (m.hearEvent rt event).acknowledgedSymbols = m.acknowledgedSymbols ∧
      ∀ symbol ∈ m.freshSymbols, symbol ∈ (m.hearEvent rt event).freshSymbols := by
  unfold hearEvent
  split_ifs with hgeneration
  · exact ⟨rfl, fun _ h => h⟩
  · cases event with
    | subscriptionAck => exact absurd rfl (hplain _ _ _ _)
    | pong => exact ⟨rfl, fun _ h => h⟩
    | notice => exact ⟨rfl, fun _ h => h⟩
    | marketData point =>
      dsimp only
      split_ifs
      · exact ⟨rfl, fun _ h => h⟩
      · exact ⟨rfl, fun _ h => h⟩
      · exact ⟨rfl, fun _ h => h⟩
      · exact ⟨rfl, fun _ h => InsertionSet.mem_add.2 (Or.inl h)⟩

/-- A non-stale quote makes the symbol fresh, if it is referred to. -/
theorem hearEvent_marketData {point : MarketDataPoint} {key : SubscriptionKey}
    (hgeneration : point.generation = m.sourceStatus.generation) (hkey : m.Referenced key)
    (hsymbol : point.quote.symbol = key.symbol) (hstale : point.stale = false) :
    key.symbol ∈ (m.hearEvent rt (.marketData point)).freshSymbols := by
  obtain ⟨consumers, hget⟩ := Option.ne_none_iff_exists'.1 hkey
  have hmem : ¬∀ e ∈ m.references.entries, e.1.symbol ≠ point.quote.symbol := fun hnone =>
    hnone _ (InsertionMap.mem_entries_iff.2 hget) hsymbol.symm
  unfold hearEvent
  split_ifs with hother
  · exact absurd hgeneration hother
  · dsimp only
    rw [← hsymbol]
    split_ifs with hstill hfresh
    · exact absurd (hstale.symm.trans hstill) Bool.false_ne_true
    · exact hfresh
    · exact InsertionSet.mem_add.2 (Or.inr rfl)

/-- A status of another generation has everything forgotten. -/
theorem hearStatus_cases (status : SourceStatus) :
    status.generation ≠ m.sourceStatus.generation ∧
        (m.hearStatus rt status).acknowledgedSymbols = .empty ∧
        (m.hearStatus rt status).freshSymbols = .empty ∨
      status.generation = m.sourceStatus.generation ∧
        (m.hearStatus rt status).acknowledgedSymbols = m.acknowledgedSymbols ∧
        (m.hearStatus rt status).freshSymbols = m.freshSymbols := by
  unfold hearStatus
  dsimp only
  split_ifs with h
  · exact Or.inl ⟨h, rfl, rfl⟩
  · exact Or.inr ⟨not_not.1 h, rfl, rfl⟩

end SmartSubscriptionManager

namespace ManagedSource

variable {m m' : ManagedSource} {rt : Browser} {s t : GatewayWebSocketSource} {call : SourceCall}
  {outcomes : Outcomes} {p : GatewayWebSocketSource → Prop} {extra extra' : Set JsString}

/-- A non-stale quote of the symbol has come in the generation of the status. -/
def Quoted (s : GatewayWebSocketSource) (symbol : JsString) : Prop :=
  ∃ point : MarketDataPoint, .emitted (.marketData point) ∈ s.output ∧
    point.quote.symbol = symbol ∧ point.stale = false ∧ point.generation = s.status.generation

/-- What the manager has heard is so, but that of some symbols more it may hold that they are
acknowledged. What it refers to has been asked for. -/
structure Sound (extra : Set JsString) (m : ManagedSource) : Prop where
  status : m.manager.sourceStatus = m.source.status
  populated : m.manager.Populated
  pairs : ∀ consumer key, (consumer, key) ∈ m.history.pairs ↔ m.manager.Refers consumer key
  acknowledged : m.source.socket ≠ none → ∀ symbol ∈ m.manager.acknowledgedSymbols,
    symbol ∈ m.source.confirmedSymbols ∨ symbol ∈ extra
  fresh : ∀ symbol ∈ m.manager.freshSymbols, Quoted m.source symbol

/-! ## One thing that is heard -/

/-- What is heard is what has been put out last. -/
theorem hear_eq {o : SourceOutput} {before : List SourceOutput} (h : t.output = o :: before) :
    m.hear rt t = { m with
      source := t
      manager := m.manager.hear rt.toRuntime o
      history := { m.history with log := .inl o :: m.history.log } } := by
  unfold hear
  rw [h]

/-- The manager hears of the source as it is. -/
@[simp] theorem hear_source : (m.hear rt t).source = t := by
  unfold hear
  cases t.output <;> rfl

/-- What is heard changes no reference. -/
theorem hear_references (s : GatewayWebSocketSource) :
    (m.hear rt s).manager.references = m.manager.references := by
  unfold hear
  cases s.output with
  | nil => rfl
  | cons o before =>
    cases o with
    | emitted event =>
      show (m.manager.hearEvent rt.toRuntime event).references = _
      unfold SmartSubscriptionManager.hearEvent
      split_ifs
      · rfl
      · cases event with
        | subscriptionAck action => cases action <;> rfl
        | marketData point =>
          dsimp only
          split_ifs <;> rfl
        | pong => rfl
        | notice => rfl
    | status status =>
      show (m.manager.hearStatus rt.toRuntime status).references = _
      unfold SmartSubscriptionManager.hearStatus
      dsimp only
      split_ifs <;> rfl
    | sent => rfl
    | closed => rfl

/-- Nor what is said of the history besides. -/
theorem hear_history (s : GatewayWebSocketSource) :
    (m.hear rt s).history.passed = m.history.passed ∧ (m.hear rt s).disposers = m.disposers := by
  unfold hear
  cases s.output <;> exact ⟨rfl, rfl⟩

/-- What has come before stays so. -/
theorem Quoted.mono {symbol : JsString} (h : Quoted s symbol)
    (houtput : ∀ o ∈ s.output, o ∈ t.output)
    (hgeneration : t.status.generation = s.status.generation) : Quoted t symbol := by
  obtain ⟨point, hpoint, hsymbol, hstale, hof⟩ := h
  exact ⟨point, houtput _ hpoint, hsymbol, hstale, hof.trans hgeneration.symm⟩

/-- The manager is sound over a source of which nothing has changed that it goes by. -/
theorem Sound.unchanged (h : m.Sound extra) (hunchanged : Unchanged m.source t)
    (hstatus : t.status = m.source.status) : (m.withSource t).Sound extra where
  status := h.status.trans hstatus.symm
  populated := h.populated
  pairs := h.pairs
  acknowledged hsocket symbol hsymbol := by
    obtain ⟨hbefore, hconfirmed⟩ := hunchanged.confirmed hsocket
    show symbol ∈ t.confirmedSymbols ∨ symbol ∈ extra
    rw [hconfirmed]
    exact h.acknowledged hbefore symbol hsymbol
  fresh symbol hsymbol := (h.fresh symbol hsymbol).mono hunchanged.output
    (congrArg SourceStatus.generation hstatus)

/-- A status is heard. -/
theorem Sound.hearStatus (h : m.Sound extra) {before : List SourceOutput}
    (hunchanged : Unchanged m.source t) (houtput : t.output = .status t.status :: before) :
    (m.hear rt t).Sound extra := by
  have hreferences : (m.hear rt t).manager.references = m.manager.references :=
    hear_references t
  have hcases := @SmartSubscriptionManager.hearStatus_cases m.manager rt.toRuntime t.status
  rw [hear_eq houtput] at hreferences ⊢
  refine ⟨rfl, fun key consumers hget => ?_, fun consumer key => ?_,
    fun hsocket symbol hsymbol => ?_, fun symbol hsymbol => ?_⟩
  · exact h.populated key consumers (hreferences ▸ hget)
  · rw [h.pairs]
    unfold SmartSubscriptionManager.Refers
    rw [hreferences]
  · have hsymbol : symbol ∈ (m.manager.hearStatus rt.toRuntime t.status).acknowledgedSymbols :=
      hsymbol
    -- A status of another generation empties both sets of symbols.
    rcases hcases with ⟨-, hempty, -⟩ | ⟨-, hsame, -⟩
    · rw [hempty] at hsymbol
      exact absurd hsymbol (InsertionSet.not_mem_empty symbol)
    · rw [hsame] at hsymbol
      obtain ⟨hbefore, hconfirmed⟩ := hunchanged.confirmed hsocket
      show symbol ∈ t.confirmedSymbols ∨ symbol ∈ extra
      rw [hconfirmed]
      exact h.acknowledged hbefore symbol hsymbol
  · have hsymbol : symbol ∈ (m.manager.hearStatus rt.toRuntime t.status).freshSymbols := hsymbol
    rcases hcases with ⟨-, -, hempty⟩ | ⟨hgeneration, -, hsame⟩
    · rw [hempty] at hsymbol
      exact absurd hsymbol (InsertionSet.not_mem_empty symbol)
    · rw [hsame] at hsymbol
      exact (h.fresh symbol hsymbol).mono hunchanged.output
        (hgeneration.trans (congrArg SourceStatus.generation h.status))

/-- A plain event is heard. -/
theorem Sound.hearPlain (h : m.Sound extra) {event : SourceEvent} {before : List SourceOutput}
    (hunchanged : Unchanged m.source t) (houtput : t.output = .emitted event :: before)
    (hstatus : t.status = m.source.status)
    (hplain : ∀ action symbols generation requestId,
      event ≠ .subscriptionAck action symbols generation requestId) :
    (m.hear rt t).Sound extra := by
  rw [hear_eq houtput]
  have hsame := h.unchanged hunchanged hstatus
  unfold SmartSubscriptionManager.hear SmartSubscriptionManager.hearEvent
  dsimp only
  split_ifs with hgeneration
  · exact { hsame with }
  · cases event with
    -- Only a market event that is not stale changes the fresh symbols.
    | subscriptionAck => exact absurd rfl (hplain _ _ _ _)
    | pong => exact { hsame with }
    | notice => exact { hsame with }
    | marketData point =>
      dsimp only
      split_ifs with _ hstale
      · exact { hsame with }
      · exact { hsame with }
      · exact { hsame with }
      · refine ⟨hsame.status, hsame.populated, hsame.pairs, hsame.acknowledged,
          fun symbol hsymbol => ?_⟩
        rcases InsertionSet.mem_add.1 hsymbol with hsymbol | rfl
        · exact hsame.fresh symbol hsymbol
        · refine ⟨point, ?_, rfl, Bool.eq_false_iff.2 hstale, ?_⟩
          · show _ ∈ t.output
            rw [houtput]
            exact List.mem_cons_self
          · have hof : point.generation = m.manager.sourceStatus.generation := not_not.1 hgeneration
            rw [hof, h.status]
            exact congrArg SourceStatus.generation hstatus.symm

/-- What is told is heard. -/
theorem Sound.hear (h : m.Sound extra) (hutters : Utters m.source t) :
    (m.hear rt t).Sound extra := by
  cases hutters with
  | reports before hunchanged houtput => exact h.hearStatus hunchanged houtput
  | emits event before hunchanged houtput hstatus hplain =>
    exact h.hearPlain hunchanged houtput hstatus hplain

/-- The manager may hold more symbols as acknowledged. -/
theorem Sound.mono (h : m.Sound extra) (hextra : extra ⊆ extra') : m.Sound extra' :=
  { h with
    acknowledged := fun hsocket symbol hsymbol =>
      (h.acknowledged hsocket symbol hsymbol).imp id fun hmem => hextra hmem }

/-- An acknowledgement is heard. What the manager holds of its symbols is right after that. -/
theorem Sound.hearAck {action : AckAction} {symbols : List JsString} {generation : ℕ}
    {requestId : Option JsString} {before : List SourceOutput}
    (h : m.Sound (extra ∪ {symbol | symbol ∈ symbols}))
    (houtput : t.output = .emitted (.subscriptionAck action symbols generation requestId) :: before)
    (hold : ∀ o ∈ m.source.output, o ∈ t.output) (hstatus : t.status = m.source.status)
    (hsocket : t.socket ≠ none → m.source.socket ≠ none)
    (hgeneration : generation = m.source.status.generation)
    (hconfirmed : ∀ symbol, symbol ∈ t.confirmedSymbols ↔
      symbol ∈ changed action symbols m.source.confirmedSymbols) :
    (m.hear rt t).Sound extra := by
  have hfresh {symbol : JsString} (hsymbol : symbol ∈ m.manager.freshSymbols) : Quoted t symbol :=
    (h.fresh symbol hsymbol).mono hold (by rw [hstatus])
  -- The manager takes the event, as it is of the generation that it knows.
  have hof : generation = m.manager.sourceStatus.generation := by rw [h.status]; exact hgeneration
  rw [hear_eq houtput]
  unfold SmartSubscriptionManager.hear
  dsimp only
  cases action with
  | subscribe =>
    rw [SmartSubscriptionManager.hearEvent_subscribe hof]
    refine ⟨h.status.trans hstatus.symm, h.populated, h.pairs, fun hopen symbol hsymbol => ?_,
      fun symbol hsymbol => hfresh hsymbol⟩
    -- What is acknowledged now has been confirmed with it.
    have hnew (hmem : symbol ∈ symbols) : symbol ∈ t.confirmedSymbols :=
      (hconfirmed symbol).2 (List.mem_union_iff.2 (Or.inl hmem))
    rcases InsertionSet.mem_foldl_add.1 hsymbol with hsymbol | hsymbol
    · rcases h.acknowledged (hsocket hopen) symbol hsymbol with hbefore | hmem | hmem
      · exact Or.inl ((hconfirmed symbol).2 (List.mem_union_iff.2 (Or.inr hbefore)))
      · exact Or.inr hmem
      · exact Or.inl (hnew hmem)
    · exact Or.inl (hnew hsymbol)
  | unsubscribe =>
    rw [SmartSubscriptionManager.hearEvent_unsubscribe hof]
    refine ⟨h.status.trans hstatus.symm, h.populated, h.pairs, fun hopen symbol hsymbol => ?_,
      fun symbol hsymbol => hfresh (InsertionSet.mem_foldl_delete.1 hsymbol).1⟩
    -- What is left has not been taken out of what is confirmed.
    obtain ⟨hsymbol, hnot⟩ := InsertionSet.mem_foldl_delete.1 hsymbol
    rcases h.acknowledged (hsocket hopen) symbol hsymbol with hbefore | hmem | hmem
    · exact Or.inl ((hconfirmed symbol).2 (List.mem_filter.2 ⟨hbefore, decide_eq_true hnot⟩))
    · exact Or.inr hmem
    · exact absurd hmem hnot

/-- The manager goes by nothing else of the source. -/
theorem Sound.same (h : m.Sound extra) (hsocket : t.socket = m.source.socket)
    (hconfirmed : t.confirmedSymbols = m.source.confirmedSymbols)
    (hstatus : t.status = m.source.status) (houtput : t.output = m.source.output) :
    (m.withSource t).Sound extra where
  status := h.status.trans hstatus.symm
  populated := h.populated
  pairs := h.pairs
  acknowledged hopen symbol hsymbol := by
    show symbol ∈ t.confirmedSymbols ∨ symbol ∈ extra
    rw [hconfirmed]
    exact h.acknowledged (hsocket ▸ hopen) symbol hsymbol
  fresh symbol hsymbol := (h.fresh symbol hsymbol).mono (fun o ho => houtput ▸ ho)
    (congrArg SourceStatus.generation hstatus)

/-! ## Calls of the source -/

/-- The source that a call starts from does not matter. -/
theorem lift_withSource (call : SourceCall) :
    lift rt (m.withSource t) call = lift rt m call := by
  cases call with
  | returned s => rfl
  | telling s rest =>
    have hsame : (m.withSource t).hear rt s = m.hear rt s := by
      unfold ManagedSource.hear
      cases s.output <;> rfl
    rw [lift, lift, hsame]

/-- A call that speaks keeps a property that holds wherever it tells something and where nothing has
changed. -/
theorem keeps_of_speaks {q : ManagedSource → Prop}
    (hunchanged : ∀ m t, q m → p t → Unchanged m.source t → t.status = m.source.status →
      q (m.withSource t))
    (hhear : ∀ m t, q m → p t → Utters m.source t → q (m.hear rt t)) (h : q m)
    (hspeaks : Speaks m.source call) (hp : call.Keeps p) : (lift rt m call).Keeps q := by
  induction call generalizing m with
  | returned t => exact ⟨trivial, hunchanged m t h hp.2 hspeaks.1 hspeaks.2⟩
  | telling t rest ih =>
    have hheard : q (m.hear rt t) := hhear m t h hp.rest.1 hspeaks.1
    have hrest : (lift rt (m.hear rt t) (rest t)).Keeps q :=
      ih t hheard (by rw [hear_source]; exact hspeaks.2) hp.rest.2
    refine ⟨⟨hheard, ?_⟩, ?_⟩
    · show (lift rt (m.hear rt t) (rest (m.hear rt t).source)).Tells q
      rw [hear_source]
      exact hrest.1
    · show q (lift rt (m.hear rt t) (rest (m.hear rt t).source)).run
      rw [hear_source]
      exact hrest.2

/-- A call that speaks keeps the manager sound. -/
theorem Sound.lift (h : m.Sound extra) (hspeaks : Speaks m.source call) :
    (ManagedSource.lift rt m call).Keeps (Sound extra) :=
  keeps_of_speaks (p := fun _ => True) (fun _ _ hm _ => hm.unchanged) (fun _ _ hm _ => hm.hear) h
    hspeaks (Call.keeps_of_forall fun _ => trivial)

/-- What follows a call goes on from what it leaves. -/
theorem lift_bind (call : SourceCall) (next : GatewayWebSocketSource → SourceCall) :
    lift rt m (call.bind next) = (lift rt m call).bind fun m => lift rt m (next m.source) := by
  induction call generalizing m with
  | returned s => exact (lift_withSource (t := s) (next s)).symm
  | telling s rest ih =>
    refine congrArg (Call.telling (m.hear rt s)) (funext fun m => ?_)
    exact ih m.source

/-- The source is left as the call leaves it. -/
theorem run_lift_source : (lift rt m call).run.source = call.run := by
  induction call generalizing m with
  | returned s => rfl
  | telling s rest ih =>
    have hrest := @ih s (m.hear rt s)
    show (lift rt (m.hear rt s) (rest (m.hear rt s).source)).run.source = (rest s).run
    rw [hear_source]
    exact hrest

/-- A call that speaks from another state of the source keeps the manager sound, if the manager is
sound over that one. -/
theorem Sound.liftFrom (h : (m.withSource t).Sound extra) (hspeaks : Speaks t call) :
    (ManagedSource.lift rt m call).Keeps (Sound extra) := by
  rw [← lift_withSource (t := t)]
  exact h.lift hspeaks

/-! ### Answers -/

/-- Where an acknowledgement of an unsubscribe has the source clear an error first, the manager does
not hold its symbols as acknowledged. -/
def Unheld (m : ManagedSource) (action : SourceAction) : Prop :=
  ∀ operation ∈ acknowledgedBy m.source action, operation.action = .unsubscribe →
    m.source.status.lastError.any isSubscriptionError = true →
    ∀ symbol ∈ operation.symbols, symbol ∉ m.manager.acknowledgedSymbols

/-- The symbols that the manager holds as acknowledged, of such an acknowledgement. -/
def Held (m : ManagedSource) (action : SourceAction) : Set JsString :=
  {symbol | ∃ operation ∈ acknowledgedBy m.source action, operation.action = .unsubscribe ∧
    m.source.status.lastError.any isSubscriptionError = true ∧
    symbol ∈ operation.symbols ∧ symbol ∈ m.manager.acknowledgedSymbols}

/-- There are none where the manager holds none. -/
theorem Unheld.held {action : SourceAction} (h : m.Unheld action) : m.Held action ⊆ extra := by
  rintro symbol ⟨operation, hoperation, haction, herror, hsymbol, hmem⟩
  exact absurd hmem (h operation hoperation haction herror symbol hsymbol)

/-- An operation is accepted. Of an unsubscribe, the manager has not heard yet. -/
theorem Sound.accept (h : m.Sound extra) {operation : PendingSubscriptionOperation}
    (hextra : extra ⊆ extra') (hheld : operation.action = .unsubscribe →
      ∀ symbol ∈ operation.symbols, symbol ∈ m.manager.acknowledgedSymbols → symbol ∈ extra') :
    (m.withSource (m.source.accept operation)).Sound extra' where
  status := h.status
  populated := h.populated
  pairs := h.pairs
  acknowledged hsocket symbol hsymbol := by
    rcases h.acknowledged hsocket symbol hsymbol with hconfirmed | hmem
    · show symbol ∈ confirm m.source.confirmedSymbols operation ∨ symbol ∈ extra'
      rw [mem_confirm]
      unfold changed
      cases haction : operation.action with
      | subscribe => exact Or.inl (List.mem_union_iff.2 (Or.inr hconfirmed))
      | unsubscribe =>
        by_cases hmem : symbol ∈ operation.symbols
        · exact Or.inr (hheld haction symbol hmem hsymbol)
        · exact Or.inl (List.mem_filter.2 ⟨hconfirmed, decide_eq_true hmem⟩)
    · exact Or.inr (hextra hmem)
  fresh := h.fresh

/-- An operation that has been accepted changes nothing more. -/
theorem mem_changed_confirm {operation : PendingSubscriptionOperation} {confirmed : List JsString}
    {symbol : JsString} : symbol ∈ confirm confirmed operation ↔
      symbol ∈ changed operation.action operation.symbols (confirm confirmed operation) := by
  unfold changed
  cases haction : operation.action with
  | subscribe =>
    dsimp only
    rw [List.mem_union_iff, mem_confirm, haction]
    exact ⟨Or.inr, fun h => h.elim (fun hmem => List.mem_union_iff.2 (Or.inl hmem)) id⟩
  | unsubscribe =>
    dsimp only
    rw [List.mem_filter, mem_confirm, haction]
    exact ⟨fun h => ⟨h, (List.mem_filter.1 h).2⟩, And.left⟩

/-- An acknowledgement is told in a state in which the operation has been accepted. -/
theorem Sound.hearAccepted (h : m.Sound extra) {operation : PendingSubscriptionOperation}
    (hgeneration : m.source.status.generation = m.source.generation) :
    (m.hear rt ((m.source.accept operation).emit (m.source.acknowledgement operation))).Sound
      extra :=
  (h.mono Set.subset_union_left).hearAck rfl (fun _ ho => List.mem_cons_of_mem _ ho) rfl id
    hgeneration.symm fun _ => mem_confirm

/-- The same where the error has been cleared since. -/
theorem Sound.hearAgain {operation : PendingSubscriptionOperation}
    (h : m.Sound (extra ∪ {symbol | symbol ∈ operation.symbols}))
    (hsource : m.source = (s.accept operation).clearSubscriptionError) (hs : Consistent s) :
    (m.hear rt (m.source.emit (s.acknowledgement operation))).Sound extra := by
  refine h.hearAck rfl (fun _ ho => List.mem_cons_of_mem _ ho) rfl id ?_ fun symbol => ?_
  · rw [hsource]
    unfold GatewayWebSocketSource.clearSubscriptionError
    split_ifs <;> exact hs.generation.symm
  · show symbol ∈ m.source.confirmedSymbols ↔ _
    rw [hsource]
    unfold GatewayWebSocketSource.clearSubscriptionError
    split_ifs <;> exact mem_changed_confirm

/-- What follows an acknowledgement keeps the manager sound. -/
theorem keeps_ack {event : SourceEvent} (h : (m.hear rt (s.emit event)).Sound extra)
    (outcomes : Outcomes) :
    (lift rt m ((SourceCall.emit s event).bind fun s =>
      SourceCall.flushDesiredSymbols s outcomes)).Keeps (Sound extra) := by
  have hemit : lift rt m (SourceCall.emit s event) =
      .telling (m.hear rt (s.emit event)) .returned := rfl
  rw [lift_bind, hemit]
  exact Call.Keeps.bind ⟨⟨h, trivial⟩, h⟩ fun h => h.lift speaks_flushDesiredSymbols

/-- An acknowledgement keeps the manager sound, when it is done. As it is told, the manager may hold
more symbols as acknowledged, if it is told too late. -/
theorem sound_acknowledge (h : m.Sound extra) (hs : Consistent m.source)
    {operation : PendingSubscriptionOperation} (hextra : extra ⊆ extra')
    (hheld : operation.action = .unsubscribe →
      m.source.status.lastError.any isSubscriptionError = true →
      ∀ symbol ∈ operation.symbols, symbol ∈ m.manager.acknowledgedSymbols → symbol ∈ extra') :
    (lift rt m (acknowledge m.source outcomes operation)).Tells (Sound extra') ∧
      (lift rt m (acknowledge m.source outcomes operation)).run.Sound extra := by
  have hkeeps {call : ManagerCall} (hcall : call.Keeps (Sound extra)) :
      call.Tells (Sound extra') ∧ call.run.Sound extra :=
    ⟨hcall.1.mono fun _ hsound => hsound.mono hextra, hcall.2⟩
  unfold acknowledge
  by_cases herror : m.source.status.lastError.any isSubscriptionError = true
  · -- The error is cleared before the acknowledgement is told.
    have htold : (m.withSource (m.source.accept operation)).Sound extra' :=
      h.accept hextra fun haction symbol hsymbol => hheld haction herror symbol hsymbol
    have haccepted : (m.withSource (m.source.accept operation)).Sound
        (extra ∪ {symbol | symbol ∈ operation.symbols}) :=
      h.accept Set.subset_union_left fun _ symbol hsymbol _ => Or.inr hsymbol
    have hcleared : (lift rt (m.withSource (m.source.accept operation))
        (SourceCall.clearSubscriptionError (m.source.accept operation))).Keeps
        (Sound (extra ∪ {symbol | symbol ∈ operation.symbols})) :=
      haccepted.lift speaks_clearSubscriptionError
    rw [← lift_withSource (t := m.source.accept operation), lift_bind]
    obtain ⟨hacktold, hacked⟩ := hkeeps (keeps_ack (hcleared.2.hearAgain
      (run_lift_source.trans SourceCall.run_clearSubscriptionError) hs) outcomes)
    refine ⟨Call.tells_bind.2 ⟨(htold.lift speaks_clearSubscriptionError).1, hacktold⟩, ?_⟩
    rw [Call.run_bind]
    exact hacked
  · have hnone : SourceCall.clearSubscriptionError (m.source.accept operation) =
        .returned (m.source.accept operation) := if_neg herror
    rw [hnone]
    exact hkeeps (keeps_ack (h.hearAccepted hs.generation) outcomes)

/-! ### New sockets -/

/-- With a new generation, the manager forgets what has been acknowledged. -/
theorem hear_newGeneration {before : List SourceOutput}
    (houtput : t.output = .status t.status :: before)
    (hgeneration : t.status.generation ≠ m.manager.sourceStatus.generation) :
    (m.hear rt t).manager.acknowledgedSymbols = .empty := by
  rw [hear_eq houtput]
  rcases @SmartSubscriptionManager.hearStatus_cases m.manager rt.toRuntime t.status with
    ⟨-, hempty, -⟩ | ⟨hsame, -⟩
  · exact hempty
  · exact absurd hsame hgeneration

/-- A socket that is opened comes in a new generation, of which nothing has been heard. -/
theorem keeps_openSocket (h : m.Sound extra) (hnone : m.source.socket = none)
    (hgeneration : m.source.status.generation = m.source.generation) (isReconnect : Bool) :
    (lift rt m (SourceCall.openSocket m.source outcomes isReconnect)).Keeps (Sound extra) := by
  unfold SourceCall.openSocket
  by_cases hrunning : m.source.running = true
  · rw [if_pos hrunning]
    dsimp only
    rw [lift_bind]
    generalize hstatus : SourceStatus.mk (if isReconnect = true then .reconnecting else .connecting)
      (m.source.generation + 1) _ none none = status
    generalize hopening : resetSubscriptionState _ = opening
    -- The generation has been raised before anything is told.
    have hunchanged : Unchanged m.source opening := by
      rw [← hopening]
      exact .of_none rfl (fun _ ho => ho) hnone (Nat.le_succ _)
    refine Call.Keeps.bind (h.lift (speaks_setStatus hunchanged status)) fun hheard => ?_
    have hrun : (lift rt m (SourceCall.setStatus opening status)).run =
      m.hear rt (opening.setStatus status) := rfl
    rw [hrun] at hheard ⊢
    rw [hear_source]
    by_cases hconnects : outcomes.connects = true
    · rw [if_pos hconnects]
      -- The status is that of the new generation, so the manager starts anew.
      have hnew : status.generation ≠ m.manager.sourceStatus.generation := by
        rw [h.status, hgeneration, ← hstatus]
        exact Nat.succ_ne_self _
      have hacknowledged := @hear_newGeneration m rt (opening.setStatus status) _ rfl hnew
      have htold := hheard.status
      rw [hear_source] at htold
      refine ⟨trivial, htold, hheard.populated, hheard.pairs, fun _ symbol hsymbol => ?_,
        fun symbol hsymbol => ?_⟩
      · have hsymbol : symbol ∈
            (m.hear rt (opening.setStatus status)).manager.acknowledgedSymbols := hsymbol
        rw [hacknowledged] at hsymbol
        exact absurd hsymbol (InsertionSet.not_mem_empty symbol)
      · have hquoted := hheard.fresh symbol hsymbol
        rw [hear_source] at hquoted
        exact hquoted.mono (fun _ ho => ho) rfl
    · rw [if_neg hconnects]
      refine hheard.lift ?_
      rw [hear_source]
      exact speaks_scheduleReconnect _
  · rw [if_neg hrunning]
    exact h.lift (speaks_returned (.refl _) rfl)

/-- The same from a source that has just lost its socket. -/
theorem keeps_openSocket_of (h : m.Sound extra) (hs : Consistent m.source)
    (hdisconnects : m.source.Disconnects s) (hstatus : s.status = m.source.status)
    (isReconnect : Bool) :
    (lift rt m (SourceCall.openSocket s outcomes isReconnect)).Keeps (Sound extra) := by
  have hsound : (m.withSource s).Sound extra := h.unchanged (.of_disconnects hdisconnects) hstatus
  rw [← lift_withSource (t := s)]
  refine keeps_openSocket hsound hdisconnects.noSocket ?_ isReconnect
  show s.status.generation = s.generation
  rw [hstatus, hdisconnects.generation, hs.generation]

/-! ### All calls -/

/-- Whatever happens to the source keeps the manager sound, when it is done. Wherever something is
told before that, the manager may hold more symbols as acknowledged. -/
theorem sound_sourceCall (h : m.Sound extra) (hs : Consistent m.source) {action : SourceAction}
    (hextra : extra ⊆ extra') (hheld : m.Held action ⊆ extra')
    (hacts : Acts m.source outcomes action call) :
    (lift rt m call).Tells (Sound extra') ∧ (lift rt m call).run.Sound extra := by
  have hkeeps {call : ManagerCall} (hcall : call.Keeps (Sound extra)) :
      call.Tells (Sound extra') ∧ call.run.Sound extra :=
    ⟨hcall.1.mono fun _ hsound => hsound.mono hextra, hcall.2⟩
  cases hacts with
  | speaks hspeaks => exact hkeeps (h.lift hspeaks)
  | opens isReconnect hdisconnects hstatus =>
    exact hkeeps (keeps_openSocket_of h hs hdisconnects hstatus isReconnect)
  | acknowledges timers hoperation hconsistent hawaits haccepted =>
    have hsound : (m.withSource { m.source with timers := timers }).Sound extra :=
      h.same rfl rfl rfl rfl
    rw [← lift_withSource (t := { m.source with timers := timers })]
    exact sound_acknowledge hsound hconsistent hextra fun haction herror symbol hsymbol hmem =>
      hheld ⟨_, hoperation, haction, herror, hsymbol, hmem⟩
  | rejects pending hoperation hspeaks =>
    refine hkeeps (Sound.liftFrom ?_ hspeaks)
    exact h.same rfl rfl rfl rfl

end ManagedSource

end MarketDataGateway.MarketData
